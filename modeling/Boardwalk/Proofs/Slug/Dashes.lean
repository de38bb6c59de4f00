import Boardwalk.Proofs.Slug.Words
/-!
# Dashes in a row of letters and digits

Behind which characters of a row a boundary stands can be seen from the next two (`boundaryAt`). Not all boundaries
become dashes: one whose first character belongs to a boundary that is marked already is passed over (`breakAt`). So
there is a dash at every boundary just if no two of them share a character (`dashed_at_boundaries_iff`).
-/

namespace Boardwalk.Slug

variable {c d e : Char} {a b cs w : List Char} {i : Nat}

/-! ## Positions -/

def riseAt (cs : List Char) (i : Nat) : Bool :=
  match cs.drop i with
  | c :: d :: _ => isRise c d
  | _ => false

def fallAt (cs : List Char) (i : Nat) : Bool :=
  match cs.drop i with
  | c :: d :: e :: _ => isFall c d e
  | _ => false

def boundaryAt (cs : List Char) (i : Nat) : Bool := riseAt cs i || fallAt cs i

/-- Two boundaries share a character: a capital letter between a small letter or digit and a capital that a small
letter follows, or a small letter between two capitals and a third one. -/
def Crowded (cs : List Char) : Prop :=
  ∃ i, riseAt cs i = true ∧ fallAt cs (i + 1) = true ∨ fallAt cs i = true ∧ riseAt cs (i + 2) = true

/-- The boundaries that count, from the left: those that do not start with a character of one that counts. -/
def breakAt (cs : List Char) : Nat → Bool
  | 0 => boundaryAt cs 0
  | 1 => boundaryAt cs 1 && !boundaryAt cs 0
  | i + 2 => boundaryAt cs (i + 2) && !breakAt cs (i + 1) && !(fallAt cs i && breakAt cs i)

/-- A text in small letters, with dashes behind the characters at some positions. -/
def dashed (p : Nat → Bool) : List Char → List Char
  | [] => []
  | c :: cs =>
    if p 0 then c.toLower :: '-' :: dashed (fun i => p (i + 1)) cs else c.toLower :: dashed (fun i => p (i + 1)) cs

theorem riseAt_iff : riseAt cs i = true ↔ ∃ c d rest, cs.drop i = c :: d :: rest ∧ isRise c d = true := by
  unfold riseAt
  split
  · rename_i c d rest h
    refine ⟨fun hrise => ⟨c, d, rest, h, hrise⟩, ?_⟩
    rintro ⟨c', d', rest', h', hrise⟩
    cases h.symm.trans h'
    exact hrise
  · rename_i hnot
    simp only [Bool.false_eq_true, false_iff]
    rintro ⟨c, d, rest, h, -⟩
    exact hnot c d rest h

theorem fallAt_iff : fallAt cs i = true ↔ ∃ c d e rest, cs.drop i = c :: d :: e :: rest ∧ isFall c d e = true := by
  unfold fallAt
  split
  · rename_i c d e rest h
    refine ⟨fun hfall => ⟨c, d, e, rest, h, hfall⟩, ?_⟩
    rintro ⟨c', d', e', rest', h', hfall⟩
    cases h.symm.trans h'
    exact hfall
  · rename_i hnot
    simp only [Bool.false_eq_true, false_iff]
    rintro ⟨c, d, e, rest, h, -⟩
    exact hnot c d e rest h

theorem fallAt_append (a cs : List Char) (i : Nat) : fallAt (a ++ cs) (a.length + i) = fallAt cs i := by
  rw [fallAt, List.drop_length_add_append]
  rfl

theorem boundaryAt_append (a cs : List Char) (i : Nat) : boundaryAt (a ++ cs) (a.length + i) = boundaryAt cs i := by
  rw [boundaryAt, boundaryAt, fallAt_append, riseAt, List.drop_length_add_append]
  rfl

theorem drop_succ_of_drop {rest : List Char} (h : cs.drop i = c :: rest) : cs.drop (i + 1) = rest := by
  rw [← List.tail_drop, h, List.tail_cons]

theorem boundaryAt_succ (h : boundaryAt cs i = true) (h' : boundaryAt cs (i + 1) = true) :
    riseAt cs i = true ∧ fallAt cs (i + 1) = true := by
  rcases Bool.or_eq_true_iff.mp h with hrise | hfall
  · refine ⟨hrise, (Bool.or_eq_true_iff.mp h').resolve_left fun hnext => ?_⟩
    obtain ⟨c, d, rest, hcs, hcd⟩ := riseAt_iff.mp hrise
    obtain ⟨d', x, rest', hcs', hdx⟩ := riseAt_iff.mp hnext
    cases (drop_succ_of_drop hcs).symm.trans hcs'
    have hupper := (Bool.and_eq_true_iff.mp hcd).2
    rw [isUpper_of_isSmall (Bool.and_eq_true_iff.mp hdx).1] at hupper
    cases hupper
  · obtain ⟨c, d, e, rest, hcs, hcde⟩ := fallAt_iff.mp hfall
    obtain ⟨hcd, hlower⟩ := Bool.and_eq_true_iff.mp hcde
    have hd : isUpper d = true := (Bool.and_eq_true_iff.mp hcd).2
    have hdrop := drop_succ_of_drop hcs
    rcases Bool.or_eq_true_iff.mp h' with hnext | hnext
    · obtain ⟨d', x, rest', hcs', hdx⟩ := riseAt_iff.mp hnext
      cases hdrop.symm.trans hcs'
      rw [isUpper_of_isSmall (Bool.and_eq_true_iff.mp hdx).1] at hd
      cases hd
    · obtain ⟨d', e', x, rest', hcs', hdex⟩ := fallAt_iff.mp hnext
      cases hdrop.symm.trans hcs'
      have he : isUpper e = true := (Bool.and_eq_true_iff.mp (Bool.and_eq_true_iff.mp hdex).1).2
      rw [isUpper_of_isSmall (isSmall_iff.mpr (.inl hlower))] at he
      cases he

/-- A boundary at the last character of a fall is a rise. -/
theorem riseAt_of_fallAt (h : fallAt cs i = true) (h' : boundaryAt cs (i + 2) = true) : riseAt cs (i + 2) = true := by
  refine (Bool.or_eq_true_iff.mp h').resolve_right fun hnext => ?_
  obtain ⟨c, d, e, rest, hcs, hcde⟩ := fallAt_iff.mp h
  obtain ⟨e', x, y, rest', hcs', hexy⟩ := fallAt_iff.mp hnext
  cases (drop_succ_of_drop (drop_succ_of_drop hcs)).symm.trans hcs'
  have he : isUpper e = true := (Bool.and_eq_true_iff.mp (Bool.and_eq_true_iff.mp hexy).1).1
  rw [isUpper_of_isSmall (isSmall_iff.mpr (.inl (Bool.and_eq_true_iff.mp hcde).2))] at he
  cases he

/-! ## The boundaries that count -/

theorem boundaryAt_of_breakAt (h : breakAt cs i = true) : boundaryAt cs i = true := by
  match i with
  | 0 => exact h
  | 1 => exact (Bool.and_eq_true_iff.mp h).1
  | i + 2 => exact (Bool.and_eq_true_iff.mp (Bool.and_eq_true_iff.mp h).1).1

theorem breakAt_succ (h : breakAt cs i = true) : breakAt cs (i + 1) = false := by
  cases i with
  | zero =>
    rw [breakAt, show boundaryAt cs 0 = true from h]
    simp
  | succ i =>
    rw [breakAt, h]
    simp

theorem breakAt_fall (hf : fallAt cs i = true) (h : breakAt cs i = true) : breakAt cs (i + 2) = false := by
  rw [breakAt, hf, h]
  simp

/-- What counts behind some characters is seen without them, if that is so for the first two positions. -/
theorem breakAt_append (a cs : List Char) (h₀ : breakAt (a ++ cs) a.length = breakAt cs 0)
    (h₁ : breakAt (a ++ cs) (a.length + 1) = breakAt cs 1) : ∀ i, breakAt (a ++ cs) (a.length + i) = breakAt cs i
  | 0 => h₀
  | 1 => h₁
  | i + 2 => by
    have hi := breakAt_append a cs h₀ h₁ i
    have hi' : breakAt (a ++ cs) (a.length + i + 1) = breakAt cs (i + 1) := breakAt_append a cs h₀ h₁ (i + 1)
    have hboundary : boundaryAt (a ++ cs) (a.length + i + 2) = boundaryAt cs (i + 2) :=
      boundaryAt_append a cs (i + 2)
    rw [← Nat.add_assoc, breakAt, breakAt, hboundary, hi, hi', fallAt_append]

theorem breakAt_next (h : boundaryAt (c :: cs) 0 = false) (i : Nat) : breakAt (c :: cs) (i + 1) = breakAt cs i := by
  have h₁ : boundaryAt (c :: cs) 1 = boundaryAt cs 0 := rfl
  have h₂ : boundaryAt (c :: cs) 2 = boundaryAt cs 1 := rfl
  have := breakAt_append [c] cs (by simp [breakAt, h, h₁]) (by simp [breakAt, h, h₁, h₂]) i
  rwa [List.length_singleton, Nat.add_comm 1] at this

theorem breakAt_rise (h : isRise c d = true) (i : Nat) : breakAt (c :: d :: cs) (i + 2) = breakAt cs i := by
  have hrise : boundaryAt (c :: d :: cs) 0 = true := Bool.or_eq_true_iff.mpr (.inl h)
  have hfall : fallAt (c :: d :: cs) 0 = false := by
    rw [Bool.eq_false_iff]
    intro hf
    obtain ⟨c', d', e, rest, hcs, hcde⟩ := fallAt_iff.mp hf
    cases hcs
    have hc : isUpper c = true := (Bool.and_eq_true_iff.mp (Bool.and_eq_true_iff.mp hcde).1).1
    rw [isUpper_of_isSmall (Bool.and_eq_true_iff.mp h).1] at hc
    cases hc
  have h₂ : boundaryAt (c :: d :: cs) 2 = boundaryAt cs 0 := rfl
  have h₃ : boundaryAt (c :: d :: cs) 3 = boundaryAt cs 1 := rfl
  have := breakAt_append [c, d] cs (by simp [breakAt, hrise, hfall, h₂])
    (by simp [breakAt, hrise, hfall, h₂, h₃]) i
  rwa [show [c, d].length + i = i + 2 from Nat.add_comm 2 i] at this

theorem breakAt_fallen (h : isFall c d e = true) (i : Nat) : breakAt (c :: d :: e :: cs) (i + 3) = breakAt cs i := by
  have hfall : fallAt (c :: d :: e :: cs) 0 = true := h
  have hboundary : boundaryAt (c :: d :: e :: cs) 0 = true := Bool.or_eq_true_iff.mpr (.inr h)
  have h₃ : boundaryAt (c :: d :: e :: cs) 3 = boundaryAt cs 0 := rfl
  have h₄ : boundaryAt (c :: d :: e :: cs) 4 = boundaryAt cs 1 := rfl
  have := breakAt_append [c, d, e] cs (by simp [breakAt, hfall, hboundary, h₃])
    (by simp [breakAt, hfall, hboundary, h₃, h₄]) i
  rwa [show [c, d, e].length + i = i + 3 from Nat.add_comm 3 i] at this

/-- **All boundaries count, just if no two of them share a character.** -/
theorem breakAt_eq_iff : (∀ i, breakAt cs i = boundaryAt cs i) ↔ ¬ Crowded cs := by
  constructor
  · rintro h ⟨i, ⟨hrise, hfall⟩ | ⟨hfall, hrise⟩⟩
    · have hi : breakAt cs i = true := (h i).trans (Bool.or_eq_true_iff.mpr (.inl hrise))
      have hnext := h (i + 1)
      rw [breakAt_succ hi, boundaryAt, hfall, Bool.or_true] at hnext
      cases hnext
    · have hi : breakAt cs i = true := (h i).trans (Bool.or_eq_true_iff.mpr (.inr hfall))
      have hnext := h (i + 2)
      rw [breakAt_fall hfall hi, boundaryAt, hrise, Bool.true_or] at hnext
      cases hnext
  · intro h i
    rw [Bool.eq_iff_iff]
    refine ⟨boundaryAt_of_breakAt, fun hi => ?_⟩
    have hprev : ∀ j, i = j + 1 → boundaryAt cs j = false := by
      rintro j rfl
      rw [Bool.eq_false_iff]
      exact fun hj => h ⟨j, .inl (boundaryAt_succ hj hi)⟩
    have hfall : ∀ j, i = j + 2 → fallAt cs j = false := by
      rintro j rfl
      rw [Bool.eq_false_iff]
      exact fun hj => h ⟨j, .inr ⟨hj, riseAt_of_fallAt hj hi⟩⟩
    match i with
    | 0 => exact hi
    | 1 => rw [breakAt, hi, hprev 0 rfl, Bool.true_and, Bool.not_false]
    | j + 2 =>
      have hbreak : breakAt cs (j + 1) = false := by
        rw [Bool.eq_false_iff]
        exact fun hj => Bool.false_ne_true ((hprev (j + 1) rfl).symm.trans (boundaryAt_of_breakAt hj))
      rw [breakAt, hi, hbreak, hfall j rfl]
      rfl

/-! ## Words that are joined -/

/-- A row of letters and digits is parted at its rises and falls, from the left. -/
theorem separate_induction {P : List Char → Prop} (nil : P [])
    (rise : ∀ c d cs, isRise c d = true → P cs → P (c :: d :: cs))
    (fall : ∀ c d e cs, isRise c d = false → isFall c d e = true → P cs → P (c :: d :: e :: cs))
    (next : ∀ c cs, boundaryAt (c :: cs) 0 = false → P cs → P (c :: cs)) : ∀ cs, P cs := by
  intro cs
  induction hn : cs.length using Nat.strongRecOn generalizing cs with
  | ind n ih =>
    subst hn
    cases cs with
    | nil => exact nil
    | cons c cs =>
      by_cases hr : riseAt (c :: cs) 0 = true
      · obtain ⟨c', d, rest, hcs, hrise⟩ := riseAt_iff.mp hr
        cases hcs
        exact rise c d rest hrise (ih _ (by simp only [List.length_cons]; omega) rest rfl)
      · by_cases hf : fallAt (c :: cs) 0 = true
        · obtain ⟨c', d, e, rest, hcs, hfall⟩ := fallAt_iff.mp hf
          cases hcs
          exact fall c d e rest (Bool.eq_false_iff.mpr hr) hfall (ih _ (by simp only [List.length_cons]; omega) rest rfl)
        · exact next c cs (by simp [boundaryAt, hr, hf]) (ih _ (Nat.lt_succ_self _) cs rfl)

theorem separate_of_boundaryAt (h : boundaryAt (c :: cs) 0 = false) : separate (c :: cs) = c :: separate cs := by
  obtain ⟨hr, hf⟩ := Bool.or_eq_false_iff.mp h
  cases cs with
  | nil => rfl
  | cons d cs =>
    refine separate_next hr fun e he => ?_
    obtain ⟨rest, rfl⟩ := List.head?_eq_some_iff.mp he
    exact hf

theorem runs_append_word (h : ∀ c ∈ b, isWordChar c = true) (cs w : List Char) :
    runs (b ++ cs) w = runs cs (w ++ b) := by
  induction b generalizing w with
  | nil => rw [List.nil_append, List.append_nil]
  | cons c b ih =>
    obtain ⟨hc, hb⟩ := List.forall_mem_cons.mp h
    rw [List.cons_append, runs, if_pos hc, ih hb, List.append_assoc, List.singleton_append]

theorem runs_ne_nil (h : w ≠ []) : runs cs w ≠ [] := by
  induction cs generalizing w with
  | nil =>
    rw [runs, if_neg (by simpa using h)]
    exact List.cons_ne_nil _ _
  | cons c cs ih =>
    rw [runs]
    by_cases hc : isWordChar c = true
    · rw [if_pos hc]
      exact ih (by simp)
    · rw [if_neg hc, if_neg (by simpa using h)]
      exact List.cons_ne_nil _ _

/-- The runs in small letters, joined by dashes. -/
def joined (runs : List (List Char)) : List Char := Text.joinWith ['-'] (runs.map (·.map Char.toLower))

theorem joined_blank (ha : ∀ c ∈ a, isWordChar c = true) (hb : ∀ c ∈ b, isWordChar c = true) (hane : a ≠ [])
    (hbne : b ≠ []) (cs w : List Char) :
    joined (runs (a ++ ' ' :: (b ++ cs)) w) = (w ++ a).map Char.toLower ++ '-' :: joined (runs cs b) := by
  have hblank : isWordChar ' ' = false := by decide
  have hruns : runs (a ++ ' ' :: (b ++ cs)) w = (w ++ a) :: runs cs b := by
    rw [runs_append_break hblank, runs_word ha (by simp [hane]), runs_append_word hb, List.nil_append,
      List.singleton_append]
  rw [joined, hruns, List.map_cons, Text.joinWith_cons _ _ (by simpa using runs_ne_nil hbne), List.append_assoc,
    List.singleton_append]
  rfl

theorem joined_separate (hcs : ∀ c ∈ cs, isWordChar c = true) (hne : w ++ cs ≠ []) :
    joined (runs (separate cs) w) = w.map Char.toLower ++ dashed (breakAt cs) cs := by
  induction cs using separate_induction generalizing w with
  | nil =>
    rw [List.append_nil] at hne
    rw [separate, runs, if_neg (by simpa using hne), dashed, List.append_nil]
    rfl
  | rise c d cs h ih =>
    obtain ⟨hc, hd, hcs⟩ : isWordChar c = true ∧ isWordChar d = true ∧ ∀ x ∈ cs, isWordChar x = true := by
      simpa using hcs
    have hfirst : breakAt (c :: d :: cs) 0 = true := Bool.or_eq_true_iff.mpr (.inl h)
    have hsecond : breakAt (c :: d :: cs) 1 = false := breakAt_succ hfirst
    have hblank := joined_blank (a := [c]) (b := [d]) (by simpa using hc) (by simpa using hd) (by simp) (by simp)
      (separate cs) w
    rw [separate_rise h, show c :: ' ' :: d :: separate cs = [c] ++ ' ' :: ([d] ++ separate cs) from rfl, hblank,
      ih hcs (by simp)]
    simp [dashed, hfirst, hsecond, breakAt_rise h]
  | fall c d e cs hr h ih =>
    obtain ⟨hc, hd, he, hcs⟩ : isWordChar c = true ∧ isWordChar d = true ∧ isWordChar e = true ∧
        ∀ x ∈ cs, isWordChar x = true := by
      simpa using hcs
    have hfirst : breakAt (c :: d :: e :: cs) 0 = true := Bool.or_eq_true_iff.mpr (.inr h)
    have hsecond : breakAt (c :: d :: e :: cs) 1 = false := breakAt_succ hfirst
    have hthird : breakAt (c :: d :: e :: cs) 2 = false := breakAt_fall (i := 0) h hfirst
    have hblank := joined_blank (a := [c]) (b := [d, e]) (by simpa using hc) (by simpa using ⟨hd, he⟩) (by simp)
      (by simp) (separate cs) w
    rw [separate_fall hr h, show c :: ' ' :: d :: e :: separate cs = [c] ++ ' ' :: ([d, e] ++ separate cs) from rfl,
      hblank, ih hcs (by simp)]
    simp [dashed, hfirst, hsecond, hthird, breakAt_fallen h]
  | next c cs h ih =>
    obtain ⟨hc, hcs⟩ := List.forall_mem_cons.mp hcs
    have hfirst : breakAt (c :: cs) 0 = false := h
    rw [separate_of_boundaryAt h, runs, if_pos hc, ih hcs (by simp), dashed, hfirst]
    simp [breakAt_next h]

/-! ## Dashes -/

theorem toLower_ne_dash (h : isWordChar c = true) : c.toLower ≠ '-' := by
  intro hdash
  have hsmall := isSmall_toLower h
  rw [hdash] at hsmall
  cases hsmall

theorem dashed_head (p : Nat → Bool) (h : ∀ c ∈ cs, isWordChar c = true) (rest : List Char) :
    dashed p cs ≠ '-' :: rest := by
  cases cs with
  | nil => exact List.cons_ne_nil _ _ ∘ Eq.symm
  | cons c cs =>
    have hc := toLower_ne_dash (h c List.mem_cons_self)
    unfold dashed
    split
    · exact fun he => hc (List.head_eq_of_cons_eq he)
    · exact fun he => hc (List.head_eq_of_cons_eq he)

/-- Where the dashes are can be told from the text. -/
theorem dashed_inj {p q : Nat → Bool} (h : ∀ c ∈ cs, isWordChar c = true) :
    dashed p cs = dashed q cs ↔ ∀ i < cs.length, p i = q i := by
  induction cs generalizing p q with
  | nil => simp [dashed]
  | cons c cs ih =>
    have hcs := (List.forall_mem_cons.mp h).2
    have hsplit : (∀ i < (c :: cs).length, p i = q i) ↔ p 0 = q 0 ∧ ∀ i < cs.length, p (i + 1) = q (i + 1) := by
      rw [List.length_cons, Nat.forall_lt_succ_left]
    rw [hsplit, ← ih hcs, dashed, dashed]
    cases p 0 with
    | true =>
      cases q 0 with
      | true => simp
      | false => simpa using fun he => dashed_head _ hcs _ he.symm
    | false =>
      cases q 0 with
      | true => simpa using dashed_head _ hcs _
      | false => simp

theorem boundaryAt_lt (h : boundaryAt cs i = true) : i < cs.length := by
  refine Nat.lt_of_not_le fun hle => ?_
  have hdrop : cs.drop i = [] := List.drop_eq_nil_of_le hle
  simp [boundaryAt, riseAt, fallAt, hdrop] at h

/-- **Dashes in a row of letters and digits.** All of them are at boundaries, and there is one at every boundary just if
no two boundaries share a character: otherwise the second one of such two may be passed over. -/
theorem dashed_at_boundaries_iff (s : String) (h : ∀ c ∈ s.toList, isWordChar c = true) :
    (ofText s).toList = dashed (breakAt s.toList) s.toList ∧
      (∀ i, breakAt s.toList i = true → boundaryAt s.toList i = true) ∧
      ((ofText s).toList = dashed (boundaryAt s.toList) s.toList ↔ ¬ Crowded s.toList) := by
  have hdashed : (ofText s).toList = dashed (breakAt s.toList) s.toList := by
    rw [toList_ofText]
    by_cases hne : s.toList = []
    · rw [hne]
      rfl
    · exact joined_separate (w := []) h hne
  refine ⟨hdashed, fun i => boundaryAt_of_breakAt, ?_⟩
  rw [hdashed, dashed_inj h, ← breakAt_eq_iff]
  refine ⟨fun hall i => ?_, fun hall i _ => hall i⟩
  by_cases hi : i < s.toList.length
  · exact hall i hi
  · rw [Bool.eq_iff_iff]
    exact ⟨boundaryAt_of_breakAt, fun hb => absurd (boundaryAt_lt hb) hi⟩

/-- Rises and falls that lie apart. -/
theorem camels_dashed : (∀ c ∈ "v2HTTPServerUp".toList, isWordChar c = true) ∧ ¬ Crowded "v2HTTPServerUp".toList ∧
    (ofText "v2HTTPServerUp").toList = dashed (boundaryAt "v2HTTPServerUp".toList) "v2HTTPServerUp".toList ∧
    ofText "v2HTTPServerUp" = "v2-http-server-up" := by
  have hword : ∀ c ∈ "v2HTTPServerUp".toList, isWordChar c = true := List.all_eq_true.mp (by decide)
  have hslug : ofText "v2HTTPServerUp" = "v2-http-server-up" := by decide +kernel
  have hdashed : (ofText "v2HTTPServerUp").toList =
      dashed (boundaryAt "v2HTTPServerUp".toList) "v2HTTPServerUp".toList := by decide +kernel
  exact ⟨hword, (dashed_at_boundaries_iff _ hword).2.2.mp hdashed, hdashed, hslug⟩

/-- The capital in the middle ends the first boundary and starts the second one, which gets no dash. -/
theorem crowded_undashed : (∀ c ∈ "aBCd".toList, isWordChar c = true) ∧ boundaryAt "aBCd".toList 0 = true ∧
    boundaryAt "aBCd".toList 1 = true ∧ ofText "aBCd" = "a-bcd" ∧
    (ofText "aBCd").toList ≠ dashed (boundaryAt "aBCd".toList) "aBCd".toList := by
  refine ⟨List.all_eq_true.mp (by decide), ?_⟩
  decide +kernel

end Boardwalk.Slug
