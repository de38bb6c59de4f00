import Boardwalk.Proofs.Text.Pieces
import Boardwalk.Slug
/-!
# Words of a slug

A character that belongs to no word parts a text into two that are read apart (`words_append_break`): no boundary is
recognised by characters on both sides of it. The words of a text are non-empty rows of small letters and digits
(`isWord_of_mem`), and such words joined by dashes are read as they are (`words_join`).
-/

namespace Boardwalk.Slug

variable {c d e sep : Char} {a b cs w : List Char} {ws : List (List Char)}

/-! ## Letters -/

theorem isLower_iff : isLower c = true ↔ 97 ≤ c.toNat ∧ c.toNat ≤ 122 := by
  simp only [isLower, Bool.and_eq_true, decide_eq_true_eq, Char.le_def, UInt32.le_iff_toNat_le]
  exact Iff.rfl

theorem isUpper_iff : isUpper c = true ↔ 65 ≤ c.toNat ∧ c.toNat ≤ 90 := by
  simp only [isUpper, Bool.and_eq_true, decide_eq_true_eq, Char.le_def, UInt32.le_iff_toNat_le]
  exact Iff.rfl

theorem isDigit_iff : isDigit c = true ↔ 48 ≤ c.toNat ∧ c.toNat ≤ 57 := by
  simp only [isDigit, Bool.and_eq_true, decide_eq_true_eq, Char.le_def, UInt32.le_iff_toNat_le]
  exact Iff.rfl

theorem toNat_toLower (h : isUpper c = true) : c.toLower.toNat = c.toNat + 32 := by
  obtain ⟨h₁, h₂⟩ := isUpper_iff.mp h
  have hc : c.val ≥ 'A'.val ∧ c.val ≤ 'Z'.val := by
    simp only [ge_iff_le, UInt32.le_iff_toNat_le]
    exact ⟨h₁, h₂⟩
  have hval : c.toLower.val = c.val + 32 := congrArg Char.val (dif_pos hc)
  show c.toLower.val.toNat = c.toNat + 32
  rw [hval, UInt32.toNat_add]
  apply Nat.mod_eq_of_lt
  show c.toNat + 32 < 2 ^ 32
  omega

theorem toLower_eq_self (h : isUpper c = false) : c.toLower = c := by
  have hc : ¬(c.val ≥ 'A'.val ∧ c.val ≤ 'Z'.val) := by
    rintro ⟨h₁, h₂⟩
    rw [isUpper_iff.mpr ⟨UInt32.le_iff_toNat_le.mp h₁, UInt32.le_iff_toNat_le.mp h₂⟩] at h
    cases h
  exact dif_neg hc

/-- A letter or digit as it stands in a slug. -/
def isSmall (c : Char) : Bool := isLower c || isDigit c

theorem isSmall_iff : isSmall c = true ↔ isLower c = true ∨ isDigit c = true := Bool.or_eq_true_iff

theorem isWordChar_iff : isWordChar c = true ↔ isSmall c = true ∨ isUpper c = true := by
  simp only [isWordChar, isSmall, Bool.or_eq_true]
  exact or_right_comm

theorem isUpper_of_isSmall (h : isSmall c = true) : isUpper c = false := by
  rw [Bool.eq_false_iff]
  intro hu
  have hu := isUpper_iff.mp hu
  rcases isSmall_iff.mp h with h | h
  · have := isLower_iff.mp h
    omega
  · have := isDigit_iff.mp h
    omega

theorem isSmall_of_isUpper (h : isUpper c = true) : isSmall c = false := by
  rw [Bool.eq_false_iff]
  intro hs
  rw [isUpper_of_isSmall hs] at h
  cases h

theorem isSmall_toLower (h : isWordChar c = true) : isSmall c.toLower = true := by
  rcases isWordChar_iff.mp h with h | h
  · rwa [toLower_eq_self (isUpper_of_isSmall h)]
  · have := isUpper_iff.mp h
    apply isSmall_iff.mpr
    left
    rw [isLower_iff, toNat_toLower h]
    omega

/-! ## Boundaries -/

def isRise (c d : Char) : Bool := isSmall c && isUpper d

def isFall (c d e : Char) : Bool := isUpper c && isUpper d && isLower e

theorem separate_rise (h : isRise c d = true) (cs : List Char) :
    separate (c :: d :: cs) = c :: ' ' :: d :: separate cs := by
  unfold isRise isSmall at h
  cases cs with
  | nil => simp only [separate, h, if_true]
  | cons e cs => simp only [separate, h, if_true]

theorem separate_fall (hr : isRise c d = false) (hf : isFall c d e = true) (cs : List Char) :
    separate (c :: d :: e :: cs) = c :: ' ' :: d :: e :: separate cs := by
  unfold isRise isSmall at hr
  unfold isFall at hf
  simp only [separate, hr, hf, if_true, Bool.false_eq_true, if_false]

theorem separate_next (hr : isRise c d = false) (hf : ∀ e ∈ cs.head?, isFall c d e = false) :
    separate (c :: d :: cs) = c :: separate (d :: cs) := by
  unfold isRise isSmall at hr
  cases cs with
  | nil => simp only [separate, hr, Bool.false_eq_true, if_false]
  | cons e cs =>
    have hf := hf e rfl
    unfold isFall at hf
    simp only [separate, hr, hf, Bool.false_eq_true, if_false]

theorem separate_eq_self (h : ∀ c ∈ cs, isUpper c = false) : separate cs = cs := by
  induction cs with
  | nil => rfl
  | cons c cs ih =>
    obtain ⟨hc, hcs⟩ := List.forall_mem_cons.mp h
    cases cs with
    | nil => rfl
    | cons d cs =>
      have hr : isRise c d = false := by rw [isRise, hcs d List.mem_cons_self, Bool.and_false]
      have hf : ∀ e ∈ cs.head?, isFall c d e = false := by
        intro e _
        rw [isFall, hc, Bool.false_and, Bool.false_and]
      rw [separate_next hr hf, ih hcs]

section
variable (hsep : isWordChar sep = false)
include hsep

theorem isSmall_break : isSmall sep = false ∧ isUpper sep = false := by
  rw [Bool.eq_false_iff, Ne, isWordChar_iff, not_or] at hsep
  exact ⟨Bool.eq_false_iff.mpr hsep.1, Bool.eq_false_iff.mpr hsep.2⟩

theorem isRise_break : isRise sep c = false ∧ isRise c sep = false := by
  obtain ⟨hs, hu⟩ := isSmall_break hsep
  simp only [isRise, hs, hu, Bool.false_and, Bool.and_false, and_self]

theorem isFall_break : isFall sep c d = false ∧ isFall c sep d = false ∧ isFall c d sep = false := by
  obtain ⟨hs, hu⟩ := isSmall_break hsep
  have hl : isLower sep = false := (Bool.or_eq_false_iff.mp hs).1
  simp only [isFall, hl, hu, Bool.false_and, Bool.and_false, and_self]

theorem separate_cons_break (cs : List Char) : separate (sep :: cs) = sep :: separate cs := by
  cases cs with
  | nil => rfl
  | cons c cs => exact separate_next (isRise_break hsep).1 fun e _ => (isFall_break hsep).1

theorem separate_singleton_break (cs : List Char) : separate (c :: sep :: cs) = c :: sep :: separate cs := by
  rw [separate_next (isRise_break hsep).2 fun e _ => (isFall_break hsep).2.1, separate_cons_break hsep]

/-- No boundary is recognised by characters on both sides of one that belongs to no word. -/
theorem separate_append_break (a b : List Char) : separate (a ++ sep :: b) = separate a ++ sep :: separate b := by
  -- along the matches in the first text: only behind its last two characters the separator is looked at
  induction a using separate.induct with
  | case1 => exact separate_cons_break hsep b
  | case2 c => exact separate_singleton_break hsep b
  | case3 c d hr =>
    have hr : isRise c d = true := hr
    rw [List.cons_append, List.cons_append, List.nil_append, separate_rise hr, separate_rise hr,
      separate_cons_break hsep]
    rfl
  | case4 c d hr =>
    have hr : isRise c d = false := Bool.eq_false_iff.mpr hr
    have hf : ∀ e ∈ (sep :: b).head?, isFall c d e = false := by
      intro e he
      cases he
      exact (isFall_break hsep).2.2
    rw [List.cons_append, List.cons_append, List.nil_append, separate_next hr hf, separate_singleton_break hsep,
      separate_next hr fun e he => by cases he]
    rfl
  | case5 c d e cs hr ih =>
    have hr : isRise c d = true := hr
    rw [List.cons_append, List.cons_append, separate_rise hr, separate_rise hr, ih]
    rfl
  | case6 c d e cs hr hf ih =>
    have hr : isRise c d = false := Bool.eq_false_iff.mpr hr
    rw [List.cons_append, List.cons_append, List.cons_append, separate_fall hr hf, separate_fall hr hf, ih]
    rfl
  | case7 c d e cs hr hf ih =>
    have hr : isRise c d = false := Bool.eq_false_iff.mpr hr
    have hf : ∀ rest, ∀ x ∈ (e :: rest).head?, isFall c d x = false := by
      intro rest x hx
      cases hx
      exact Bool.eq_false_iff.mpr hf
    rw [List.cons_append, List.cons_append] at ih
    rw [List.cons_append, List.cons_append, List.cons_append, separate_next hr (hf _), separate_next hr (hf _), ih]
    rfl

/-! ## Runs -/

theorem runs_append_break (a b w : List Char) : runs (a ++ sep :: b) w = runs a w ++ runs b [] := by
  induction a generalizing w with
  | nil =>
    rw [List.nil_append, runs, runs, hsep]
    cases w with
    | nil => rfl
    | cons x w => rfl
  | cons c a ih =>
    rw [List.cons_append, runs, runs]
    by_cases hc : isWordChar c = true
    · rw [if_pos hc, if_pos hc, ih]
    · rw [if_neg hc, if_neg hc, ih]
      cases w with
      | nil => rfl
      | cons x w => rfl

end

theorem mem_runs (hw : ∀ c ∈ w, isWordChar c = true) {r : List Char} (hr : r ∈ runs cs w) :
    r ≠ [] ∧ ∀ c ∈ r, isWordChar c = true := by
  induction cs generalizing w with
  | nil =>
    cases w with
    | nil => cases hr
    | cons c w =>
      cases List.mem_singleton.mp hr
      exact ⟨List.cons_ne_nil c w, hw⟩
  | cons c cs ih =>
    rw [runs] at hr
    by_cases hc : isWordChar c = true
    · rw [if_pos hc] at hr
      apply ih _ hr
      intro x hx
      rcases List.mem_append.mp hx with hx | hx
      · exact hw x hx
      · cases List.mem_singleton.mp hx
        exact hc
    · rw [if_neg hc] at hr
      cases w with
      | nil => exact ih (by simp) hr
      | cons x w =>
        rcases List.mem_cons.mp hr with rfl | hr
        · exact ⟨List.cons_ne_nil x w, hw⟩
        · exact ih (by simp) hr

theorem runs_word (hcs : ∀ c ∈ cs, isWordChar c = true) (hne : w ++ cs ≠ []) : runs cs w = [w ++ cs] := by
  induction cs generalizing w with
  | nil =>
    rw [List.append_nil] at hne ⊢
    rw [runs, if_neg (by simpa using hne)]
  | cons c cs ih =>
    obtain ⟨hc, hcs⟩ := List.forall_mem_cons.mp hcs
    rw [runs, if_pos hc, ih hcs (by simp), List.append_assoc, List.singleton_append]

/-! ## Words -/

def IsWord (w : List Char) : Prop := w ≠ [] ∧ ∀ c ∈ w, isSmall c = true

theorem isWord_of_mem (h : w ∈ words cs) : IsWord w := by
  obtain ⟨r, hr, rfl⟩ := List.mem_map.mp h
  obtain ⟨hne, hall⟩ := mem_runs (by simp) hr
  refine ⟨by simpa using hne, fun c hc => ?_⟩
  obtain ⟨x, hx, rfl⟩ := List.mem_map.mp hc
  exact isSmall_toLower (hall x hx)

/-- **What a break parts is read apart.** -/
theorem words_append_break (hsep : isWordChar sep = false) (a b : List Char) :
    words (a ++ sep :: b) = words a ++ words b := by
  unfold words
  rw [separate_append_break hsep, runs_append_break hsep, List.map_append]

theorem IsWord.words_eq (h : IsWord w) : words w = [w] := by
  have hsep : separate w = w := separate_eq_self fun c hc => isUpper_of_isSmall (h.2 c hc)
  have hruns : runs w [] = [w] := runs_word (fun c hc => isWordChar_iff.mpr (.inl (h.2 c hc))) h.1
  have hlower : w.map Char.toLower = w := by
    rw [List.map_congr_left fun c hc => toLower_eq_self (isUpper_of_isSmall (h.2 c hc))]
    exact List.map_id w
  rw [words, hsep, hruns, List.map_singleton, hlower]

/-- **Words that are joined by dashes are read as they are.** -/
theorem words_join (h : ∀ w ∈ ws, IsWord w) : words (Text.joinWith ['-'] ws) = ws := by
  induction ws with
  | nil => rfl
  | cons w ws ih =>
    obtain ⟨hw, hws⟩ := List.forall_mem_cons.mp h
    by_cases hempty : ws = []
    · rw [hempty]
      exact hw.words_eq
    · rw [Text.joinWith_cons ['-'] w hempty, List.append_assoc, List.singleton_append,
        words_append_break (by decide), hw.words_eq, ih hws, List.singleton_append]

/-! ## Slugs -/

/-- Words joined by single dashes. -/
def IsSlug (s : String) : Prop := ∃ ws : List (List Char), (∀ w ∈ ws, IsWord w) ∧ s.toList = Text.joinWith ['-'] ws

/-- The words that a slug shows: what stands between its dashes. -/
def shownWords (s : String) : List (List Char) := (Text.splitAt '-' s.toList).filter fun w => !w.isEmpty

theorem toList_ofText (s : String) : (ofText s).toList = Text.joinWith ['-'] (words s.toList) := String.toList_ofList

theorem isSlug_ofText (s : String) : IsSlug (ofText s) := ⟨words s.toList, fun _ => isWord_of_mem, toList_ofText s⟩

theorem isSlug_iff (s : String) : IsSlug s ↔ ofText s = s := by
  constructor
  · rintro ⟨ws, hws, hs⟩
    rw [ofText, hs, words_join hws, ← hs, String.ofList_toList]
  · intro h
    rw [← h]
    exact isSlug_ofText s

theorem ofText_ofText (s : String) : ofText (ofText s) = ofText s := (isSlug_iff _).mp (isSlug_ofText s)

theorem IsWord.no_dash (h : IsWord w) : '-' ∉ w := by
  intro hc
  exact absurd (h.2 '-' hc) (by decide)

theorem shownWords_ofText (s : String) : shownWords (ofText s) = words s.toList := by
  unfold shownWords
  rw [toList_ofText]
  by_cases h : words s.toList = []
  · rw [h]
    rfl
  · rw [Text.splitAt_joinWith h fun w hw => (isWord_of_mem hw).no_dash, List.filter_eq_self]
    intro w hw
    simpa using (isWord_of_mem hw).1

theorem ofText_eq_iff (s t : String) : ofText s = ofText t ↔ words s.toList = words t.toList := by
  constructor
  · intro h
    rw [← shownWords_ofText, h, shownWords_ofText]
  · intro h
    rw [ofText, h]
    rfl

theorem ofText_eq_empty_iff (s : String) : ofText s = "" ↔ words s.toList = [] := by
  rw [← Text.joinWith_eq_nil_iff ['-'] fun w hw => (isWord_of_mem hw).1, ← toList_ofText]
  exact String.toList_eq_nil_iff.symm

end Boardwalk.Slug
