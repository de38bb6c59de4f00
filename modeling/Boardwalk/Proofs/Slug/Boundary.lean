import Boardwalk.Proofs.Slug.Words
/-!
# The pattern of a boundary

A boundary is a small letter or digit before a capital letter, or a row of capital letters before a capital and a small
letter. Boundaries are looked for from the left, a row is taken as long as it can be, and each search goes on behind
the characters of the last match. Separating a text puts a blank into every match found in this way and nowhere else
(`found_iff`).
-/

namespace Boardwalk.Slug

/-- What a match has on both sides of its boundary, and the text behind it. -/
abbrev Match := List Char × List Char × List Char

def rise? : List Char → Option Match
  | c :: d :: cs => if isRise c d then some ([c], [d], cs) else none
  | _ => none

/-- A row of capitals goes on as long as a match can still end behind it. -/
def fall? : List Char → Option Match
  | c :: d :: cs =>
    if isUpper c then
      match fall? (d :: cs) with
      | some (row, last, rest) => some (c :: row, last, rest)
      | none => match cs with
        | e :: rest => if isUpper d && isLower e then some ([c], [d, e], rest) else none
        | [] => none
    else none
  | _ => none

def match? (cs : List Char) : Option Match := (rise? cs).or (fall? cs)

inductive Found : List Char → List Char → Prop where
  | nil : Found [] []
  | boundary {cs a b rest out} (h : match? cs = some (a, b, rest)) (hrest : Found rest out) :
    Found cs (a ++ ' ' :: b ++ out)
  | skip {c cs out} (h : match? (c :: cs) = none) (hcs : Found cs out) : Found (c :: cs) (c :: out)

variable {c d e : Char} {a b cs rest : List Char}

theorem isRise_of_isUpper (h : isUpper c = true) : isRise c d = false := by
  rw [isRise, isSmall_of_isUpper h, Bool.false_and]

/-! ## Rows of capitals -/

/-- A row has one capital, or it is a capital before a shorter row. -/
theorem fall?_cases (h : fall? cs = some (a, b, rest)) :
    (∃ c d e, isFall c d e = true ∧ cs = c :: d :: e :: rest ∧ a = [c] ∧ b = [d, e]) ∨
      ∃ c cs' row, isUpper c = true ∧ fall? cs' = some (row, b, rest) ∧ cs = c :: cs' ∧ a = c :: row := by
  rcases cs with _ | ⟨c, _ | ⟨d, cs⟩⟩
  · cases h
  · cases h
  unfold fall? at h
  by_cases hc : isUpper c = true
  · rw [if_pos hc] at h
    cases hrow : fall? (d :: cs) with
    | some m =>
      rw [hrow] at h
      cases h
      exact .inr ⟨c, d :: cs, m.1, hc, hrow, rfl, rfl⟩
    | none =>
      rw [hrow] at h
      cases cs with
      | nil => cases h
      | cons e cs =>
        by_cases he : (isUpper d && isLower e) = true
        · simp only [he, if_true] at h
          cases h
          refine .inl ⟨c, d, e, ?_, rfl, rfl, rfl⟩
          rw [isFall, hc, Bool.true_and, he]
        · simp only [he, Bool.false_eq_true, if_false] at h
          cases h
  · rw [if_neg hc] at h
    cases h

theorem fall?_head (h : fall? cs = some (a, b, rest)) :
    ∃ c d cs', isUpper c = true ∧ isUpper d = true ∧ cs = c :: d :: cs' := by
  induction cs generalizing a with
  | nil => cases h
  | cons c cs ih =>
    rcases fall?_cases h with ⟨c, d, e, hf, hcs, -, -⟩ | ⟨c, cs', row, hc, hrow, hcs, -⟩
    · rw [isFall, Bool.and_eq_true, Bool.and_eq_true] at hf
      exact ⟨c, d, e :: rest, hf.1.1, hf.1.2, hcs⟩
    · cases hcs
      obtain ⟨d, e, cs', hd, -, rfl⟩ := ih hrow
      exact ⟨c, d, e :: cs', hc, hd, rfl⟩

theorem fall?_of_isFall (h : isFall c d e = true) (rest : List Char) :
    fall? (c :: d :: e :: rest) = some ([c], [d, e], rest) := by
  rw [isFall, Bool.and_eq_true, Bool.and_eq_true] at h
  obtain ⟨⟨hc, hd⟩, he⟩ := h
  have hnone : fall? (d :: e :: rest) = none := by
    rw [Option.eq_none_iff_forall_ne_some]
    intro m hm
    obtain ⟨_, _, _, -, hu, hcs⟩ := fall?_head hm
    cases hcs
    rw [isUpper_of_isSmall (isSmall_iff.mpr (.inl he))] at hu
    cases hu
  rw [fall?, if_pos hc, hnone]
  simp only [hd, he, Bool.and_self, if_true]

theorem separate_row (h : fall? cs = some (a, b, rest)) :
    separate cs = a ++ ' ' :: b ++ separate rest ∧ rest.length < cs.length := by
  induction cs generalizing a with
  | nil => cases h
  | cons c cs ih =>
    rcases fall?_cases h with ⟨c, d, e, hf, hcs, rfl, rfl⟩ | ⟨c, cs', row, hc, hrow, hcs, rfl⟩
    · cases hcs
      have hc : isUpper c = true := (Bool.and_eq_true_iff.mp (Bool.and_eq_true_iff.mp hf).1).1
      rw [separate_fall (isRise_of_isUpper hc) hf]
      refine ⟨rfl, ?_⟩
      simp only [List.length_cons]
      omega
    · cases hcs
      obtain ⟨hsep, hlen⟩ := ih hrow
      obtain ⟨d, e, cs', -, he, rfl⟩ := fall?_head hrow
      have hf : ∀ x ∈ (e :: cs').head?, isFall c d x = false := by
        intro x hx
        cases hx
        rw [isFall, (Bool.or_eq_false_iff.mp (isSmall_of_isUpper he)).1, Bool.and_false]
      rw [separate_next (isRise_of_isUpper hc) hf, hsep]
      exact ⟨rfl, Nat.lt_succ_of_lt hlen⟩

/-! ## Matches -/

theorem separate_match (h : match? cs = some (a, b, rest)) :
    separate cs = a ++ ' ' :: b ++ separate rest ∧ rest.length < cs.length := by
  rcases Option.or_eq_some_iff.mp h with h | ⟨-, h⟩
  · rcases cs with _ | ⟨c, _ | ⟨d, cs⟩⟩
    · cases h
    · cases h
    rw [rise?] at h
    by_cases hr : isRise c d = true
    · rw [if_pos hr] at h
      cases h
      rw [separate_rise hr]
      refine ⟨rfl, ?_⟩
      simp only [List.length_cons]
      omega
    · rw [if_neg hr] at h
      cases h
  · exact separate_row h

theorem separate_skip (h : match? (c :: cs) = none) : separate (c :: cs) = c :: separate cs := by
  obtain ⟨hr, hf⟩ := Option.or_eq_none_iff.mp h
  cases cs with
  | nil => rfl
  | cons d cs =>
    have hr : isRise c d = false := by
      rw [Bool.eq_false_iff]
      intro hrise
      rw [rise?, if_pos hrise] at hr
      cases hr
    have hf : ∀ e ∈ cs.head?, isFall c d e = false := by
      intro e he
      rw [Bool.eq_false_iff]
      intro hfall
      obtain ⟨rest, rfl⟩ := List.head?_eq_some_iff.mp he
      rw [fall?_of_isFall hfall] at hf
      cases hf
    exact separate_next hr hf

theorem found_separate (cs : List Char) : Found cs (separate cs) := by
  induction hn : cs.length using Nat.strongRecOn generalizing cs with
  | ind n ih =>
    cases cs with
    | nil => exact .nil
    | cons c cs =>
      cases h : match? (c :: cs) with
      | none =>
        rw [separate_skip h]
        exact .skip h (ih cs.length (by rw [← hn]; exact Nat.lt_succ_self _) cs rfl)
      | some m =>
        obtain ⟨a, b, rest⟩ := m
        obtain ⟨hsep, hlen⟩ := separate_match h
        rw [hsep]
        exact .boundary h (ih rest.length (hn ▸ hlen) rest rfl)

/-- **A text is separated by a blank in every match that is found from the left, and nowhere else.** -/
theorem found_iff {out : List Char} : Found cs out ↔ out = separate cs := by
  constructor
  · intro h
    induction h with
    | nil => rfl
    | boundary h hrest ih => rw [(separate_match h).1, ih]
    | skip h hcs ih => rw [separate_skip h, ih]
  · rintro rfl
    exact found_separate cs

example : match? "HTTPServer".toList = some ("HTTP".toList, "Se".toList, "rver".toList) := by decide

end Boardwalk.Slug
