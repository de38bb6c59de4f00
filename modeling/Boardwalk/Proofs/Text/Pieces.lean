import Boardwalk.Text.Blank
/-!
# Pieces of a text

A text is split at a separator into the pieces that it was joined from, if there is one at least and the separator
stands in none of them (`splitAt_joinWith`).
-/

namespace Boardwalk.Text

variable {sep : Char} {cs : List Char} {ws : List (List Char)}

theorem splitAt_append (h : sep ∉ cs) (rest : List Char) : splitAt sep (cs ++ sep :: rest) = cs :: splitAt sep rest := by
  induction cs with
  | nil => rw [List.nil_append, splitAt, if_pos rfl]
  | cons c cs ih =>
    rw [List.cons_append, splitAt, if_neg (List.ne_of_not_mem_cons h).symm, ih (List.not_mem_of_not_mem_cons h)]

theorem joinWith_cons (glue w : List Char) (hws : ws ≠ []) : joinWith glue (w :: ws) = w ++ glue ++ joinWith glue ws := by
  cases ws with
  | nil => exact absurd rfl hws
  | cons v ws => rfl

theorem joinWith_eq_intercalate (glue : List Char) (ws : List (List Char)) : joinWith glue ws = glue.intercalate ws := by
  induction ws with
  | nil => rfl
  | cons w ws ih =>
    cases ws with
    | nil => simp [joinWith]
    | cons v ws => rw [joinWith_cons glue w (List.cons_ne_nil v ws), ih, List.intercalate_cons_cons]

theorem joinWith_append (glue : List Char) {vs : List (List Char)} (hvs : vs ≠ []) (hws : ws ≠ []) :
    joinWith glue (vs ++ ws) = joinWith glue vs ++ glue ++ joinWith glue ws := by
  induction vs with
  | nil => exact absurd rfl hvs
  | cons v vs ih =>
    by_cases h : vs = []
    · rw [h]
      exact joinWith_cons glue v hws
    · rw [List.cons_append, joinWith_cons glue v (by simp [h]), joinWith_cons glue v h, ih h]
      simp only [List.append_assoc]

theorem joinWith_eq_nil_iff (glue : List Char) (h : ∀ w ∈ ws, w ≠ []) : joinWith glue ws = [] ↔ ws = [] := by
  cases ws with
  | nil => simp [joinWith]
  | cons w ws =>
    refine iff_of_false ?_ (List.cons_ne_nil w ws)
    have hw := h w List.mem_cons_self
    by_cases hws : ws = []
    · rw [hws]
      exact hw
    · rw [joinWith_cons glue w hws]
      simp [hw]

theorem mem_joinWith {c : Char} {glue : List Char} (h : c ∈ joinWith glue ws) : c ∈ glue ∨ ∃ w ∈ ws, c ∈ w := by
  induction ws with
  | nil => cases h
  | cons w ws ih =>
    by_cases hempty : ws = []
    · rw [hempty] at h
      exact .inr ⟨w, List.mem_cons_self, h⟩
    · rw [joinWith_cons glue w hempty, List.append_assoc, List.mem_append, List.mem_append] at h
      rcases h with h | h | h
      · exact .inr ⟨w, List.mem_cons_self, h⟩
      · exact .inl h
      · rcases ih h with h | ⟨v, hv, h⟩
        · exact .inl h
        · exact .inr ⟨v, List.mem_cons_of_mem w hv, h⟩

theorem splitAt_joinWith (hne : ws ≠ []) (h : ∀ w ∈ ws, sep ∉ w) : splitAt sep (joinWith [sep] ws) = ws := by
  induction ws with
  | nil => exact absurd rfl hne
  | cons w ws ih =>
    obtain ⟨hw, hws⟩ := List.forall_mem_cons.mp h
    by_cases hempty : ws = []
    · rw [hempty]
      exact splitAt_of_not_mem hw
    · rw [joinWith_cons [sep] w hempty, List.append_assoc, List.singleton_append, splitAt_append hw, ih hempty hws]

theorem trimBy_of_forall {p : Char → Bool} (h : ∀ c ∈ cs, p c = false) : trimBy p cs = cs := by
  have hdrop : ∀ ds : List Char, (∀ c ∈ ds, p c = false) → ds.dropWhile p = ds := by
    intro ds hds
    cases ds with
    | nil => rfl
    | cons c ds => exact List.dropWhile_cons_of_neg (by simp [hds c List.mem_cons_self])
  rw [trimBy, hdrop cs h, hdrop cs.reverse (by simpa using h), List.reverse_reverse]

end Boardwalk.Text
