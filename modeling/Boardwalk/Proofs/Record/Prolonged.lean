import Boardwalk.Record.Timeline
/-!
# Journals that only grow

A journal prolongs another one if it keeps its records where they are and adds numbered ones behind them. One record
may change on the way, once: the record of a story frame in flight, if it was added since the journal was loaded and
is the last one. Its output is filled in, and it is completed.
-/

namespace Boardwalk

/-- The second record is the first one, of a story frame in flight, with its output. -/
def Record.Concludes (r r' : Record) : Prop :=
  r.kind = "story_frame" ∧ r.completed = .bool false ∧ ∃ y, r' = { r with output := y, completed := .bool true }

namespace Timeline

/-- The second journal prolongs the first one, both begin with `n` records that were loaded. -/
structure Prolongs (n : Nat) (t t' : Timeline) : Prop where
  kept : ∀ {j : Nat} {r : Record}, t[j]? = some r →
    ∃ r', t'[j]? = some r' ∧ (r' = r ∨ n ≤ j ∧ j + 1 = t.length ∧ r.Concludes r')
  numbered : ∀ {j : Nat} {r : Record}, t.length ≤ j → t'[j]? = some r → r.index = .int j

/-- The second journal is the first one with records behind it, each of which carries its position. -/
def Continues (t t' : Timeline) : Prop :=
  ∃ rs : Timeline, t' = t ++ rs ∧ ∀ (k : Nat) (r : Record), rs[k]? = some r → r.index = .int (t.length + k)

namespace Prolongs

theorem refl (n : Nat) (t : Timeline) : Prolongs n t t where
  kept h := ⟨_, h, .inl rfl⟩
  numbered hj h := by simp [List.getElem?_eq_none hj] at h

theorem length_le {n : Nat} {t t' : Timeline} (h : Prolongs n t t') : t.length ≤ t'.length := by
  apply Nat.le_of_not_lt
  intro hlt
  obtain ⟨r', hr', -⟩ := h.kept (List.getElem?_eq_getElem (show t'.length < t.length by omega))
  simp at hr'

theorem trans {n : Nat} {t t' t'' : Timeline} (h : Prolongs n t t') (h' : Prolongs n t' t'') : Prolongs n t t'' where
  kept {j r} hr := by
    have hle := h.length_le
    obtain ⟨r', hr', hkept⟩ := h.kept hr
    obtain ⟨r'', hr'', hkept'⟩ := h'.kept hr'
    refine ⟨r'', hr'', ?_⟩
    rcases hkept with rfl | ⟨hn, hlast, hc⟩
    · obtain ⟨hlt, -⟩ := List.getElem?_eq_some_iff.mp hr
      rcases hkept' with rfl | ⟨hn, hlast, hc⟩
      · exact .inl rfl
      · exact .inr ⟨hn, by omega, hc⟩
    · -- a record that is completed is not concluded again
      rcases hkept' with rfl | ⟨-, -, hc'⟩
      · exact .inr ⟨hn, hlast, hc⟩
      · obtain ⟨-, -, y, rfl⟩ := hc
        simp [Record.Concludes] at hc'
  numbered {j r} hj hr := by
    by_cases hlt : j < t'.length
    · have hr₁ := List.getElem?_eq_getElem hlt
      obtain ⟨r', hr', hkept⟩ := h'.kept hr₁
      cases hr'.symm.trans hr
      have hi := h.numbered hj hr₁
      rcases hkept with he | ⟨-, -, -, -, y, he⟩
      · rw [he, hi]
      · rw [he]
        exact hi
    · exact h'.numbered (Nat.le_of_not_lt hlt) hr

/-- What was loaded stays as it is. -/
theorem continues {t t' : Timeline} (h : Prolongs t.length t t') : t.Continues t' := by
  refine ⟨t'.drop t.length, ?_, fun k r hr => ?_⟩
  · have htake : t'.take t.length = t := by
      apply List.ext_getElem?
      intro j
      by_cases hj : j < t.length
      · obtain ⟨r', hr', hkept⟩ := h.kept (List.getElem?_eq_getElem hj)
        rcases hkept with rfl | ⟨hn, -⟩
        · rw [List.getElem?_take_of_lt hj, hr', List.getElem?_eq_getElem hj]
        · omega
      · have hle := Nat.le_of_not_lt hj
        rw [List.getElem?_take_eq_none hle, List.getElem?_eq_none hle]
    calc t' = t'.take t.length ++ t'.drop t.length := (List.take_append_drop ..).symm
      _ = t ++ t'.drop t.length := by rw [htake]
  · rw [List.getElem?_drop] at hr
    exact h.numbered (Nat.le_add_right ..) hr

theorem concat (n : Nat) (t : Timeline) {r : Record} (hr : r.index = .int t.length) : Prolongs n t (t ++ [r]) where
  kept {j r'} h := by
    obtain ⟨hlt, -⟩ := List.getElem?_eq_some_iff.mp h
    exact ⟨r', by rw [List.getElem?_append_left hlt, h], .inl rfl⟩
  numbered {j r'} hj h := by
    obtain ⟨hlt, -⟩ := List.getElem?_eq_some_iff.mp h
    rw [List.length_append, List.length_singleton] at hlt
    obtain rfl : j = t.length := by omega
    rw [List.getElem?_concat_length] at h
    cases h
    exact hr

theorem concluded {n : Nat} {t : Timeline} (hn : n ≤ t.length) {r r' : Record} (h : r.Concludes r') :
    Prolongs n (t ++ [r]) (t ++ [r']) where
  kept {j r₀} h₀ := by
    by_cases hj : j < t.length
    · rw [List.getElem?_append_left hj] at h₀ ⊢
      exact ⟨r₀, h₀, .inl rfl⟩
    · obtain ⟨hlt, -⟩ := List.getElem?_eq_some_iff.mp h₀
      rw [List.length_append, List.length_singleton] at hlt
      obtain rfl : j = t.length := by omega
      rw [List.getElem?_concat_length] at h₀
      cases h₀
      exact ⟨r', List.getElem?_concat_length, .inr ⟨hn, by simp, h⟩⟩
  numbered {j r₀} hj h₀ := by
    obtain ⟨hlt, -⟩ := List.getElem?_eq_some_iff.mp h₀
    simp only [List.length_append, List.length_singleton] at hj hlt
    omega

end Prolongs

theorem editOf_concluding (t : Timeline) (name kind : String) (frameIndex : Int) (output y : Value) :
    editOfRecord { t.entry name kind frameIndex output false with output := y, completed := .bool true } =
      [("index", .int t.length), ("name", .str name), ("type", .str kind)] ++
        ((if y.isNull then [] else [("output", y)]) ++ [("completed", .bool true), ("frame_index", .int frameIndex)]) := by
  have hint : ∀ n, (Value.int n).isNull = false := fun _ => rfl
  have hstr : ∀ x, (Value.str x).isNull = false := fun _ => rfl
  have hbool : ∀ x, (Value.bool x).isNull = false := fun _ => rfl
  cases hy : y.isNull <;> simp [editOfRecord, editOf, Json.put, entry, hy, hint, hstr, hbool]

theorem editIndex?_of_lookup {t : Timeline} {edit : List (String × Value)} {n : Nat}
    (h : edit.lookup "index" = some (.int n)) (hn : n < t.length) : editIndex? t edit = some n := by
  have hbound : (0 ≤ (n : Int) && (n : Int) < t.length) = true := by simpa using hn
  simp only [editIndex?, h, Value.wholeNumber?, Option.bind_eq_bind, Option.bind_some, hbound, if_true,
    Int.toNat_natCast]

/-- **The edit of the last record reaches it**, also behind records with other numbers. An output of null is left out
of the edit, so the record keeps the one it has. -/
theorem update_concat (t : Timeline) (name kind : String) (frameIndex : Int) (output y : Value) :
    update (t ++ [t.entry name kind frameIndex output false])
      (editOfRecord { t.entry name kind frameIndex output false with output := y, completed := .bool true }) =
    .ok (t ++ [t.entry name kind frameIndex (if y.isNull then output else y) true],
      t.entry name kind frameIndex (if y.isNull then output else y) true) := by
  rw [editOf_concluding, update, editIndex?_of_lookup (n := t.length) rfl (by simp)]
  cases y.isNull <;> simp [keeps, merge, entry, List.lookup_cons]

end Timeline

end Boardwalk
