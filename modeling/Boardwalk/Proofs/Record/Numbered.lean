import Boardwalk.Proofs.Record.Reread
/-!
# Numbered journals

The records of a journal are numbered from zero on. If its last record is done, a run starts behind it, at the
number of records (`cursor_of_done`); a record in flight is started again at its own number (`cursor_of_inFlight`).
-/

namespace Boardwalk.Timeline

def IsNumbered (t : Timeline) : Prop :=
  ∀ (i : Nat) (r : Record), t[i]? = some r → r.index = .int i ∧ r.IsValid

def IsDone (t : Timeline) : Prop := ∀ r ∈ t, r.completed = .bool true

theorem isNumbered_nil : IsNumbered [] := by
  intro i r h
  cases h

theorem isDone_nil : IsDone [] := by
  intro r h
  cases h

theorem IsNumbered.valid {t : Timeline} (h : t.IsNumbered) : ∀ r ∈ t, r.IsValid := by
  intro r hr
  obtain ⟨i, hi⟩ := List.getElem?_of_mem hr
  exact (h i r hi).2

theorem isValid_entry (t : Timeline) (name kind : String) (frameIndex : Int) (output : Value) (completed : Bool) :
    (t.entry name kind frameIndex output completed).IsValid :=
  ⟨⟨_, rfl⟩, ⟨_, rfl⟩, .inr ⟨_, rfl⟩⟩

theorem IsNumbered.concat {t : Timeline} (h : t.IsNumbered) (name kind : String) (frameIndex : Int)
    (output : Value) (completed : Bool) : (t ++ [t.entry name kind frameIndex output completed]).IsNumbered := by
  intro i r hi
  by_cases hlt : i < t.length
  · rw [List.getElem?_append_left hlt] at hi
    exact h i r hi
  · rw [List.getElem?_append_right (Nat.le_of_not_lt hlt)] at hi
    have h₀ : i - t.length = 0 := by
      obtain ⟨hl, -⟩ := List.getElem?_eq_some_iff.mp hi
      rw [List.length_singleton] at hl
      omega
    rw [h₀] at hi
    cases hi
    refine ⟨?_, isValid_entry ..⟩
    have : i = t.length := by omega
    rw [this]
    rfl

theorem IsDone.concat {t : Timeline} (h : t.IsDone) (name kind : String) (frameIndex : Int) (output : Value) :
    (t ++ [t.entry name kind frameIndex output true]).IsDone := by
  intro r hr
  rcases List.mem_append.mp hr with hr | hr
  · exact h r hr
  · cases List.mem_singleton.mp hr
    rfl

theorem IsNumbered.reread {t : Timeline} (h : t.IsNumbered) : IsNumbered (t.map Record.reread) := by
  intro i r hi
  rw [List.getElem?_map] at hi
  obtain ⟨r', hr', rfl⟩ := Option.map_eq_some_iff.mp hi
  obtain ⟨hindex, hvalid⟩ := h i r' hr'
  exact ⟨hindex, hvalid.reread⟩

theorem IsDone.reread {t : Timeline} (h : t.IsDone) : IsDone (t.map Record.reread) := by
  intro r hr
  obtain ⟨r', hr', rfl⟩ := List.mem_map.mp hr
  exact h r' hr'

theorem getLast?_index {t : Timeline} (h : t.IsNumbered) {r : Record} (hr : t.getLast? = some r) :
    r.index = .int ((t.length : Int) - 1) := by
  have hpos : 0 < t.length := by
    cases t with
    | nil => cases hr
    | cons r t => exact Nat.succ_pos _
  rw [List.getLast?_eq_getElem?] at hr
  rw [(h _ r hr).1]
  congr 1
  omega

/-- **A run starts behind a completed last record.** -/
theorem cursor_of_done {t : Timeline} (h : t.IsNumbered) (hd : ∀ r, t.getLast? = some r → r.completed = .bool true) :
    t.cursor = t.length := by
  unfold cursor
  cases hr : t.getLast? with
  | none =>
    rw [List.getLast?_eq_none_iff] at hr
    rw [hr]
    rfl
  | some r =>
    have hi := getLast?_index h hr
    have hc := hd r hr
    simp only [cursorAfter, Record.isCompleted, Record.position, hc, hi, Value.truth, Value.wholeNumber?, if_true,
      Option.getD_some]
    exact Int.sub_add_cancel _ 1

/-- **A run starts at a last record in flight.** -/
theorem cursor_of_inFlight {t : Timeline} (h : t.IsNumbered) {r : Record} (hr : t.getLast? = some r)
    (hc : r.completed = .bool false) : t.cursor = t.length - 1 := by
  have hi := getLast?_index h hr
  unfold cursor
  simp only [hr, cursorAfter, Record.isCompleted, hc, hi, Value.truth, Value.wholeNumber?, Bool.false_eq_true,
    if_false, Option.getD_some]

theorem cursor_of_isDone {t : Timeline} (h : t.IsNumbered) (hd : t.IsDone) : t.cursor = t.length :=
  cursor_of_done h fun r hr => hd r (List.mem_of_getLast? hr)

end Boardwalk.Timeline
