import Boardwalk.Proofs.Json.RoundTrip
import Boardwalk.Session
/-!
# Journals read back

A journal is written as Json and read back by the schema. The records come back as they were, but for their
outputs, of which the text only holds the Json form (`Record.reread`); an output that is a plain Json value
without floating point numbers comes back as it was (`Value.IsPlain.reread_eq`).
-/

namespace Boardwalk

namespace Value

/-- What a journaled value is read back as. -/
def reread (v : Value) : Value :=
  match v.form with
  | .ok j => ofJson j.reread
  | .error _ => v

theorem reread_of_form {v : Value} {j : Json} (h : v.form = .ok j) : v.reread = ofJson j.reread := by
  unfold reread
  rw [h]

/-- A plain Json value without floating point numbers. -/
def IsPlain (v : Value) : Prop := ∃ j : Json, j.isExact = true ∧ v = ofJson j

mutual

theorem form_ofJson : ∀ {j : Json}, j.isExact = true → (ofJson j).form = .ok j
  | .null, _ => rfl
  | .bool _, _ => rfl
  | .int _, _ => rfl
  | .float _, h => by simp [Json.isExact] at h
  | .str _, _ => rfl
  | .arr xs, h => by
    simp only [Json.isExact] at h
    simp only [ofJson, form, formItems_ofJson h]
    rfl
  | .obj fs, h => by
    simp only [Json.isExact, Bool.and_eq_true] at h
    simp only [ofJson, form, formFields_ofJson h.2]
    rfl

theorem formItems_ofJson : ∀ {xs : List Json}, Json.isExactItems xs = true →
    formItems (ofJsonItems xs) = .ok xs
  | [], _ => rfl
  | x :: xs, h => by
    simp only [Json.isExactItems, Bool.and_eq_true] at h
    simp only [ofJsonItems, formItems, form_ofJson h.1, formItems_ofJson h.2]
    rfl

theorem formFields_ofJson : ∀ {fs : List (String × Json)}, Json.isExactFields fs = true →
    formFields (ofJsonFields fs) = .ok fs
  | [], _ => rfl
  | (k, x) :: fs, h => by
    simp only [Json.isExactFields, Bool.and_eq_true] at h
    simp only [ofJsonFields, formFields, form_ofJson h.1, formFields_ofJson h.2]
    rfl

end

theorem IsPlain.reread_eq {v : Value} (h : v.IsPlain) : v.reread = v := by
  obtain ⟨j, hj, rfl⟩ := h
  rw [reread_of_form (form_ofJson hj), Json.reread_eq_self hj]

theorem isPlain_bool (b : Bool) : (Value.bool b).IsPlain := ⟨.bool b, rfl, rfl⟩

theorem isPlain_int (n : Int) : (Value.int n).IsPlain := ⟨.int n, rfl, rfl⟩

theorem isPlain_empty : (Value.dict []).IsPlain := ⟨.obj [], rfl, rfl⟩

end Value

/-! ## Records -/

namespace Record

def reread (r : Record) : Record := { r with output := r.output.reread }

theorem IsValid.reread {r : Record} (h : r.IsValid) : r.reread.IsValid := ⟨h.index, h.completed, h.frameIndex⟩

theorem normal_eq {r : Record} {j : Json} (h : r.IsValid) (hj : r.normal = .ok j) :
    ∃ n b output, r.index = .int n ∧ r.completed = .bool b ∧ r.output.normal = .ok output ∧
      j = .obj [("index", .int n), ("name", .str r.name), ("type", .str r.kind), ("output", output),
        ("completed", .bool b), ("frameIndex", match r.frameIndex with | .int k => .int k | _ => .null)] := by
  obtain ⟨n, hn⟩ := h.index
  obtain ⟨b, hb⟩ := h.completed
  obtain ⟨hj, hnesting⟩ := normal_iff.mp hj
  unfold toValue at hj
  cases ho : r.output.form with
  | error f =>
    rw [hn, hb] at hj
    simp only [Value.form, ho, bind, Except.bind] at hj
    cases hj
  | ok output =>
    have houtput (f : Json) : (Json.obj [("index", .int n), ("name", .str r.name), ("type", .str r.kind),
        ("output", output), ("completed", .bool b), ("frameIndex", f)]).nesting ≤ Value.dumpLimit + 1 →
        r.output.normal = .ok output := by
      intro hle
      simp only [Json.nesting, Json.nestingFields] at hle
      exact Value.normal_iff.mpr ⟨ho, by omega⟩
    rw [hn, hb] at hj
    rcases h.frameIndex with hk | ⟨k, hk⟩
    · rw [hk] at hj ⊢
      simp only [Value.form, ho, bind, Except.bind, Value.number?, Option.getD_some, Option.getD_none] at hj
      cases hj
      exact ⟨n, b, output, hn, hb, houtput _ hnesting, rfl⟩
    · rw [hk] at hj ⊢
      simp only [Value.form, ho, bind, Except.bind, Value.number?, Option.getD_some] at hj
      cases hj
      exact ⟨n, b, output, hn, hb, houtput _ hnesting, rfl⟩

theorem keys_nodup : ["index", "name", "type", "output", "completed", "frameIndex"].Nodup := by decide

/-- **A record is read back from its Json form.** -/
theorem check_reread {r : Record} {j : Json} (h : r.IsValid) (hj : r.normal = .ok j) :
    check (Value.ofJson j.reread) = .good r.reread := by
  obtain ⟨n, b, output, hn, hb, ho, rfl⟩ := normal_eq h hj
  rw [Json.reread_obj keys_nodup]
  · unfold Record.reread
    rw [Value.reread_of_form (Value.normal_iff.mp ho).1, hn, hb]
    rcases h.frameIndex with hk | ⟨k, hk⟩
    · rw [hk]
      rfl
    · rw [hk]
      rfl
  · rfl

end Record

theorem Timeline.cursor_reread (t : Timeline) : cursor (t.map Record.reread) = t.cursor := by
  unfold cursor
  rw [List.getLast?_map]
  cases t.getLast? <;> rfl

/-! ## Models -/

namespace Model

def reread (m : Model) : Model := ⟨m.board, m.timeline.map Record.reread⟩

theorem keys_nodup : ["storyboard", "timeline"].Nodup := by decide

theorem checkItems_reread {t : Timeline} {js : List Json} (hv : ∀ r ∈ t, r.IsValid)
    (hj : t.mapM Record.normal = .ok js) (n : Nat) :
    Schema.Checked.items Record.check n (Value.ofJsonItems (Json.rereadItems js)) =
      .good (t.map Record.reread) := by
  induction t generalizing js n with
  | nil =>
    cases hj
    rfl
  | cons r t ih =>
    rw [List.mapM_cons] at hj
    cases hr : r.normal with
    | error f =>
      rw [hr] at hj
      cases hj
    | ok j =>
      cases ht : t.mapM Record.normal with
      | error f =>
        rw [hr, ht] at hj
        cases hj
      | ok js' =>
        rw [hr, ht] at hj
        cases hj
        have hc := Record.check_reread (hv r List.mem_cons_self) hr
        have hi := ih (fun x hx => hv x (List.mem_cons_of_mem _ hx)) ht (n + 1)
        simp only [Json.rereadItems, Value.ofJsonItems, Schema.Checked.items, hc, hi]
        rfl

theorem nesting_items {t : Timeline} {js : List Json} (h : t.mapM Record.normal = .ok js) :
    Json.nestingItems js ≤ Value.dumpLimit + 1 := by
  induction t generalizing js with
  | nil =>
    cases h
    exact Nat.zero_le _
  | cons r t ih =>
    rw [List.mapM_cons] at h
    cases hr : r.normal with
    | error f =>
      rw [hr] at h
      cases h
    | ok j =>
      cases ht : t.mapM Record.normal with
      | error f =>
        rw [hr, ht] at h
        cases h
      | ok js' =>
        rw [hr, ht] at h
        cases h
        exact Nat.max_le.mpr ⟨(Record.normal_iff.mp hr).2, ih ht⟩

theorem normal_eq {m : Model} {j : Json} (h : m.normal = .ok j) :
    ∃ js, m.timeline.mapM Record.normal = .ok js ∧
      j = .obj [("storyboard", .str m.board), ("timeline", .arr js)] := by
  unfold normal at h
  cases hj : m.timeline.mapM Record.normal with
  | error f =>
    rw [hj] at h
    cases h
  | ok js =>
    rw [hj] at h
    cases h
    exact ⟨js, rfl, rfl⟩

/-- A model with a Json form is not nested too deep to be read. -/
theorem nesting_normal {m : Model} {j : Json} (h : m.normal = .ok j) : j.nesting ≤ Json.depthLimit := by
  obtain ⟨js, hj, rfl⟩ := normal_eq h
  have hitems := nesting_items hj
  simp only [Json.nesting, Json.nestingFields, Json.depthLimit, Value.dumpLimit] at hitems ⊢
  omega

/-- **A model is read back from its Json form.** -/
theorem ofState_reread {m : Model} {j : Json} (hv : ∀ r ∈ m.timeline, r.IsValid) (h : m.normal = .ok j) :
    ofState j.reread = .ok m.reread := by
  obtain ⟨js, hj, rfl⟩ := normal_eq h
  have hc := checkItems_reread hv hj 0
  rw [Json.reread_obj keys_nodup]
  · unfold ofState
    simp only [List.map_cons, List.map_nil, Json.reread, Value.ofJson, Value.ofJsonFields, check]
    have hl : List.lookup "timeline" [("storyboard", Value.str m.board),
        ("timeline", Value.list (Value.ofJsonItems (Json.rereadItems js)))] =
      some (Value.list (Value.ofJsonItems (Json.rereadItems js))) := rfl
    rw [hl]
    simp only [checkTimeline, hc]
    rfl
  · rfl

end Model

end Boardwalk
