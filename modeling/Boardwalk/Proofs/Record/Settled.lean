import Boardwalk.Proofs.Record.Reread
import Boardwalk.Proofs.Record.Validated
/-!
# The form of what was read

The Json form of a value is its own form (`Value.form_self`). So the form of a record or of a model that the schema
accepted is accepted again, and is the form of what is then read (`accepted_settles`). Only a record from memory that the
schema would not give is accepted once, and its form is refused (`wavering_unsettled`).
-/

namespace Boardwalk

theorem bind_ok {ε α β : Type} {x : Except ε α} {f : α → Except ε β} {b : β} (h : x >>= f = .ok b) :
    ∃ a, x = .ok a ∧ f a = .ok b := by
  cases x with
  | error e => cases h
  | ok a => exact ⟨a, rfl, h⟩

/-! ## Values -/

namespace Value

variable {j : Json}

theorem form_record {index output completed frameIndex : Value} {name kind : String}
    (h : (record index name kind output completed frameIndex).form = .ok j) :
    ∃ i o c f, index.form = .ok i ∧ output.form = .ok o ∧ completed.form = .ok c ∧ frameIndex.form = .ok f ∧
      j = .obj [("index", (number? index).getD i), ("name", .str name), ("type", .str kind), ("output", o),
        ("completed", c), ("frameIndex", (number? frameIndex).getD f)] := by
  unfold form at h
  obtain ⟨i, hi, h⟩ := bind_ok h
  obtain ⟨o, ho, h⟩ := bind_ok h
  obtain ⟨c, hc, h⟩ := bind_ok h
  obtain ⟨f, hf, h⟩ := bind_ok h
  cases h
  exact ⟨i, o, c, f, hi, ho, hc, hf, rfl⟩

theorem form_number (v : Value) (h : (ofJson j).form = .ok j) :
    (ofJson ((number? v).getD j)).form = .ok ((number? v).getD j) := by
  cases v with
  | bool b => rfl
  | int n => rfl
  | _ => exact h

mutual

/-- **The Json form of a value is its own form.** -/
theorem form_self : ∀ {v : Value} {j : Json}, v.form = .ok j → (ofJson j).form = .ok j
  | .null, _, h | .bool _, _, h | .int _, _, h | .str _, _, h => by
    cases h
    rfl
  | .float x, _, h => by
    unfold form at h
    by_cases hx : Number.isFinite x = true
    · rw [if_pos hx] at h
      cases h
      simp only [ofJson, form, hx, if_true]
    · rw [if_neg hx] at h
      cases h
      rfl
  | .bytes b, _, h => by
    unfold form at h
    split at h
    · cases h
      rfl
    · cases h
  | .list vs, _, h | .row vs, _, h => by
    unfold form at h
    obtain ⟨js, hvs, h⟩ := bind_ok h
    cases h
    rw [ofJson, form, formItems_self hvs]
    rfl
  | .dict fs, _, h => by
    unfold form at h
    obtain ⟨js, hfs, h⟩ := bind_ok h
    cases h
    rw [ofJson, form, formFields_self hfs]
    rfl
  | .record index name kind output completed frameIndex, _, h => by
    obtain ⟨i, o, c, f, hi, ho, hc, hf, rfl⟩ := form_record h
    have hi := form_number index (form_self hi)
    have hf := form_number frameIndex (form_self hf)
    simp only [ofJson, ofJsonFields, form, formFields, hi, hf, form_self ho, form_self hc]
    rfl
  | .foreign, _, h => by cases h

theorem formItems_self : ∀ {vs : List Value} {js : List Json}, formItems vs = .ok js →
    formItems (ofJsonItems js) = .ok js
  | [], _, h => by
    cases h
    rfl
  | v :: vs, _, h => by
    unfold formItems at h
    obtain ⟨j, hv, h⟩ := bind_ok h
    obtain ⟨js, hvs, h⟩ := bind_ok h
    cases h
    rw [ofJsonItems, formItems, form_self hv, formItems_self hvs]
    rfl

theorem formFields_self : ∀ {fs : List (String × Value)} {js : List (String × Json)}, formFields fs = .ok js →
    formFields (ofJsonFields js) = .ok js
  | [], _, h => by
    cases h
    rfl
  | (k, v) :: fs, _, h => by
    unfold formFields at h
    obtain ⟨j, hv, h⟩ := bind_ok h
    obtain ⟨js, hfs, h⟩ := bind_ok h
    cases h
    rw [ofJsonFields, formFields, form_self hv, formFields_self hfs]
    rfl

end

end Value

/-- What was read has a form that is accepted, and that is the form of what is then read. -/
def Settles {α : Type} (check : Value → Schema.Checked α) (normal : α → Except DumpFault Json) (a : α) : Prop :=
  ∃ j a', normal a = .ok j ∧ check (Value.ofJson j) = .good a' ∧ normal a' = .ok j

/-! ## Records -/

namespace Record

/-- What stands for a record is none, or one as the schema gives it. -/
def Sound (v : Value) : Prop := ∀ r : Record, v = r.toValue → r.IsValid

variable {r : Record}

theorem accepted_valid {v : Value} (hv : Sound v) (h : check v = .good r) : r.IsValid := by
  cases v with
  | dict fields => exact checkFields_valid h
  | record index name kind output completed frameIndex =>
    cases h
    exact hv _ rfl
  | _ => cases h

/-- The record is one container around its output. -/
theorem form_toValue {o : Json} (h : r.IsValid) (ho : r.output.form = .ok o) :
    ∃ j, r.toValue.form = .ok j ∧ j.nesting = o.nesting + 1 := by
  obtain ⟨n, hn⟩ := h.index
  obtain ⟨b, hb⟩ := h.completed
  unfold toValue
  rw [hn, hb]
  rcases h.frameIndex with hk | ⟨k, hk⟩
  all_goals
    rw [hk]
    simp only [Value.form, ho, bind, Except.bind]
    exact ⟨_, rfl, by simp [Json.nesting, Json.nestingFields, Value.number?]⟩

theorem settles {o : Json} (h : r.IsValid) (ho : r.output.normal = .ok o) : Settles check normal r := by
  obtain ⟨hform, hle⟩ := Value.normal_iff.mp ho
  obtain ⟨j, hj, hnesting⟩ := form_toValue h hform
  have hj : r.normal = .ok j := normal_iff.mpr ⟨hj, by omega⟩
  refine ⟨j, { r with output := Value.ofJson o }, hj, ?_, ?_⟩
  · obtain ⟨n', b', o', hn', hb', ho', rfl⟩ := normal_eq h hj
    cases ho.symm.trans ho'
    rw [hn', hb']
    rcases h.frameIndex with hk | ⟨k, hk⟩
    · rw [hk]
      rfl
    · rw [hk]
      rfl
  · rw [← hj]
    unfold normal toValue
    simp only [Value.form, Value.form_self hform, hform]

end Record

/-! ## Models -/

namespace Model

/-- What stands for the records of a model is sound. -/
def Sound (v : Value) : Prop := ∀ fields vs, v = .dict fields →
  (fields.lookup "timeline" = some (.list vs) ∨ fields.lookup "timeline" = some (.row vs)) → ∀ x ∈ vs, Record.Sound x

variable {m : Model}

theorem accepted_valid {v : Value} (hv : Sound v) (h : check v = .good m) : ∀ r ∈ m.timeline, r.IsValid := by
  cases v with
  | dict fields =>
    obtain ⟨⟨b, t⟩, hboth, rfl⟩ := Schema.Checked.map_good h
    obtain ⟨-, ht⟩ := Schema.Checked.both_good hboth
    dsimp only at ht ⊢
    split at ht
    · rename_i vt hvt
      have ht := Schema.Checked.below_good ht
      intro r hr
      unfold checkTimeline at ht
      split at ht
      · obtain ⟨x, hx, hc⟩ := Schema.Checked.items_good ht r hr
        exact Record.accepted_valid (hv fields _ rfl (.inl hvt) x hx) hc
      · obtain ⟨x, hx, hc⟩ := Schema.Checked.items_good ht r hr
        exact Record.accepted_valid (hv fields _ rfl (.inr hvt) x hx) hc
      · cases ht
    · cases ht
      intro r hr
      cases hr
  | _ => cases h

theorem records_settle {t : Timeline} (h : ∀ r ∈ t, Settles Record.check Record.normal r) (n : Nat) : ∃ js t',
    t.mapM Record.normal = .ok js ∧ Schema.Checked.items Record.check n (Value.ofJsonItems js) = .good t' ∧
      t'.mapM Record.normal = .ok js := by
  induction t generalizing n with
  | nil => exact ⟨[], [], rfl, rfl, rfl⟩
  | cons r t ih =>
    obtain ⟨j, r', hr, hc, hr'⟩ := h r List.mem_cons_self
    obtain ⟨js, t', ht, hcs, ht'⟩ := ih (fun x hx => h x (List.mem_cons_of_mem r hx)) (n + 1)
    refine ⟨j :: js, r' :: t', ?_, ?_, ?_⟩
    · rw [List.mapM_cons, hr, ht]
      rfl
    · rw [Value.ofJsonItems, Schema.Checked.items, hc, hcs]
      rfl
    · rw [List.mapM_cons, hr', ht']
      rfl

theorem settles (h : ∀ r ∈ m.timeline, Settles Record.check Record.normal r) : Settles check normal m := by
  obtain ⟨js, t', ht, hc, ht'⟩ := records_settle h 0
  refine ⟨.obj [("storyboard", .str m.board), ("timeline", .arr js)], ⟨m.board, t'⟩, ?_, ?_, ?_⟩
  · rw [normal, ht]
    rfl
  · have hl : List.lookup "timeline" [("storyboard", Value.str m.board), ("timeline", Value.list (Value.ofJsonItems js))] =
      some (Value.list (Value.ofJsonItems js)) := rfl
    simp only [Value.ofJson, Value.ofJsonFields, check, hl, checkTimeline, hc]
    rfl
  · rw [normal, ht']
    rfl

/-- **Reading and writing settle at once**: the form of a record or of a model that the schema accepted is accepted again,
and is the form of what is then read, if the outputs have a form at all. -/
theorem accepted_settles :
    (∀ v r o, Record.Sound v → Record.check v = .good r → r.output.normal = .ok o →
      Settles Record.check Record.normal r) ∧
    ∀ v m, Sound v → check v = .good m → (∀ r ∈ m.timeline, ∃ o, r.output.normal = .ok o) → Settles check normal m := by
  constructor
  · intro v r o hv h ho
    exact Record.settles (Record.accepted_valid hv h) ho
  · intro v m hv h ho
    apply settles
    intro r hr
    obtain ⟨o, ho⟩ := ho r hr
    exact Record.settles (accepted_valid hv h r hr) ho

/-- A record in a loose form, a journal with it and with a record as it is in memory, and what is read from them. -/
def loose : Value :=
  .dict [("index", .str " 07 "), ("name", .str "A"), ("type", .str "key_frame"), ("output", .row [.null, .str "x"]),
    ("completed", .str "Yes"), ("note", .int 3), ("frame_index", .bool true)]

def tight : Record := ⟨.int 7, "A", "key_frame", .row [.null, .str "x"], .bool true, .int 1⟩

def looseJournal : Value :=
  .dict [("storyboard", .str "p"), ("timeline", .row [loose, tight.toValue]), ("note", .null)]

theorem loose_settles :
    (Record.Sound loose ∧ Record.check loose = .good tight ∧ tight.output.normal = .ok (.arr [.null, .str "x"]) ∧
      Settles Record.check Record.normal tight) ∧
    Sound looseJournal ∧ check looseJournal = .good ⟨"p", [tight, tight]⟩ ∧
      Settles check normal ⟨"p", [tight, tight]⟩ := by
  have hloose : Record.Sound loose := by
    intro r hr
    cases hr
  have htight : Record.Sound tight.toValue := by
    rintro ⟨index, name, kind, output, completed, frameIndex⟩ hr
    cases hr
    exact ⟨⟨7, rfl⟩, ⟨true, rfl⟩, .inr ⟨1, rfl⟩⟩
  have hjournal : Sound looseJournal := by
    intro fields vs hv hvs
    cases hv
    rcases hvs with hvs | hvs
    · cases hvs
    · cases hvs
      simp only [List.forall_mem_cons]
      exact ⟨hloose, htight, by simp⟩
  have hread : check looseJournal = .good ⟨"p", [tight, tight]⟩ := rfl
  refine ⟨⟨hloose, rfl, rfl, accepted_settles.1 loose tight _ hloose rfl rfl⟩, hjournal, hread, ?_⟩
  apply accepted_settles.2 looseJournal _ hjournal hread
  simp only [List.forall_mem_cons]
  exact ⟨⟨_, rfl⟩, ⟨_, rfl⟩, by simp⟩

/-- A record as an edit may leave it in memory. -/
def wavering : Record := ⟨.int 0, "A", "key_frame", .int 1, .str "maybe", .int 0⟩

/-- A record from memory is accepted as it is, whatever its fields hold. The form of this one is refused. -/
theorem wavering_unsettled :
    (Record.check wavering.toValue = .good wavering ∧ ∃ j, wavering.normal = .ok j ∧
      Record.check (Value.ofJson j) = .bad [⟨[.field "completed"], "bool_parsing"⟩]) ∧
    check (.dict [("storyboard", .str "p"), ("timeline", .list [wavering.toValue])]) = .good ⟨"p", [wavering]⟩ ∧
    ∃ j, normal ⟨"p", [wavering]⟩ = .ok j ∧
      check (Value.ofJson j) = .bad [⟨[.field "timeline", .item 0, .field "completed"], "bool_parsing"⟩] :=
  ⟨⟨rfl, _, rfl, rfl⟩, rfl, _, rfl, rfl⟩

end Model

end Boardwalk
