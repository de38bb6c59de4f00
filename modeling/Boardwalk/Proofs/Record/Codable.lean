import Boardwalk.Proofs.Record.Reread
/-!
# Outputs that a file can hold

Whatever is built from texts, truth values, whole numbers, readable bytes, numbers without digits, lists, rows,
fields and records can be written (`Value.IsCodable`). It is read back in the form that its text has
(`Value.asRead`), and has the same form from then on (`Model.normal_reread`).
-/

namespace Boardwalk

namespace Value

inductive IsCodable : Value → Prop where
  | null : IsCodable .null
  | bool (b : Bool) : IsCodable (.bool b)
  | int (n : Int) : IsCodable (.int n)
  | float {x : Float} : Number.isFinite x = false → IsCodable (.float x)
  | str (s : String) : IsCodable (.str s)
  | bytes {b : ByteArray} {s : String} : String.fromUTF8? b = some s → IsCodable (.bytes b)
  | list {vs : List Value} : (∀ v ∈ vs, IsCodable v) → IsCodable (.list vs)
  | row {vs : List Value} : (∀ v ∈ vs, IsCodable v) → IsCodable (.row vs)
  | dict {fs : List (String × Value)} : (fs.map Prod.fst).Nodup → (∀ f ∈ fs, IsCodable f.2) → IsCodable (.dict fs)
  | record {r : Record} : r.IsValid → IsCodable r.output → IsCodable r.toValue

mutual

/-- The form of a value that its text tells: rows are lists, bytes are texts, records are fields, and a number
without digits is null. -/
def asRead : Value → Value
  | .null => .null
  | .bool b => .bool b
  | .int n => .int n
  | .float x => if Number.isFinite x then .float x else .null
  | .str s => .str s
  | .bytes b => match String.fromUTF8? b with
    | some s => .str s
    | none => .bytes b
  | .list vs => .list (asReadItems vs)
  | .row vs => .list (asReadItems vs)
  | .dict fs => .dict (asReadFields fs)
  | .record index name kind output completed frameIndex =>
    .dict [("index", asRead index), ("name", .str name), ("type", .str kind), ("output", asRead output),
      ("completed", asRead completed), ("frameIndex", asRead frameIndex)]
  | .foreign => .foreign

def asReadItems : List Value → List Value
  | [] => []
  | v :: vs => asRead v :: asReadItems vs

def asReadFields : List (String × Value) → List (String × Value)
  | [] => []
  | (k, v) :: fs => (k, asRead v) :: asReadFields fs

end

/-- The value has this Json form, which a text holds as it is. -/
structure Encodes (v : Value) (j : Json) : Prop where
  form : v.form = .ok j
  exact : j.isExact = true
  asRead : ofJson j = v.asRead

theorem encodes_items {vs : List Value} (h : ∀ v ∈ vs, ∃ j, v.Encodes j) :
    ∃ js, formItems vs = .ok js ∧ Json.isExactItems js = true ∧ ofJsonItems js = asReadItems vs := by
  induction vs with
  | nil => exact ⟨[], rfl, rfl, rfl⟩
  | cons v vs ih =>
    obtain ⟨j, hj⟩ := h v List.mem_cons_self
    obtain ⟨js, hn, he, hr⟩ := ih fun v hv => h v (List.mem_cons_of_mem _ hv)
    refine ⟨j :: js, ?_, ?_, ?_⟩
    · rw [formItems, hj.form, hn]
      rfl
    · simp [Json.isExactItems, hj.exact, he]
    · rw [ofJsonItems, asReadItems, hj.asRead, hr]

theorem encodes_fields {fs : List (String × Value)} (h : ∀ f ∈ fs, ∃ j, f.2.Encodes j) :
    ∃ js, formFields fs = .ok js ∧ js.map Prod.fst = fs.map Prod.fst ∧ Json.isExactFields js = true ∧
      ofJsonFields js = asReadFields fs := by
  induction fs with
  | nil => exact ⟨[], rfl, rfl, rfl, rfl⟩
  | cons f fs ih =>
    obtain ⟨k, v⟩ := f
    obtain ⟨j, hj⟩ := h (k, v) List.mem_cons_self
    obtain ⟨js, hn, hk, he, hr⟩ := ih fun f hf => h f (List.mem_cons_of_mem _ hf)
    dsimp only at hj
    refine ⟨(k, j) :: js, ?_, ?_, ?_, ?_⟩
    · rw [formFields, hj.form, hn]
      rfl
    · simp [hk]
    · simp [Json.isExactFields, hj.exact, he]
    · rw [ofJsonFields, asReadFields, hj.asRead, hr]

theorem encodes_record {r : Record} {j : Json} (h : r.IsValid) (hj : r.output.Encodes j) :
    ∃ j', r.toValue.Encodes j' := by
  obtain ⟨n, hn⟩ := h.index
  obtain ⟨b, hb⟩ := h.completed
  obtain ⟨p, hp, hnumber⟩ : ∃ p, r.frameIndex.Encodes p ∧ (number? r.frameIndex).getD p = p := by
    rcases h.frameIndex with hk | ⟨k, hk⟩
    · exact ⟨.null, by rw [hk]; exact ⟨rfl, rfl, rfl⟩, by rw [hk]; rfl⟩
    · exact ⟨.int k, by rw [hk]; exact ⟨rfl, rfl, rfl⟩, by rw [hk]; rfl⟩
  refine ⟨.obj [("index", .int n), ("name", .str r.name), ("type", .str r.kind), ("output", j),
    ("completed", .bool b), ("frameIndex", p)], ?_, ?_, ?_⟩
  · rw [Record.toValue, hn, hb]
    simp only [Value.form, hj.form, hp.form, bind, Except.bind, hnumber]
    rfl
  · simp [Json.isExact, Json.isExactFields, hj.exact, hp.exact]
  · rw [Record.toValue, hn, hb]
    simp only [ofJson, ofJsonFields, hj.asRead, hp.asRead, Value.asRead]

theorem IsCodable.encodes {v : Value} (h : v.IsCodable) : ∃ j, v.Encodes j := by
  induction h with
  | null => exact ⟨.null, rfl, rfl, rfl⟩
  | bool b => exact ⟨.bool b, rfl, rfl, rfl⟩
  | int n => exact ⟨.int n, rfl, rfl, rfl⟩
  | str s => exact ⟨.str s, rfl, rfl, rfl⟩
  | float hx => exact ⟨.null, by simp [Value.form, hx], rfl, by simp [ofJson, Value.asRead, hx]⟩
  | @bytes b s hs => exact ⟨.str s, by simp [Value.form, hs], rfl, by simp [ofJson, Value.asRead, hs]⟩
  | list _ ih =>
    obtain ⟨js, hn, he, hr⟩ := encodes_items ih
    refine ⟨.arr js, ?_, he, ?_⟩
    · rw [Value.form, hn]
      rfl
    · rw [ofJson, Value.asRead, hr]
  | row _ ih =>
    obtain ⟨js, hn, he, hr⟩ := encodes_items ih
    refine ⟨.arr js, ?_, he, ?_⟩
    · rw [Value.form, hn]
      rfl
    · rw [ofJson, Value.asRead, hr]
  | dict hk _ ih =>
    obtain ⟨js, hn, hkeys, he, hr⟩ := encodes_fields ih
    refine ⟨.obj js, ?_, ?_, ?_⟩
    · rw [Value.form, hn]
      rfl
    · simp [Json.isExact, hkeys, hk, he]
    · rw [ofJson, Value.asRead, hr]
  | record hv _ ih =>
    obtain ⟨j, hj⟩ := ih
    exact encodes_record hv hj

theorem IsCodable.reread_eq {v : Value} (h : v.IsCodable) : v.reread = v.asRead := by
  obtain ⟨j, hj⟩ := h.encodes
  rw [reread_of_form hj.form, Json.reread_eq_self hj.exact, hj.asRead]

theorem IsCodable.form_reread {v : Value} (h : v.IsCodable) : v.reread.form = v.form := by
  obtain ⟨j, hj⟩ := h.encodes
  rw [reread_of_form hj.form, Json.reread_eq_self hj.exact, form_ofJson hj.exact, hj.form]

end Value

/-! ## Records and models -/

theorem Record.reread_eq {r : Record} (h : r.output.IsCodable) : r.reread = { r with output := r.output.asRead } := by
  rw [Record.reread, h.reread_eq]

theorem Record.normal_reread {r : Record} (h : r.output.IsCodable) : r.reread.normal = r.normal := by
  unfold Record.normal toValue Record.reread
  simp only [Value.form, h.form_reread]

theorem Timeline.mapM_normal_reread {t : Timeline} (h : ∀ r ∈ t, r.output.IsCodable) :
    (t.map Record.reread).mapM Record.normal = t.mapM Record.normal := by
  induction t with
  | nil => rfl
  | cons r t ih =>
    rw [List.map_cons, List.mapM_cons, List.mapM_cons, Record.normal_reread (h r List.mem_cons_self),
      ih fun r hr => h r (List.mem_cons_of_mem _ hr)]

namespace Model

variable {m : Model} (h : ∀ r ∈ m.timeline, r.output.IsCodable)
include h

theorem reread_eq : m.reread = ⟨m.board, m.timeline.map fun r => { r with output := r.output.asRead }⟩ := by
  unfold reread
  rw [List.map_congr_left fun r hr => Record.reread_eq (h r hr)]

/-- **What was read back has the form of what was written.** -/
theorem normal_reread : m.reread.normal = m.normal := by
  unfold normal reread
  rw [Timeline.mapM_normal_reread h]

end Model

end Boardwalk
