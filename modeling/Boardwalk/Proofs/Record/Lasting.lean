import Boardwalk.Proofs.Record.Edited
import Boardwalk.Proofs.Record.Settled
import Mathlib.Data.List.Forall2
/-!
# Journals that calls build

Whatever calls are made on a journal, the positions of its records stay whole numbers (`Timeline.after_indexed`). An
edit may give every other value to the completion of a record and to the position of its frame, and not all of them are
read back from a file: exactly the records that last are (`Model.reread_iff`).
-/

namespace Boardwalk

/-! ## Numbers that are read back -/

namespace Value

/-- The whole number that a value is equal to. Truth values count as 0 and 1. -/
def count? : Value → Option Int
  | .float x => Number.toInt? x
  | v => v.wholeNumber?

/-- The values are the same, or are equal as numbers. -/
def Equals (v v' : Value) : Prop := v = v' ∨ ∃ n, v.count? = some n ∧ v'.count? = some n

/-- The value is this whole number, and its text is read as the same one. -/
inductive Stays : Value → Int → Prop where
  | bool (b : Bool) : Stays (.bool b) (if b then 1 else 0)
  | int (n : Int) : Stays (.int n) n
  | float {x : Float} {n : Int} : Number.toInt? x = some n → Schema.whole (.float (Number.reread x)) = .ok n →
      Stays (.float x) n

theorem reread_float {x : Float} {n : Int} (h : Number.toInt? x = some n) :
    (Value.float x).reread = .float (Number.reread x) := by
  have hx : Number.isFinite x = true := by
    unfold Number.isFinite
    cases hp : Number.parts? x with
    | none =>
      unfold Number.toInt? at h
      rw [hp] at h
      cases h
    | some p => rfl
  have hj : (Value.float x).form = .ok (.float x) := by rw [form, if_pos hx]
  rw [reread_of_form hj, Json.reread, ofJson]

theorem stays_iff (v : Value) (n : Int) : v.Stays n ↔ v.count? = some n ∧ Schema.whole v.reread = .ok n := by
  constructor
  · intro h
    cases h with
    | bool b => exact ⟨rfl, rfl⟩
    | int n => exact ⟨rfl, rfl⟩
    | float hx hread => exact ⟨hx, by rw [reread_float hx, hread]⟩
  · rintro ⟨hcount, hread⟩
    cases v with
    | bool b =>
      cases hcount
      exact .bool b
    | int n' =>
      cases hcount
      exact .int n
    | float x =>
      rw [reread_float hcount] at hread
      exact .float hcount hread
    | _ => cases hcount

theorem truth_float (x : Float) : Schema.truth (.float x) = match Schema.whole (.float x) with
    | .ok n => Schema.truthOfInt n
    | .error _ => .error "bool_type" := rfl

/-- A value that counts as a number is read as a truth value just if it is read as 0 or 1. -/
theorem truth_iff {v : Value} {n : Int} (h : v.count? = some n) (b : Bool) :
    Schema.truth v.reread = .ok b ↔ Schema.whole v.reread = .ok (if b then 1 else 0) := by
  have hint (n : Int) : Schema.truthOfInt n = .ok b ↔ n = if b then 1 else 0 := by
    unfold Schema.truthOfInt
    by_cases h₀ : n = 0
    · subst h₀
      cases b <;> simp
    · by_cases h₁ : n = 1
      · subst h₁
        cases b <;> simp
      · cases b <;> simp [h₀, h₁]
  cases v with
  | bool b' =>
    change Except.ok b' = Except.ok b ↔ Except.ok (if b' then (1 : Int) else 0) = Except.ok (if b then 1 else 0)
    cases b <;> cases b' <;> simp
  | int n' =>
    change (if Schema.isSmall n' then Schema.truthOfInt n' else .error "bool_type") = .ok b ↔
      Except.ok n' = Except.ok (if b then (1 : Int) else 0)
    rw [Except.ok.injEq]
    split
    · exact hint n'
    · rename_i hs
      constructor
      · intro hb
        cases hb
      · rintro rfl
        cases b <;> exact absurd (by decide) hs
  | float x =>
    rw [reread_float h]
    generalize Number.reread x = y
    rw [truth_float]
    cases Schema.whole (.float y) with
    | error e => simp
    | ok n' => simpa using hint n'
  | _ => cases h

end Value

/-! ## Records -/

namespace Record

open Value

/-- The second record is the first one as it was, with its output as a text holds it. -/
structure Same (r r' : Record) : Prop where
  index : r.index.Equals r'.index
  name : r'.name = r.name
  kind : r'.kind = r.kind
  output : r'.output = r.output.reread
  completed : r.completed.Equals r'.completed
  frameIndex : r.frameIndex.Equals r'.frameIndex

/-- The completion is a truth value or 0 or 1, and the position of the frame is a whole number or null. -/
structure Lasts (r : Record) : Prop where
  completed : ∃ b : Bool, r.completed.Stays (if b then 1 else 0)
  frameIndex : r.frameIndex = .null ∨ ∃ n, r.frameIndex.Stays n

variable {r r' : Record} {j : Json}

theorem completed_iff (v : Value) (b : Bool) : (Schema.truth v.reread = .ok b ∧ v.Equals (.bool b)) ↔
    v.Stays (if b then 1 else 0) := by
  rw [stays_iff]
  constructor
  · rintro ⟨hread, rfl | ⟨n, hn, hb⟩⟩
    · exact ⟨rfl, rfl⟩
    · cases hb
      exact ⟨hn, (truth_iff hn b).mp hread⟩
  · rintro ⟨hn, hread⟩
    exact ⟨(truth_iff hn b).mpr hread, .inr ⟨_, hn, rfl⟩⟩

theorem frameIndex_iff (v v' : Value) : (nullOr Schema.whole v.reread = .ok v' ∧ v.Equals v') ↔
    (v = .null ∧ v' = .null) ∨ ∃ n, v.Stays n ∧ v' = .int n := by
  have hwhole {n : Int} (h : Schema.whole v.reread = .ok n) : nullOr Schema.whole v.reread = .ok (.int n) := by
    unfold nullOr
    split
    · rename_i he
      rw [he] at h
      cases h
    · rw [h]
      rfl
  constructor
  · rintro ⟨hread, hsame⟩
    unfold nullOr at hread
    split at hread
    · cases hread
      rcases hsame with rfl | ⟨n, -, hn⟩
      · exact .inl ⟨rfl, rfl⟩
      · cases hn
    · cases hw : Schema.whole v.reread with
      | error e =>
        rw [hw] at hread
        cases hread
      | ok n =>
        rw [hw] at hread
        cases hread
        refine .inr ⟨n, (stays_iff v n).mpr ⟨?_, hw⟩, rfl⟩
        rcases hsame with rfl | ⟨n', hn', hn⟩
        · rfl
        · cases hn
          exact hn'
  · rintro (⟨rfl, rfl⟩ | ⟨n, hstays, rfl⟩)
    · exact ⟨rfl, .inl rfl⟩
    · obtain ⟨hn, hw⟩ := (stays_iff v n).mp hstays
      exact ⟨hwhole hw, .inr ⟨n, hn, rfl⟩⟩

theorem nullOr_number {v : Value} (h : v.form = .ok j) :
    nullOr Schema.whole (ofJson ((number? v).getD j).reread) = nullOr Schema.whole v.reread := by
  cases v with
  | bool b =>
    cases h
    rfl
  | int n =>
    cases h
    rfl
  | _ =>
    rw [reread_of_form h]
    rfl

theorem check_read (n : Int) (name kind : String) (o c f : Json) :
    check (ofJson (.obj ([("index", .int n), ("name", .str name), ("type", .str kind), ("output", o), ("completed", c),
      ("frameIndex", f)].map fun p => (p.1, p.2.reread)))) =
    ((Schema.Checked.good n).both ((Schema.Checked.good name).both ((Schema.Checked.good kind).both
      ((Schema.Checked.good (ofJson o.reread)).both
        ((Schema.atField "completed" (Schema.truth (ofJson c.reread))).both
          (Schema.atField "frameIndex" (nullOr Schema.whole (ofJson f.reread)))))))).map
      fun (index, name, kind, output, completed, frameIndex) =>
        (⟨.int index, name, kind, output, .bool completed, frameIndex⟩ : Record) := rfl

theorem check_iff {n : Int} (hi : r.index.wholeNumber? = some n) (h : r.normal = .ok j) :
    check (ofJson j.reread) = .good r' ↔ ∃ b v, Schema.truth r.completed.reread = .ok b ∧
      nullOr Schema.whole r.frameIndex.reread = .ok v ∧
      r' = ⟨.int n, r.name, r.kind, r.output.reread, .bool b, v⟩ := by
  obtain ⟨i, o, c, f, -, ho, hc, hf, rfl⟩ := form_record (normal_iff.mp h).1
  -- the position is written as the number that it is
  have hnumber : number? r.index = some (.int n) := by
    cases hr : r.index with
    | bool b =>
      rw [hr] at hi
      cases hi
      rfl
    | int n' =>
      rw [hr] at hi
      cases hi
      rfl
    | _ =>
      rw [hr] at hi
      cases hi
  rw [hnumber, Json.reread_obj keys_nodup rfl, reread_of_form ho, reread_of_form hc, ← nullOr_number hf]
  generalize (number? r.frameIndex).getD f = f
  rw [Option.getD_some, check_read]
  constructor
  · intro hgood
    obtain ⟨⟨n', name, kind, output, b, v⟩, hgood, rfl⟩ := Schema.Checked.map_good hgood
    cases ht : Schema.truth (ofJson c.reread) with
    | error e =>
      rw [ht] at hgood
      cases hgood
    | ok b' =>
      cases hw : nullOr Schema.whole (ofJson f.reread) with
      | error e =>
        rw [ht, hw] at hgood
        cases hgood
      | ok v' =>
        rw [ht, hw] at hgood
        cases hgood
        exact ⟨b, v, rfl, rfl, rfl⟩
  · rintro ⟨b, v, ht, hw, rfl⟩
    rw [ht, hw]
    rfl

/-- **A record is read back as it was just if it lasts.** -/
theorem reread_iff (hi : ∃ n, r.index.wholeNumber? = some n) (h : r.normal = .ok j) :
    (∃ r', check (ofJson j.reread) = .good r' ∧ r.Same r') ↔ r.Lasts := by
  obtain ⟨n, hi⟩ := hi
  simp only [check_iff hi h]
  constructor
  · rintro ⟨_, ⟨b, v, ht, hw, rfl⟩, hsame⟩
    refine ⟨⟨b, (completed_iff _ b).mp ⟨ht, hsame.completed⟩⟩, ?_⟩
    rcases (frameIndex_iff _ v).mp ⟨hw, hsame.frameIndex⟩ with ⟨hnull, -⟩ | ⟨k, hk, -⟩
    · exact .inl hnull
    · exact .inr ⟨k, hk⟩
  · rintro ⟨⟨b, hb⟩, hframe⟩
    obtain ⟨ht, hcompleted⟩ := (completed_iff _ b).mpr hb
    obtain ⟨v, hv⟩ : ∃ v : Value, (r.frameIndex = .null ∧ v = .null) ∨ ∃ n, r.frameIndex.Stays n ∧ v = .int n := by
      rcases hframe with hnull | ⟨k, hk⟩
      · exact ⟨.null, .inl ⟨hnull, rfl⟩⟩
      · exact ⟨.int k, .inr ⟨k, hk, rfl⟩⟩
    obtain ⟨hw, hframe⟩ := (frameIndex_iff _ v).mpr hv
    refine ⟨_, ⟨b, v, ht, hw, rfl⟩, .inr ⟨n, ?_, rfl⟩, rfl, rfl, rfl, hcompleted, hframe⟩
    cases hr : r.index with
    | float x =>
      rw [hr] at hi
      cases hi
    | _ =>
      rw [hr] at hi
      exact hi

end Record

/-! ## Calls -/

namespace Timeline

def Indexed (t : Timeline) : Prop := ∀ r ∈ t, ∃ n, r.index.wholeNumber? = some n

def after (t : Timeline) (calls : List Call) : Timeline := calls.foldl (fun t c => (t.called c).2) t

variable {t : Timeline}

theorem indexed_of_valid (h : ∀ r ∈ t, r.IsValid) : t.Indexed := by
  intro r hr
  obtain ⟨n, hn⟩ := (h r hr).index
  exact ⟨n, by rw [hn]; rfl⟩

theorem entry?_valid {name : Value} {kind : String} {frameIndex output completed : Value} {r : Record}
    (h : t.entry? name kind frameIndex output completed = .ok r) : r.IsValid := by
  unfold entry? at h
  cases hc : Record.checkFields [("index", .int t.length), ("name", name), ("type", .str kind),
      ("output", output), ("frame_index", frameIndex), ("completed", completed)] with
  | bad issues =>
    rw [hc] at h
    cases h
  | good r' =>
    rw [hc] at h
    cases h
    exact Record.checkFields_valid hc

theorem called_indexed (h : t.Indexed) (c : Call) : (t.called c).2.Indexed := by
  cases c with
  | add name kind frameIndex output completed =>
    cases he : t.entry? name kind frameIndex output completed with
    | error f =>
      simp only [called, he]
      exact h
    | ok r =>
      simp only [called, he]
      intro x hx
      rcases List.mem_append.mp hx with hx | hx
      · exact h x hx
      · obtain rfl := List.mem_singleton.mp hx
        obtain ⟨n, hn⟩ := (entry?_valid he).index
        exact ⟨n, by rw [hn]; rfl⟩
  | update e =>
    rcases refused_or_merged t e with ⟨f, hf⟩ | ⟨i, stored, hi, hstored, hname, hkind⟩
    · rw [called_refused hf]
      exact h
    · rw [called_merged hi hstored hname hkind]
      intro x hx
      rcases List.mem_or_eq_of_mem_set hx with hx | rfl
      · exact h x hx
      · -- the edit gives the position, or it would be for no record
        obtain ⟨v, hv, hn⟩ := hi
        have hindex := (Edit.merge_changes ⟨v, hv, hn⟩ stored).index
        rw [hv] at hindex
        exact ⟨i, by rw [← Option.some.inj hindex, hn]⟩

theorem after_indexed (h : t.Indexed) (calls : List Call) : (t.after calls).Indexed := by
  induction calls generalizing t with
  | nil => exact h
  | cons c calls ih => exact ih (called_indexed h c)

/-- The records of a journal are read back as they were just if all of them last. -/
theorem reread_iff {js : List Json} (hi : t.Indexed) (h : t.mapM Record.normal = .ok js) (k : Nat) :
    (∃ t', Schema.Checked.items Record.check k (Value.ofJsonItems (Json.rereadItems js)) = .good t' ∧
      List.Forall₂ Record.Same t t') ↔ ∀ r ∈ t, r.Lasts := by
  induction t generalizing js k with
  | nil =>
    cases h
    constructor
    · intro _ r hr
      cases hr
    · intro _
      exact ⟨[], rfl, .nil⟩
  | cons r t ih =>
    rw [List.mapM_cons] at h
    obtain ⟨j, hj, h⟩ := bind_ok h
    obtain ⟨js, hjs, h⟩ := bind_ok h
    cases h
    have hfirst := Record.reread_iff (hi r List.mem_cons_self) hj
    have hrest := ih (fun x hx => hi x (List.mem_cons_of_mem r hx)) hjs (k + 1)
    rw [List.forall_mem_cons, ← hfirst, ← hrest, Json.rereadItems, Value.ofJsonItems, Schema.Checked.items]
    constructor
    · rintro ⟨t', hgood, hsame⟩
      obtain ⟨⟨r', t''⟩, hboth, rfl⟩ := Schema.Checked.map_good hgood
      obtain ⟨hr, ht⟩ := Schema.Checked.both_good hboth
      cases hsame with
      | cons hsame hsames => exact ⟨⟨r', Schema.Checked.below_good hr, hsame⟩, t'', ht, hsames⟩
    · rintro ⟨⟨r', hr, hsame⟩, t', ht, hsames⟩
      exact ⟨r' :: t', by rw [hr, ht]; rfl, .cons hsame hsames⟩

end Timeline

namespace Model

variable {m : Model} {j : Json}

theorem ofState_iff (h : m.normal = .ok j) : ∃ js, m.timeline.mapM Record.normal = .ok js ∧ ∀ m',
    ofState j.reread = .ok m' ↔ m'.board = m.board ∧
      Schema.Checked.items Record.check 0 (Value.ofJsonItems (Json.rereadItems js)) = .good m'.timeline := by
  obtain ⟨js, hjs, rfl⟩ := normal_eq h
  refine ⟨js, hjs, fun m' => ?_⟩
  rw [Json.reread_obj keys_nodup rfl]
  have hread : ofState (.obj ([("storyboard", Json.str m.board), ("timeline", Json.arr js)].map
      fun p => (p.1, p.2.reread))) =
    ((Schema.Checked.both (.good m.board)
      ((Schema.Checked.items Record.check 0 (Value.ofJsonItems (Json.rereadItems js))).below (.field "timeline"))).map
        fun (b, t) => (⟨b, t⟩ : Model)).toExcept := by
    simp only [List.map_cons, List.map_nil, Json.reread, ofState, Value.ofJson, Value.ofJsonFields, check]
    rfl
  rw [hread]
  obtain ⟨board, timeline⟩ := m'
  cases Schema.Checked.items Record.check 0 (Value.ofJsonItems (Json.rereadItems js)) with
  | bad issues =>
    constructor
    · intro h
      cases h
    · rintro ⟨-, h⟩
      cases h
  | good t =>
    constructor
    · intro h
      cases h
      exact ⟨rfl, rfl⟩
    · rintro ⟨rfl, h⟩
      cases h
      rfl

/-- **A journal is read back as it was just if its records last.** -/
theorem reread_iff (hi : m.timeline.Indexed) (h : m.normal = .ok j) :
    (∃ m', ofState j.reread = .ok m' ∧ m'.board = m.board ∧ List.Forall₂ Record.Same m.timeline m'.timeline) ↔
      ∀ r ∈ m.timeline, r.Lasts := by
  constructor
  · rintro ⟨m', hm', -, hsame⟩
    obtain ⟨js, hjs, hread⟩ := ofState_iff h
    exact (Timeline.reread_iff hi hjs 0).mp ⟨m'.timeline, ((hread m').mp hm').2, hsame⟩
  · intro hlasts
    obtain ⟨js, hjs, hread⟩ := ofState_iff h
    obtain ⟨t', ht', hsame⟩ := (Timeline.reread_iff hi hjs 0).mpr hlasts
    exact ⟨⟨m.board, t'⟩, (hread _).mpr ⟨rfl, ht'⟩, rfl, hsame⟩

end Model

end Boardwalk
