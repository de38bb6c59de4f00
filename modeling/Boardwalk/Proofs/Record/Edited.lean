import Boardwalk.Record.Timeline
import Mathlib.Data.List.Induction
import Mathlib.Data.List.Nodup
/-!
# Edits of a journal

An edit is merged into the record that it names, or it is refused and the journal stays as it is (`update_merges`).
What an edit gives a field is the last value under a spelling of the field, unless that is null (`lookup_stripped`).
-/

namespace Boardwalk

namespace Json

variable {α : Type}

theorem lookup_put (key : String) (value : α) (fields : List (String × α)) (k : String) :
    (put key value fields).lookup k = if k = key then some value else fields.lookup k := by
  by_cases hk : k = key
  · rw [if_pos hk, hk, lookup_put_self]
  rw [if_neg hk]
  induction fields with
  | nil =>
    have h : (k == key) = false := by simpa using hk
    rw [put, List.lookup_cons, h]
  | cons p rest ih =>
    obtain ⟨k', v⟩ := p
    rw [put]
    by_cases hk' : k' = key
    · have h : (k == key) = false := by simpa using hk
      have h' : (k == k') = false := by simpa [hk'] using hk
      simp only [hk', if_true, List.lookup_cons, h]
    · rw [if_neg hk', List.lookup_cons, List.lookup_cons, ih]

theorem nodup_put (key : String) (value : α) {fields : List (String × α)} (h : (fields.map Prod.fst).Nodup) :
    ((put key value fields).map Prod.fst).Nodup := by
  rw [keys_put]
  split
  · exact h
  · rename_i hk
    rw [List.nodup_append]
    refine ⟨h, List.nodup_singleton key, ?_⟩
    intro k hmem k' hk' e
    apply hk
    rw [← List.mem_singleton.mp hk', ← e]
    exact hmem

theorem lookup_filter {fields : List (String × α)} (h : (fields.map Prod.fst).Nodup) (p : α → Bool) (k : String) :
    (fields.filter fun f => p f.2).lookup k = (fields.lookup k).filter p := by
  induction fields with
  | nil => rfl
  | cons f rest ih =>
    obtain ⟨k', v⟩ := f
    obtain ⟨hk', hrest⟩ := List.nodup_cons.mp h
    have ih := ih hrest
    by_cases hk : k = k'
    · subst hk
      have hnone : rest.lookup k = none := by
        apply List.lookup_eq_none_iff.mpr
        intro f hf
        apply bne_iff_ne.mpr
        intro e
        exact hk' (List.mem_map.mpr ⟨f, hf, e.symm⟩)
      rw [hnone] at ih
      by_cases hv : p v = true
      · simp [hv, Option.filter]
      · simp [hv, ih, Option.filter]
    · have hbeq : (k == k') = false := by simpa using hk
      by_cases hv : p v = true
      · simp only [List.filter_cons, hv, if_true, List.lookup_cons, hbeq, ih]
      · simp only [List.filter_cons, hv, Bool.false_eq_true, if_false, List.lookup_cons, hbeq, ih]

theorem lookup_filterMap (given? : String → Option α) (keys : List String) (key : String) :
    (keys.filterMap fun k => (given? k).map fun v => (k, v)).lookup key = if key ∈ keys then given? key else none := by
  induction keys with
  | nil => rfl
  | cons k ks ih =>
    rw [List.filterMap_cons]
    cases hv : given? k with
    | none =>
      dsimp only [Option.map_none]
      rw [ih]
      by_cases hk : key = k
      · subst hk
        simp [hv]
      · simp [hk]
    | some v =>
      dsimp only [Option.map_some]
      rw [List.lookup_cons]
      by_cases hk : key = k
      · subst hk
        simp [hv]
      · rw [beq_false_of_ne hk]
        simp [hk, ih]

theorem keys_filterMap (given? : String → Option α) (keys : List String) :
    (keys.filterMap fun k => (given? k).map fun v => (k, v)).map Prod.fst = keys.filter fun k => (given? k).isSome := by
  induction keys with
  | nil => rfl
  | cons k ks ih =>
    rw [List.filterMap_cons, List.filter_cons]
    cases given? k with
    | none => exact ih
    | some v => exact congrArg (k :: ·) ih

end Json

/-! ## What an edit gives -/

/-- An edit of a journal: a record with its new fields, or fields by their names. -/
inductive Edit where
  | record (r : Record)
  | fields (fs : List (String × Value))

namespace Edit

/-- The values of an edit in their order, with those that are null. -/
def entries : Edit → List (String × Value)
  | .record r => [("index", r.index), ("name", .str r.name), ("type", .str r.kind), ("output", r.output),
      ("completed", r.completed), ("frame_index", r.frameIndex)]
  | .fields fs => fs

def stripped : Edit → List (String × Value)
  | .record r => Timeline.editOfRecord r
  | .fields fs => Timeline.editOf fs

/-- The position of the frame may be spelled in two ways. -/
def spelling (key : String) : String := if key = "frameIndex" then "frame_index" else key

/-- What an edit gives a field: the last value under a spelling of the field, unless that is null. -/
def given? (e : Edit) (field : String) : Option Value :=
  ((e.entries.reverse.find? fun f => spelling f.1 == field).map Prod.snd).filter fun v => !v.isNull

theorem stripped_eq (e : Edit) : e.stripped = Timeline.editOf e.entries := by
  cases e with
  | record r => rfl
  | fields fs => rfl

theorem folded_entries (fs : List (String × Value)) (field : String) :
    ((fs.foldl (fun e f => Json.put (spelling f.1) f.2 e) []).map Prod.fst).Nodup ∧
    (fs.foldl (fun e f => Json.put (spelling f.1) f.2 e) []).lookup field =
      (fs.reverse.find? fun f => spelling f.1 == field).map Prod.snd := by
  induction fs using List.reverseRecOn with
  | nil => exact ⟨List.nodup_nil, rfl⟩
  | append_singleton fs f ih =>
    obtain ⟨hn, hl⟩ := ih
    rw [List.foldl_append, List.foldl_cons, List.foldl_nil]
    refine ⟨Json.nodup_put _ _ hn, ?_⟩
    rw [Json.lookup_put, hl, List.reverse_append, List.reverse_singleton, List.singleton_append, List.find?_cons]
    by_cases hf : field = spelling f.1
    · simp [hf]
    · have : (spelling f.1 == field) = false := by simpa using Ne.symm hf
      rw [if_neg hf, this]

/-- **The last value under a spelling counts**, and null is no value. -/
theorem lookup_stripped (e : Edit) (field : String) : e.stripped.lookup field = e.given? field := by
  obtain ⟨hn, hl⟩ := folded_entries e.entries field
  rw [stripped_eq]
  exact (Json.lookup_filter hn (fun v => !v.isNull) field).trans (congrArg _ hl)

/-! ## What becomes of an edit -/

def Names (e : Edit) (i : Nat) : Prop := ∃ v, e.given? "index" = some v ∧ v.wholeNumber? = some (i : Int)

/-- The edit leaves a text as it is: it gives none for it, or the same one. -/
def Keeps (e : Edit) (field stored : String) : Prop := ∀ v, e.given? field = some v → v = .str stored

/-- An edit is refused with a fault, if it is for no record of the journal, or is for another name or kind than the
record has. -/
inductive Refused (e : Edit) (t : Timeline) : Fault → Prop where
  | unknown : (∀ i, e.Names i → t.length ≤ i) → Refused e t (.noRecord ((e.given? "index").getD .null))
  | renamed {i : Nat} {stored : Record} {v : Value} : e.Names i → t[i]? = some stored →
      e.given? "name" = some v → v ≠ .str stored.name →
      Refused e t (.fixedField ((e.given? "index").getD .null) "name" stored.name v)
  | retyped {i : Nat} {stored : Record} {v : Value} : e.Names i → t[i]? = some stored →
      e.Keeps "name" stored.name → e.given? "type" = some v → v ≠ .str stored.kind →
      Refused e t (.fixedField ((e.given? "index").getD .null) "type" stored.kind v)

/-- The second record is the first one with what the edit gives. -/
structure Changes (e : Edit) (stored r : Record) : Prop where
  index : e.given? "index" = some r.index
  name : r.name = stored.name
  kind : r.kind = stored.kind
  output : r.output = (e.given? "output").getD stored.output
  completed : r.completed = (e.given? "completed").getD stored.completed
  frameIndex : r.frameIndex = (e.given? "frame_index").getD stored.frameIndex

/-- The second journal is the first one with the edit merged into the record that it is for, and nothing else. -/
structure Merged (e : Edit) (t : Timeline) (r : Record) (t' : Timeline) : Prop where
  length : t'.length = t.length
  place : ∃ i stored, e.Names i ∧ t[i]? = some stored ∧ e.Keeps "name" stored.name ∧ e.Keeps "type" stored.kind ∧
    e.Changes stored r ∧ t'[i]? = some r ∧ ∀ j, j ≠ i → t'[j]? = t[j]?

variable {e : Edit} {t : Timeline}

theorem Names.unique {i j : Nat} (hi : e.Names i) (hj : e.Names j) : i = j := by
  obtain ⟨v, hv, hn⟩ := hi
  obtain ⟨v', hv', hn'⟩ := hj
  cases hv.symm.trans hv'
  have h : (i : Int) = j := Option.some.inj (hn.symm.trans hn')
  omega

theorem keeps_iff (e : Edit) (field stored : String) :
    Timeline.keeps e.stripped field stored = true ↔ e.Keeps field stored := by
  unfold Timeline.keeps Keeps
  rw [lookup_stripped]
  cases e.given? field with
  | none => simp
  | some v => cases v <;> simp

theorem editIndex?_iff (i : Nat) : t.editIndex? e.stripped = some i ↔ e.Names i ∧ i < t.length := by
  unfold Timeline.editIndex? Names
  rw [lookup_stripped]
  cases e.given? "index" with
  | none => simp
  | some v =>
    cases hn : v.wholeNumber? with
    | none => simp [hn]
    | some n =>
      by_cases hlt : 0 ≤ n ∧ n < t.length
      · obtain ⟨k, rfl⟩ := Int.eq_ofNat_of_zero_le hlt.1
        have hk : k < t.length := by omega
        simp only [hn, hlt.1, hlt.2, Option.bind_eq_bind, Option.bind_some, decide_true, Bool.and_self, if_true,
          Int.toNat_natCast, Option.some.injEq, exists_eq_left', Int.natCast_inj]
        constructor
        · intro h
          exact ⟨h, h ▸ hk⟩
        · exact And.left
      · have hno : ¬ ((decide (0 ≤ n) && decide (n < (t.length : Int))) = true) := by simpa using hlt
        simp only [hn, hno, Option.bind_eq_bind, Option.bind_some, Option.some.injEq, exists_eq_left']
        constructor
        · intro h
          cases h
        · rintro ⟨rfl, hi⟩
          exact absurd ⟨by omega, by omega⟩ hlt

theorem editIndex?_none : t.editIndex? e.stripped = none ↔ ∀ i, e.Names i → t.length ≤ i := by
  rw [Option.eq_none_iff_forall_ne_some]
  constructor
  · intro h i hi
    apply Nat.le_of_not_lt
    intro hlt
    exact h i (editIndex?_iff i |>.mpr ⟨hi, hlt⟩)
  · intro h i hi
    obtain ⟨hi, hlt⟩ := (editIndex?_iff i).mp hi
    have := h i hi
    omega

theorem merge_changes {i : Nat} (hi : e.Names i) (stored : Record) :
    e.Changes stored (Timeline.merge e.stripped stored) := by
  obtain ⟨v, hv, -⟩ := hi
  unfold Timeline.merge
  simp only [lookup_stripped]
  exact ⟨by rw [hv]; rfl, rfl, rfl, rfl, rfl, rfl⟩

theorem Changes.unique {stored r r' : Record} (h : e.Changes stored r) (h' : e.Changes stored r') : r = r' := by
  obtain ⟨index, name, kind, output, completed, frameIndex⟩ := r
  obtain ⟨index', name', kind', output', completed', frameIndex'⟩ := r'
  have hindex : index = index' := Option.some.inj (h.index.symm.trans h'.index)
  congr 1
  · exact h.name.trans h'.name.symm
  · exact h.kind.trans h'.kind.symm
  · exact h.output.trans h'.output.symm
  · exact h.completed.trans h'.completed.symm
  · exact h.frameIndex.trans h'.frameIndex.symm

end Edit

namespace Timeline

open Edit

variable {t : Timeline} {e : Edit}

theorem update_refused {f : Fault} (h : e.Refused t f) : t.update e.stripped = .error f := by
  unfold update
  simp only [lookup_stripped]
  cases h with
  | unknown hno => rw [editIndex?_none.mpr hno]
  | @renamed i stored v hi hstored hv hne =>
    have hlt := (List.getElem?_eq_some_iff.mp hstored).1
    have hkeeps : keeps e.stripped "name" stored.name = false := by
      apply Bool.eq_false_iff.mpr
      intro hk
      exact hne ((keeps_iff ..).mp hk v hv)
    rw [(editIndex?_iff i).mpr ⟨hi, hlt⟩]
    simp only [hstored, hkeeps, hv]
    rfl
  | @retyped i stored v hi hstored hname hv hne =>
    have hlt := (List.getElem?_eq_some_iff.mp hstored).1
    have hkeeps : keeps e.stripped "type" stored.kind = false := by
      apply Bool.eq_false_iff.mpr
      intro hk
      exact hne ((keeps_iff ..).mp hk v hv)
    rw [(editIndex?_iff i).mpr ⟨hi, hlt⟩]
    simp only [hstored, (keeps_iff ..).mpr hname, hkeeps, hv]
    rfl

theorem update_merged {i : Nat} {stored : Record} (hi : e.Names i) (hstored : t[i]? = some stored)
    (hname : e.Keeps "name" stored.name) (hkind : e.Keeps "type" stored.kind) :
    t.update e.stripped = .ok (t.set i (merge e.stripped stored), merge e.stripped stored) := by
  have hlt := (List.getElem?_eq_some_iff.mp hstored).1
  unfold update
  simp only [(editIndex?_iff i).mpr ⟨hi, hlt⟩, hstored, (keeps_iff ..).mpr hname, (keeps_iff ..).mpr hkind]
  rfl

theorem refused_or_merged (t : Timeline) (e : Edit) : (∃ f, e.Refused t f) ∨
    ∃ i stored, e.Names i ∧ t[i]? = some stored ∧ e.Keeps "name" stored.name ∧ e.Keeps "type" stored.kind := by
  by_cases hno : ∀ i, e.Names i → t.length ≤ i
  · exact .inl ⟨_, .unknown hno⟩
  · simp only [not_forall, Nat.not_le] at hno
    obtain ⟨i, hi, hlt⟩ := hno
    have hstored := List.getElem?_eq_getElem hlt
    by_cases hname : e.Keeps "name" t[i].name
    · by_cases hkind : e.Keeps "type" t[i].kind
      · exact .inr ⟨i, t[i], hi, hstored, hname, hkind⟩
      · simp only [Keeps, not_forall] at hkind
        obtain ⟨v, hv, hne⟩ := hkind
        exact .inl ⟨_, .retyped hi hstored hname hv hne⟩
    · simp only [Keeps, not_forall] at hname
      obtain ⟨v, hv, hne⟩ := hname
      exact .inl ⟨_, .renamed hi hstored hv hne⟩

/-! ## Calls -/

inductive Call where
  | add (name : Value) (kind : String) (frameIndex output completed : Value)
  | update (e : Edit)

/-- What a call gives back, and the journal after it. A call that is refused leaves the journal as it is. -/
def called (t : Timeline) : Call → Except Fault Record × Timeline
  | .add name kind frameIndex output completed =>
    match t.entry? name kind frameIndex output completed with
    | .error f => (.error f, t)
    | .ok r => (.ok r, t ++ [r])
  | .update e =>
    match t.update e.stripped with
    | .error f => (.error f, t)
    | .ok (t', r) => (.ok r, t')

theorem called_refused {f : Fault} (h : e.Refused t f) : t.called (.update e) = (.error f, t) := by
  simp only [called, update_refused h]

theorem called_merged {i : Nat} {stored : Record} (hi : e.Names i) (hstored : t[i]? = some stored)
    (hname : e.Keeps "name" stored.name) (hkind : e.Keeps "type" stored.kind) :
    t.called (.update e) = (.ok (merge e.stripped stored), t.set i (merge e.stripped stored)) := by
  simp only [called, update_merged hi hstored hname hkind]

theorem set_merged {i : Nat} {stored : Record} (hi : e.Names i) (hstored : t[i]? = some stored)
    (hname : e.Keeps "name" stored.name) (hkind : e.Keeps "type" stored.kind) :
    e.Merged t (merge e.stripped stored) (t.set i (merge e.stripped stored)) where
  length := List.length_set
  place := by
    have hlt := (List.getElem?_eq_some_iff.mp hstored).1
    refine ⟨i, stored, hi, hstored, hname, hkind, merge_changes hi stored, List.getElem?_set_self hlt, ?_⟩
    intro j hj
    exact List.getElem?_set_ne (Ne.symm hj)

theorem merged_unique {r r' : Record} {t₁ t₂ : Timeline} (h : e.Merged t r t₁) (h' : e.Merged t r' t₂) :
    r = r' ∧ t₁ = t₂ := by
  obtain ⟨-, i, stored, hi, hstored, -, -, hr, hat, helse⟩ := h
  obtain ⟨-, i', stored', hi', hstored', -, -, hr', hat', helse'⟩ := h'
  obtain rfl := hi.unique hi'
  obtain rfl := Option.some.inj (hstored.symm.trans hstored')
  obtain rfl := hr.unique hr'
  refine ⟨rfl, List.ext_getElem? ?_⟩
  intro j
  by_cases hj : j = i
  · rw [hj, hat, hat']
  · rw [helse j hj, helse' j hj]

theorem not_merged_of_refused {f : Fault} {r : Record} {t' : Timeline} (h : e.Refused t f) : ¬ e.Merged t r t' := by
  rintro ⟨-, i, stored, hi, hstored, hname, hkind, -⟩
  cases (called_refused h).symm.trans (called_merged hi hstored hname hkind)

/-- **An edit is merged or refused.** It is refused, and the journal stays as it is, exactly if it is for no record of
the journal, or gives another name or kind than the record has. Else the record takes what the edit gives, keeps the
rest, and is the only one that changes. -/
theorem update_merges (t : Timeline) (e : Edit) :
    (∀ f t', t.called (.update e) = (.error f, t') ↔ e.Refused t f ∧ t' = t ∧ f.family = .value) ∧
    ∀ r t', t.called (.update e) = (.ok r, t') ↔ e.Merged t r t' := by
  constructor
  · intro f t'
    constructor
    · intro h
      rcases refused_or_merged t e with ⟨f', hf⟩ | ⟨i, stored, hi, hstored, hname, hkind⟩
      · cases (called_refused hf).symm.trans h
        exact ⟨hf, rfl, by cases hf <;> rfl⟩
      · cases (called_merged hi hstored hname hkind).symm.trans h
    · rintro ⟨hf, rfl, -⟩
      exact called_refused hf
  · intro r t'
    constructor
    · intro h
      rcases refused_or_merged t e with ⟨f', hf⟩ | ⟨i, stored, hi, hstored, hname, hkind⟩
      · cases (called_refused hf).symm.trans h
      · cases (called_merged hi hstored hname hkind).symm.trans h
        exact set_merged hi hstored hname hkind
    · intro h
      rcases refused_or_merged t e with ⟨f', hf⟩ | ⟨i, stored, hi, hstored, hname, hkind⟩
      · exact absurd h (not_merged_of_refused hf)
      · obtain ⟨rfl, rfl⟩ := merged_unique (set_merged hi hstored hname hkind) h
        exact called_merged hi hstored hname hkind

end Timeline

end Boardwalk
