import Mathlib.Order.Bounds.Basic
import Boardwalk.Board.Basic
import Boardwalk.Proofs.Session.Stored
import Boardwalk.Proofs.Text.Numeral
/-!
# Targets and the frames and records that they name

A target stands for a position or a name: a name of decimal digits stands for their number (`Target.meant`). A jump
leads to the frame that its target names or is refused, and a look-up finds the last record that it names, if there is
one. Just the names for which neither holds are those of digit signs that are not read as a numeral, since some of them
are no decimal digits, or there are too many (`lookups_total_iff`).
-/

namespace Boardwalk

variable {σ : Type}

namespace Target

def meant : Target → Target
  | .position n => .position n
  | .name s => if Text.isDecimal s.toList then .position (Text.decimalValue s.toList) else .name s

/-- If it is a name of digit signs, it is one of decimal digits, and of no more than a numeral may have. -/
def IsReadable : Target → Prop
  | .position _ => True
  | .name s => Text.allDigitSigns s.toList = true →
      Text.isDecimal s.toList = true ∧ s.toList.length ≤ Number.numeralLimit

/-- A position that is given as a number can be written. -/
def HasNumeral (target : Target) : Prop := ∀ n, target = .position n → Number.hasNumeral n = true

theorem settle_of_readable {target : Target} (h : target.IsReadable) : target.settle = .ok target.meant := by
  cases target with
  | position n => rfl
  | name s =>
    unfold settle meant
    by_cases hsigns : Text.allDigitSigns s.toList = true
    · obtain ⟨hdecimal, hlimit⟩ := h hsigns
      have hread := Text.readNumeral_ok_iff.mpr ⟨hdecimal, hlimit, rfl⟩
      simp [hsigns, hdecimal, hread]
    · have hdecimal : ¬ Text.isDecimal s.toList = true := fun h => hsigns (Text.allDigitSigns_of_isDecimal h)
      simp [hsigns, hdecimal]

theorem settle_of_unreadable {target : Target} (h : ¬ target.IsReadable) :
    ∃ s f, target = .name s ∧ target.settle = .error (.numeral f s) := by
  cases target with
  | position n => exact absurd trivial h
  | name s =>
    obtain ⟨hsigns, hnot⟩ := Classical.not_imp.mp h
    unfold settle
    cases hread : Text.readNumeral s.toList with
    | error f =>
      refine ⟨s, f, rfl, ?_⟩
      simp only [hsigns, hread, if_true]
    | ok n =>
      obtain ⟨hdecimal, hlimit, -⟩ := Text.readNumeral_ok_iff.mp hread
      exact absurd ⟨hdecimal, hlimit⟩ hnot

theorem hasNumeral_meant {target : Target} (h : target.IsReadable) (hn : target.HasNumeral) {n : Int}
    (hm : target.meant = .position n) : Number.hasNumeral n = true := by
  cases target with
  | position k =>
    cases hm
    exact hn n rfl
  | name s =>
    unfold meant at hm
    by_cases hdecimal : Text.isDecimal s.toList = true
    · simp only [hdecimal, if_true, Target.position.injEq] at hm
      subst hm
      obtain ⟨-, hlimit⟩ := h (Text.allDigitSigns_of_isDecimal hdecimal)
      unfold Number.hasNumeral
      generalize Number.numeralLimit = limit at hlimit ⊢
      apply decide_eq_true
      calc Text.decimalValue s.toList < 10 ^ s.toList.length := Text.decimalValue_lt _
        _ ≤ 10 ^ limit := Nat.pow_le_pow_right (by decide) hlimit
    · simp [hdecimal] at hm

end Target

/-! ## Records -/

namespace Record

def IsNamedBy (r : Record) (target : Target) : Prop :=
  match target.meant with
  | .position n => r.frameIndex.wholeNumber? = some n
  | .name s => r.name = s

end Record

namespace View

/-- The last record that the target names, or none. -/
inductive Finds (v : View) (target : Target) : Except Fault (Option Record) → Prop where
  | last {ts ts' : Timeline} {r : Record} : v.records = ts ++ r :: ts' → r.IsNamedBy target →
      (∀ r' ∈ ts', ¬ r'.IsNamedBy target) → Finds v target (.ok (some r))
  | none : (∀ r ∈ v.records, ¬ r.IsNamedBy target) → Finds v target (.ok none)

section

variable {v : View} {target : Target} {p : Record → Bool} (hp : ∀ r ∈ v.records, p r = true ↔ r.IsNamedBy target)
include hp

theorem latest?_finds : v.Finds target (.ok (v.latest? p)) := by
  cases h : v.latest? p with
  | none =>
    apply Finds.none
    intro r hr hnamed
    exact List.find?_eq_none.mp h r (List.mem_reverse.mpr hr) ((hp r hr).mpr hnamed)
  | some r =>
    obtain ⟨hr, ts, ts', hrecords, hts⟩ := List.find?_eq_some_iff_append.mp h
    have hsplit : v.records = ts'.reverse ++ r :: ts.reverse := by
      rw [← List.reverse_reverse v.records, hrecords]
      simp
    have hmem : ∀ r' ∈ ts.reverse, r' ∈ v.records := by
      intro r' hr'
      rw [hsplit]
      exact List.mem_append_right _ (List.mem_cons_of_mem _ hr')
    refine .last hsplit ((hp r (by simp [hsplit])).mp hr) fun r' hr' hnamed => ?_
    have := hts r' (List.mem_reverse.mp hr')
    simp [(hp r' (hmem r' hr')).mpr hnamed] at this

theorem Finds.eq_latest? {o : Option Record} (h : v.Finds target (.ok o)) : o = v.latest? p := by
  cases h with
  | none hnone =>
    symm
    refine List.find?_eq_none.mpr fun r hr hpr => ?_
    exact hnone r (List.mem_reverse.mp hr) ((hp r (List.mem_reverse.mp hr)).mp hpr)
  | @last ts ts' r hsplit hr hts =>
    symm
    refine List.find?_eq_some_iff_append.mpr ⟨(hp r (by simp [hsplit])).mpr hr, ts'.reverse, ts.reverse, ?_, ?_⟩
    · rw [hsplit]
      simp
    · intro r' hr'
      have hmem := List.mem_reverse.mp hr'
      rw [Bool.not_eq_eq_eq_not, Bool.not_true, Bool.eq_false_iff]
      exact fun hpr => hts r' hmem ((hp r' (by simp [hsplit, hmem])).mp hpr)

end

variable {v : View} {target : Target}

theorem Finds.unique {o o' : Option Record} (h : v.Finds target (.ok o)) (h' : v.Finds target (.ok o')) : o = o' := by
  classical
  have hp : ∀ r ∈ v.records, decide (r.IsNamedBy target) = true ↔ r.IsNamedBy target := fun r _ => decide_eq_true_iff
  exact (h.eq_latest? hp).trans (h'.eq_latest? hp).symm

theorem Finds.named {r : Record} (h : v.Finds target (.ok (some r))) : r.IsNamedBy target := by
  generalize ho : Except.ok (some r) = answer at h
  cases h with
  | last _ hr =>
    cases ho
    exact hr
  | none => cases ho

theorem record?_finds (h : target.IsReadable) : v.Finds target (v.record? target) := by
  unfold record?
  rw [Target.settle_of_readable h]
  cases hm : target.meant with
  | position n =>
    refine latest?_finds fun r _ => ?_
    simp [Record.IsNamedBy, hm]
  | name s =>
    refine latest?_finds fun r _ => ?_
    simp [Record.IsNamedBy, hm]

theorem exists_finds {r : Record} (hr : r ∈ v.records) (h : target.IsReadable) (hnamed : r.IsNamedBy target) :
    ∃ s, v.Finds target (.ok (some s)) := by
  have hfinds := record?_finds (v := v) h
  generalize v.record? target = answer at hfinds
  cases hfinds with
  | last hsplit hs hts => exact ⟨_, .last hsplit hs hts⟩
  | none hnone => exact absurd hnamed (hnone r hr)

end View

/-! ## Frames -/

namespace Board

def LeadsTo (b : Board σ) (target : Target) (i : Nat) : Prop :=
  match target.meant with
  | .position n => n = i ∧ i < b.frames.length
  | .name s => IsGreatest {j | ∃ f, b.frames[j]? = some f ∧ f.nameAt j = s} i

/-- The frame that the target leads to, or the fault that there is none. -/
inductive Resolves (b : Board σ) (target : Target) : Except Fault Nat → Prop where
  | found {i : Nat} : b.LeadsTo target i → Resolves b target (.ok i)
  | outside {n : Int} : target.meant = .position n → ¬ (0 ≤ n ∧ n < b.frames.length) →
      Resolves b target (.error (.jumpOutside n b.name b.frames.length))
  | unknown {s : String} : target.meant = .name s → (∀ (i : Nat) (f : Frame σ), b.frames[i]? = some f → f.nameAt i ≠ s) →
      Resolves b target (.error (.jumpUnknown s b.name))

theorem find?_zipIdx_reverse {α : Type} (p : α → Bool) (l : List α) (i : Nat) :
    (l.zipIdx.reverse.find? fun q => p q.1).map (·.2) = some i ↔
      IsGreatest {j : Nat | ∃ x, l[j]? = some x ∧ p x = true} i := by
  induction l using List.reverseRecOn with
  | nil => simp [IsGreatest]
  | append_singleton l x ih =>
    rw [List.zipIdx_append, List.reverse_append]
    by_cases hx : p x = true
    · have hlast : IsGreatest {j : Nat | ∃ y, (l ++ [x])[j]? = some y ∧ p y = true} l.length := by
        refine ⟨⟨x, List.getElem?_concat_length, hx⟩, ?_⟩
        rintro j ⟨y, hy, -⟩
        obtain ⟨hlt, -⟩ := List.getElem?_eq_some_iff.mp hy
        simpa [Nat.lt_succ_iff] using hlt
      simp only [List.zipIdx_cons, List.zipIdx_nil, List.reverse_singleton, List.singleton_append, List.find?_cons, hx,
        Option.map_some, Option.some.injEq, Nat.zero_add]
      exact ⟨fun h => h ▸ hlast, fun h => hlast.unique h⟩
    · have hset : {j : Nat | ∃ y, (l ++ [x])[j]? = some y ∧ p y = true} = {j : Nat | ∃ y, l[j]? = some y ∧ p y = true} := by
        ext j
        constructor
        · rintro ⟨y, hy, hp⟩
          by_cases hj : j < l.length
          · rw [List.getElem?_append_left hj] at hy
            exact ⟨y, hy, hp⟩
          · obtain ⟨hlt, -⟩ := List.getElem?_eq_some_iff.mp hy
            obtain rfl : j = l.length := by simp at hlt; omega
            rw [List.getElem?_concat_length] at hy
            cases hy
            exact absurd hp hx
        · rintro ⟨y, hy, hp⟩
          obtain ⟨hlt, -⟩ := List.getElem?_eq_some_iff.mp hy
          exact ⟨y, by rw [List.getElem?_append_left hlt, hy], hp⟩
      rw [hset, ← ih]
      simp [hx]

theorem names_getElem? (b : Board σ) (i : Nat) : b.names[i]? = b.frames[i]?.map (Frame.nameAt i) :=
  List.getElem?_mapIdx

theorem lastNamed?_some {b : Board σ} {s : String} {i : Nat} (h : b.lastNamed? s = some i) :
    IsGreatest {j | ∃ f : Frame σ, b.frames[j]? = some f ∧ f.nameAt j = s} i := by
  have hgreatest := (find?_zipIdx_reverse (· == s) b.names i).mp h
  simpa [names_getElem?] using hgreatest

theorem lastNamed?_none {b : Board σ} {s : String} (h : b.lastNamed? s = none) :
    ∀ (i : Nat) (f : Frame σ), b.frames[i]? = some f → f.nameAt i ≠ s := by
  intro i f hf hname
  have hmem : (f.nameAt i, i) ∈ b.names.zipIdx := by
    rw [List.mem_zipIdx_iff_getElem?, names_getElem?, hf, Option.map_some]
  have hnot := List.find?_eq_none.mp (Option.map_eq_none_iff.mp h) _ (List.mem_reverse.mpr hmem)
  simp [hname] at hnot

/-- What a readable target leads to; a position that cannot be written cannot be refused by name either. -/
theorem jumpTarget_resolves {b : Board σ} {target : Target} (h : target.IsReadable)
    (hn : (∃ i, b.LeadsTo target i) ∨ target.HasNumeral) : b.Resolves target (b.jumpTarget target) := by
  unfold jumpTarget
  rw [Target.settle_of_readable h]
  cases hm : target.meant with
  | name s =>
    dsimp only
    cases hs : b.lastNamed? s with
    | some i =>
      refine .found ?_
      unfold LeadsTo
      rw [hm]
      exact lastNamed?_some hs
    | none => exact .unknown hm (lastNamed?_none hs)
  | position n =>
    dsimp only
    by_cases hin : 0 ≤ n ∧ n < b.frames.length
    · rw [if_pos hin]
      refine .found ?_
      unfold LeadsTo
      rw [hm]
      dsimp only
      omega
    · have hnumeral : Number.hasNumeral n = true := by
        rcases hn with ⟨i, hi⟩ | hn
        · unfold LeadsTo at hi
          rw [hm] at hi
          dsimp only at hi
          omega
        · exact Target.hasNumeral_meant h hn hm
      rw [if_neg hin, outsideFault, if_pos hnumeral]
      exact .outside hm hin

theorem Resolves.reads {b : Board σ} {target : Target} (h : b.Resolves target (b.jumpTarget target)) :
    (∃ i, b.LeadsTo target i) ∨ target.HasNumeral := by
  cases target with
  | name s => exact .inr nofun
  | position n =>
    by_cases hin : 0 ≤ n ∧ n < b.frames.length
    · exact .inl ⟨n.toNat, by simp [LeadsTo, Target.meant]; omega⟩
    · have hjump : b.jumpTarget (.position n) = .error (b.outsideFault n) := if_neg hin
      rw [hjump, outsideFault] at h
      by_cases hn : Number.hasNumeral n = true
      · right
        rintro k hk
        cases hk
        exact hn
      · rw [if_neg hn] at h
        cases h

/-- A position outside of the list that is too long for a numeral raises a fault of its own, as the wording of the other
one shows it. -/
theorem jumpTarget_unwritten {b : Board σ} {target : Target} (hn : ¬ target.HasNumeral)
    (hnone : ¬ ∃ i, b.LeadsTo target i) : b.jumpTarget target = .error .noNumeral := by
  cases target with
  | name s => exact absurd (fun n hs => nomatch hs) hn
  | position n =>
    have hin : ¬ (0 ≤ n ∧ n < b.frames.length) := fun hin =>
      hnone ⟨n.toNat, by simp [LeadsTo, Target.meant]; omega⟩
    have hnumeral : ¬ Number.hasNumeral n = true := by
      intro hnumeral
      apply hn
      rintro k hk
      cases hk
      exact hnumeral
    have hjump : b.jumpTarget (.position n) = .error (b.outsideFault n) := if_neg hin
    rw [hjump, outsideFault, if_neg hnumeral]

/-- **A jump leads to the frame that its target names, or is refused**, and a look-up finds the last record that the
target names or none, just if the target is not a name of digit signs that make no numeral. For such a name both raise
the fault of the numeral. A position that can neither be reached nor be written is the other one that is not refused. -/
theorem lookups_total_iff (b : Board σ) (v : View) (target : Target) :
    (b.Resolves target (b.jumpTarget target) ↔
      target.IsReadable ∧ ((∃ i, b.LeadsTo target i) ∨ target.HasNumeral)) ∧
    (v.Finds target (v.record? target) ↔ target.IsReadable) ∧
    (¬ target.IsReadable → ∃ s f, target = .name s ∧ b.jumpTarget target = .error (.numeral f s) ∧
      v.record? target = .error (.numeral f s)) ∧
    (¬ target.HasNumeral → (¬ ∃ i, b.LeadsTo target i) → b.jumpTarget target = .error .noNumeral) := by
  have hunreadable : ¬ target.IsReadable → ∃ s f, target = .name s ∧ b.jumpTarget target = .error (.numeral f s) ∧
      v.record? target = .error (.numeral f s) := by
    intro h
    obtain ⟨s, f, ht, hsettle⟩ := Target.settle_of_unreadable h
    refine ⟨s, f, ht, ?_, ?_⟩
    · unfold jumpTarget
      rw [hsettle]
    · unfold View.record?
      rw [hsettle]
      rfl
  refine ⟨⟨fun h => ?_, fun h => jumpTarget_resolves h.1 h.2⟩, ⟨fun h => ?_, View.record?_finds⟩, hunreadable,
    jumpTarget_unwritten⟩
  · by_cases hread : target.IsReadable
    · exact ⟨hread, h.reads⟩
    · obtain ⟨s, f, -, hjump, -⟩ := hunreadable hread
      rw [hjump] at h
      cases h
  · by_cases hread : target.IsReadable
    · exact hread
    · obtain ⟨s, f, -, -, hrecord⟩ := hunreadable hread
      rw [hrecord] at h
      cases h

def squared : Board Unit := ⟨"b", .plain none "b", none, [.work .key "²" none none fun _ w => (.ok .null, w.scene)]⟩

/-- The sign is a digit sign but no decimal digit, so the jump to the frame raises the fault of a numeral, and so does
the look-up of a record, be there any or not. -/
theorem superscript_unread : squared.names = ["²"] ∧
    squared.jumpTarget (.name "²") = .error (.numeral .malformed "²") ∧
    ¬ squared.Resolves (.name "²") (squared.jumpTarget (.name "²")) ∧
    View.record? ⟨[], 0⟩ (.name "²") = .error (.numeral .malformed "²") ∧
    ¬ View.Finds ⟨[], 0⟩ (.name "²") (View.record? ⟨[], 0⟩ (.name "²")) := by
  have hjump : squared.jumpTarget (.name "²") = .error (.numeral .malformed "²") := rfl
  have hrecord : View.record? ⟨[], 0⟩ (.name "²") = .error (.numeral .malformed "²") := rfl
  refine ⟨rfl, hjump, fun h => ?_, hrecord, fun h => ?_⟩
  · rw [hjump] at h
    cases h
  · rw [hrecord] at h
    cases h

end Board

end Boardwalk
