import Boardwalk.Proofs.Board.Jump
import Boardwalk.Proofs.Board.Lookup
import Boardwalk.Proofs.Board.Restart
/-!
# The previous record that code sees

The previous record of a view is found by its place in the journal. As long as no step of the run led back, the place of
a record is the position of its frame. A step that leads back adds a record and lowers the cursor, so from then on the
places are ahead of the frames (`Drifts`), and the code of a frame behind the one that led back is not shown the latest
record of the frame before it, but one of an earlier frame (`previous_iff`).
-/

namespace Boardwalk

variable {σ : Type}

/-- The cursor of a step that led back, or to itself, if a board at this depth took it. -/
def Moment.back? (depth : Nat) (m : Moment σ) : Option Int := if m.isBack then m.stepped? depth else none

def Moment.asked? (m : Moment σ) : Option (Nat × Role) :=
  match m.event with
  | .evaluated position role _ => some (position, role)
  | _ => none

namespace Board

/-! ## The first step back -/

def firstBack? (depth : Nat) (ms : List (Moment σ)) : Option Int := ms.reverse.findSome? (Moment.back? depth)

theorem firstBack?_append (depth : Nat) (ms' ms : List (Moment σ)) :
    firstBack? depth (ms' ++ ms) = (firstBack? depth ms).or (firstBack? depth ms') := by
  unfold firstBack?
  rw [List.reverse_append, List.findSome?_append]

theorem firstBack?_idle {depth : Nat} {ms : List (Moment σ)} (h : ∀ m ∈ ms, m.stepped? depth = none) :
    firstBack? depth ms = none := by
  refine List.findSome?_eq_none_iff.mpr fun m hm => ?_
  unfold Moment.back?
  rw [h m (List.mem_reverse.mp hm), ite_self]

theorem firstBack?_next (ls : List (Level σ)) (c c' : Int) (w : World σ) (ms : List (Moment σ)) :
    firstBack? ls.length (⟨ls, .turned c (.next c'), w⟩ :: ms) =
      (firstBack? ls.length ms).or (if c' ≤ c then some c else none) := by
  rw [← List.singleton_append, firstBack?_append]
  simp [firstBack?, Moment.back?, Moment.isBack, Moment.stepped?, Moment.read?]

/-! ## Records and frames -/

section

variable {b : Board σ} {x : Value} {t rs : Timeline} {es : List Event} {n : Nat}

def IsOf (b : Board σ) (i : Nat) (r : Record) : Prop :=
  ∃ f, b.frames[i]? = some f ∧ r.name = f.nameAt i ∧ r.frameIndex = .int i

theorem isOf_entry {s : Spot σ} (hs : b.spot? n = some s) (t : Timeline) (kind : String) (output : Value)
    (completed : Bool) : b.IsOf n (t.entry s.name kind s.position output completed) := by
  obtain ⟨rfl, hframe⟩ := spot?_natCast hs
  exact ⟨s.frame, hframe, rfl, rfl⟩

/-- A step from a frame on journals the frames up to where it goes on, and its own one in any case. -/
structure Covers (b : Board σ) (n k : Nat) (rs : Timeline) : Prop where
  length : rs.length = max 1 (k - n)
  frames : ∀ i r, rs[i]? = some r → b.IsOf (n + i) r

theorem covers_one {r : Record} (h : b.IsOf n r) : b.Covers n (n + 1) [r] := by
  refine ⟨by simp, fun i r' hr' => ?_⟩
  cases i with
  | zero =>
    cases hr'
    exact h
  | succ i => cases hr'

theorem JumpRecords.covers {target : Target} {condition : Option (Condition σ)} {k : Nat}
    (hf : b.frames[n]? = some (.jump target condition)) (hk : k < b.frames.length) (h : b.JumpRecords n k t rs) :
    b.Covers n k rs := by
  refine ⟨h.length, fun i r hr => ?_⟩
  cases i with
  | zero =>
    cases h.own.symm.trans hr
    exact ⟨_, hf, rfl, rfl⟩
  | succ i =>
    have hlt := (List.getElem?_eq_some_iff.mp hr).1
    rw [h.length] at hlt
    have hframe : b.frames[n + (i + 1)]? = some b.frames[n + (i + 1)] := List.getElem?_eq_getElem (by omega)
    have hgap := h.gaps (n + (i + 1)) _ (by omega) (by omega) hframe
    rw [Nat.add_sub_cancel_left] at hgap
    cases hgap.symm.trans hr
    exact ⟨_, hframe, rfl, rfl⟩

theorem skipped_covers {s : Spot σ} {target : Target} {condition : Option (Condition σ)} {k : Nat}
    (hs : b.spot? n = some s) (hf : s.frame = .jump target condition) (hk : b.jumpTarget target = .ok k)
    (t : Timeline) :
    ∃ gaps, b.skipped (t ++ [t.entry s.name s.kind s.position (.int n) true]) (between n k) =
        t ++ t.entry s.name s.kind s.position (.int n) true :: gaps ∧
      b.Covers n k (t.entry s.name s.kind s.position (.int n) true :: gaps) := by
  obtain ⟨hposition, hframe⟩ := spot?_natCast hs
  rw [hf] at hframe
  obtain ⟨cursor, position, frame⟩ := s
  dsimp only at hposition hf
  subst hposition hf
  have hrecords := jumpRecords_skipped b position k t
  refine ⟨_, ?_, hrecords.covers hframe (jumpTarget_lt hk)⟩
  rw [skipped_eq, List.length_append, List.length_singleton, List.append_assoc, List.singleton_append]

theorem Tells.covers {c' : Int} (h : Tells b x t n es rs (.next c')) : ∃ k : Nat, c' = k ∧ b.Covers n k rs := by
  generalize hturn : Turn.next c' = turn at h
  cases h with
  | skip hs =>
    cases hturn
    exact ⟨n + 1, rfl, covers_one (isOf_entry hs ..)⟩
  | work hs =>
    cases hturn
    exact ⟨n + 1, rfl, covers_one (isOf_entry hs ..)⟩
  | stop hs =>
    split at hturn
    · cases hturn
    · cases hturn
      exact ⟨n + 1, rfl, covers_one (isOf_entry hs ..)⟩
  | @jump s target condition es k gaps hs hf hd hk hskip =>
    cases hturn
    obtain ⟨gaps', hskip', hcovers⟩ := skipped_covers hs hf hk t
    rw [hskip', List.append_cons] at hskip
    cases List.append_cancel_left hskip
    exact ⟨k, rfl, hcovers⟩
  | _ => cases hturn

/-- What holds of the journal at a cursor, if no record was loaded. Each record is that of a frame, and up to the first
step that led back its place is the position of the frame; behind it the place is ahead. -/
structure Drifts (b : Board σ) (first : Option Int) (t : Timeline) (n : Nat) : Prop where
  behind : n ≤ t.length
  level : n = t.length ↔ first = none
  turned : ∀ j ∈ first, j < t.length
  placed : ∀ p r, t[p]? = some r → ∃ q, b.IsOf q r ∧ q ≤ p ∧ (q = p ↔ ∀ j ∈ first, (p : Int) ≤ j)
  covered : ∀ d < n, ∃ r ∈ t, r.frameIndex = .int (d : Nat)

theorem drifts_nil (b : Board σ) : b.Drifts none [] 0 :=
  ⟨Nat.le_refl 0, ⟨fun _ => rfl, fun _ => rfl⟩, nofun, nofun, nofun⟩

theorem Drifts.append {first first' : Option Int} {k : Nat} (h : b.Drifts first t n) (hp : b.Covers n k rs)
    (hlevel : k = t.length + rs.length ↔ first' = none) (hturned : ∀ j ∈ first', j < t.length + rs.length)
    (hold : ∀ p < t.length, (∀ j ∈ first, (p : Int) ≤ j) ↔ ∀ j ∈ first', (p : Int) ≤ j)
    (hnew : ∀ i < rs.length, n = t.length ↔ ∀ j ∈ first', ((t.length + i : Nat) : Int) ≤ j) :
    b.Drifts first' (t ++ rs) k := by
  have hbehind := h.behind
  have hlength := hp.length
  refine ⟨?_, ?_, fun j hj => ?_, fun p r hr => ?_, fun d hd => ?_⟩
  · rw [List.length_append]
    omega
  · rw [List.length_append]
    exact hlevel
  · rw [List.length_append]
    exact_mod_cast hturned j hj
  · by_cases hlt : p < t.length
    · rw [List.getElem?_append_left hlt] at hr
      obtain ⟨q, hq, hle, hplace⟩ := h.placed p r hr
      exact ⟨q, hq, hle, hplace.trans (hold p hlt)⟩
    · obtain ⟨i, rfl⟩ : ∃ i, p = t.length + i := ⟨p - t.length, by omega⟩
      rw [List.getElem?_append_right (by omega), Nat.add_sub_cancel_left] at hr
      refine ⟨n + i, hp.frames i r hr, by omega, ?_⟩
      rw [Nat.add_right_cancel_iff]
      exact hnew i (List.getElem?_eq_some_iff.mp hr).1
  · by_cases hlt : d < n
    · obtain ⟨r, hr, hframe⟩ := h.covered d hlt
      exact ⟨r, List.mem_append_left _ hr, hframe⟩
    · have hin : d - n < rs.length := by omega
      obtain ⟨f, -, -, hframe⟩ := hp.frames (d - n) _ (List.getElem?_eq_getElem hin)
      rw [show n + (d - n) = d by omega] at hframe
      exact ⟨_, List.mem_append_right _ (List.getElem_mem hin), hframe⟩

/-- **The first step that leads back puts the places ahead of the frames**, and no other one brings them back in step. -/
theorem Drifts.next {first : Option Int} {k : Nat} (h : b.Drifts first t n) (hp : b.Covers n k rs) :
    b.Drifts (first.or (if (k : Int) ≤ n then some (n : Int) else none)) (t ++ rs) k := by
  have hbehind := h.behind
  have hlevel := h.level
  have hlength := hp.length
  cases first with
  | some j =>
    -- a step led back before, and none brings the places and the positions together again
    have hturned := h.turned j rfl
    have hne : n ≠ t.length := fun hn => nomatch hlevel.mp hn
    rw [Option.some_or]
    refine h.append hp ?_ ?_ (fun _ _ => Iff.rfl) fun i hi => ?_
    · simp only [reduceCtorEq, iff_false]
      omega
    · simp only [Option.mem_some_iff, forall_eq']
      omega
    · simp only [Option.mem_some_iff, forall_eq']
      omega
  | none =>
    have hn : n = t.length := hlevel.mpr rfl
    rw [Option.none_or]
    by_cases hle : (k : Int) ≤ n
    · -- only the record of the jump is new, and its place is still its position
      rw [if_pos hle]
      refine h.append hp ?_ ?_ (fun p hp => ?_) fun i hi => ?_
      · simp only [reduceCtorEq, iff_false]
        omega
      · simp only [Option.mem_some_iff, forall_eq']
        omega
      · simp only [Option.mem_some_iff, forall_eq', Option.not_mem_none, false_implies, implies_true, true_iff]
        omega
      · simp only [Option.mem_some_iff, forall_eq']
        omega
    · rw [if_neg hle]
      refine h.append hp ?_ nofun (fun _ _ => Iff.rfl) fun i hi => ?_
      · simp only [iff_true]
        omega
      · simpa using hn

/-! ## What the view finds -/

theorem IsOf.named_iff {i : Nat} {r : Record} (h : b.IsOf i r) (q : Int) : r.IsNamedBy (.position q) ↔ (i : Int) = q := by
  obtain ⟨f, -, -, hframe⟩ := h
  simp [Record.IsNamedBy, Target.meant, hframe, Value.wholeNumber?]

theorem IsOf.name_iff {i j : Nat} {r r' : Record} (hnames : b.names.Nodup) (h : b.IsOf i r) (h' : b.IsOf j r') :
    r.name = r'.name ↔ i = j := by
  obtain ⟨f, hf, hname, -⟩ := h
  obtain ⟨f', hf', hname', -⟩ := h'
  have hi : b.names[i]? = some r.name := by rw [names_getElem?, hf, hname, Option.map_some]
  have hj : b.names[j]? = some r'.name := by rw [names_getElem?, hf', hname', Option.map_some]
  rw [← List.getElem?_inj (List.getElem?_eq_some_iff.mp hi).1 hnames, hi, hj, Option.some.injEq]

/-- The previous record is the latest one of the frame whose record has the place before the cursor. -/
theorem Drifts.previous_finds {first : Option Int} (h : b.Drifts first t n) (hnames : b.names.Nodup) (hn : 1 ≤ n)
    {q : Nat} {r : Record} (hr : t[n - 1]? = some r) (hq : b.IsOf q r) :
    View.Finds ⟨t, n⟩ (.position q) (.ok (some (View.previous ⟨t, n⟩))) := by
  have hprevious : View.previous ⟨t, n⟩ = ((View.mk t n).latest? fun s => s.name == r.name).getD r := by
    unfold View.previous
    dsimp only
    rw [if_pos (by omega), show ((n : Int) - 1).toNat = n - 1 by omega, hr]
  -- among these records the name stands for the position
  have hbyName : ∀ s ∈ t, (s.name == r.name) = true ↔ s.IsNamedBy (.position q) := by
    intro s hs
    obtain ⟨p, hp⟩ := List.getElem?_of_mem hs
    obtain ⟨q', hq', -⟩ := h.placed p s hp
    rw [hq'.named_iff, beq_iff_eq, hq'.name_iff hnames hq, Int.natCast_inj]
  have hfinds := View.latest?_finds (v := ⟨t, n⟩) hbyName
  rw [hprevious]
  cases hs : (View.mk t n).latest? fun s => s.name == r.name with
  | some s =>
    rw [hs] at hfinds
    exact hfinds
  | none =>
    have hmem := List.mem_reverse.mpr (List.mem_of_getElem? hr)
    exact absurd (beq_self_eq_true r.name) (List.find?_eq_none.mp hs r hmem)

theorem Drifts.previous {first : Option Int} (h : b.Drifts first t n) (hnames : b.names.Nodup) (hn : 1 ≤ n) :
    ∃ q r, t[n - 1]?.map Record.frameIndex = some (.int (q : Nat)) ∧ q ≤ n - 1 ∧
      View.Finds ⟨t, n⟩ (.position q) (.ok (some (View.previous ⟨t, n⟩))) ∧
      View.Finds ⟨t, n⟩ (.position (n - 1)) (.ok (some r)) ∧
      (View.previous ⟨t, n⟩ = r ↔ ∀ j ∈ first, (n : Int) - 1 ≤ j) := by
  have hbehind := h.behind
  have hplace : t[n - 1]? = some t[n - 1] := List.getElem?_eq_getElem (by omega)
  obtain ⟨q, hq, hle, hlevel⟩ := h.placed (n - 1) _ hplace
  have hprevious := h.previous_finds hnames hn hplace hq
  have hcast : ((n - 1 : Nat) : Int) = n - 1 := by omega
  obtain ⟨r₁, hr₁, hframe₁⟩ := h.covered (n - 1) (by omega)
  obtain ⟨r, hr⟩ : ∃ r, View.Finds ⟨t, n⟩ (.position (n - 1)) (.ok (some r)) := by
    refine View.exists_finds hr₁ trivial ?_
    show r₁.frameIndex.wholeNumber? = some ((n : Int) - 1)
    rw [hframe₁, ← hcast]
    rfl
  refine ⟨q, r, ?_, hle, hprevious, hr, ?_⟩
  · obtain ⟨f, -, -, hframe⟩ := hq
    rw [hplace, Option.map_some, hframe]
  · rw [← hcast, ← hlevel]
    constructor
    · intro heq
      have hnamed : (View.previous ⟨t, n⟩).frameIndex.wholeNumber? = some (q : Int) := hprevious.named
      have hnamed' : r.frameIndex.wholeNumber? = some ((n : Int) - 1) := hr.named
      rw [heq, hnamed', Option.some.injEq] at hnamed
      omega
    · rintro rfl
      rw [hcast] at hprevious
      exact Option.some.inj (hprevious.unique hr)

end

/-! ## What code is handed -/

/-- Code of the frame at a position that is called with a view, for a role. -/
inductive Asked (b : Board σ) (v : View) (i : Nat) : Role → Code σ Value → Prop where
  | condition {f : Frame σ} {c : Condition σ} : b.frames[i]? = some f → f.condition? = some c →
      Asked b v i .condition (c v)
  | provider {f : Frame σ} {p : Provider σ} (x : Value) : b.frames[i]? = some f → f.provider? = some p →
      Asked b v i .provider (p v x)
  | predicate {given : Option String} {c : Condition σ} : b.frames[i]? = some (.stop given c) →
      Asked b v i .predicate (c v)
  | action {kind : WorkKind} {name : String} {condition : Option (Condition σ)} {provider : Option (Provider σ)}
      {act : Action σ} (x : Value) : b.frames[i]? = some (.work kind name condition provider act) →
      Asked b v i .action (act x)

/-- If code of the board on a level answers at this moment, it was called with this view, which shows the journal. -/
def Hears (b : Board σ) (a : Address) (depth : Nat) (v : View) (m : Moment σ) : Prop :=
  m.levels.length = depth → ∀ i role answer, m.event = .evaluated i role answer →
    m.world.journal a = v.records ∧ v.current = i ∧ ∃ code, b.Asked v i role code ∧ (code m.world).1 = answer

section

variable {b : Board σ} {ls : List (Level σ)} {a : Address} {v : View} {g g' g'' : Stage σ}

/-- From the first stage to the second one code is only called with this view, and the journal is still what it shows. -/
structure Shows (b : Board σ) (ls : List (Level σ)) (a : Address) (v : View) (g g' : Stage σ) : Prop where
  traces : Traces (b.Hears a ls.length v) g g'
  journal : g'.world.journal a = v.records

theorem Shows.refl (hj : g.world.journal a = v.records) : Shows b ls a v g g := ⟨.of_trace rfl, hj⟩

variable (ls) in
theorem shows_call {i : Nat} {role : Role} {code : Code σ Value} (hj : g.world.journal a = v.records)
    (hi : v.current = i) (hcode : b.Asked v i role code) : Shows b ls a v g (g.call ls i role code).2 := by
  refine ⟨.one rfl fun _ i' role' answer he => ?_, hj⟩
  cases he
  exact ⟨hj, hi, code, hcode, rfl⟩

variable (ls) in
theorem shows_taken {s : Spot σ} (hs : b.frames[s.position]? = some s.frame) (hj : g.world.journal a = v.records)
    (hi : v.current = s.position) : Shows b ls a v g (taken ls s v g).2 := by
  unfold taken
  cases hc : s.frame.condition? with
  | none => exact .refl hj
  | some c => exact shows_call ls hj hi (.condition hs hc)

variable (ls) in
theorem shows_contextOf {s : Spot σ} (hs : b.frames[s.position]? = some s.frame)
    (hj : g.world.journal a = v.records) (hi : v.current = s.position) (x : Value) :
    Shows b ls a v g (contextOf ls s.position s.frame.provider? v x g).2 := by
  unfold contextOf
  cases hp : s.frame.provider? with
  | none => exact .refl hj
  | some p => exact shows_call ls hj hi (.provider x hs hp)

theorem traces_persist (ls : List (Level σ)) (g : Stage σ) :
    Traces (b.Hears a ls.length v) g (b.persist ls a g) := by
  unfold persist
  split
  · exact .one rfl fun _ _ _ _ he => nomatch he
  · exact .one rfl fun _ _ _ _ he => nomatch he

theorem traces_entering (ls : List (Level σ)) (s : Spot σ) (g : Stage σ) :
    Traces (b.Hears a ls.length v) g (b.entering ls a s g) := by
  unfold entering
  generalize add a s.name s.kind s.position (.dict []) false g.world = w
  have hpersist : Traces (b.Hears a ls.length v) g (b.persist ls a (g.withWorld w)) :=
    .trans (.of_trace rfl) (traces_persist ls (g.withWorld w))
  exact hpersist.trans (.one rfl fun _ _ _ _ he => nomatch he)

theorem traces_complete (s : Spot σ) (kind : String) (output : Value) (g : Stage σ) :
    Traces (b.Hears a ls.length v) g (b.complete ls a s kind output g) :=
  .trans (.of_trace rfl) (traces_persist ls (g.withWorld _))

theorem traces_conclude (output : Json) (g : Stage σ) :
    Traces (b.Hears a ls.length v) g (b.conclude ls a output g).2 := by
  unfold conclude
  split
  · exact .of_trace rfl
  · dsimp only
    split
    · exact .of_trace rfl
    · exact .trans (.of_trace rfl) (traces_persist ls (g.withWorld _))

theorem traces_work {s : Spot σ} {kind : WorkKind} {name : String} {condition : Option (Condition σ)}
    {provider : Option (Provider σ)} {action : Action σ} (hs : b.frames[s.position]? = some s.frame)
    (hf : s.frame = .work kind name condition provider action) (hj : g.world.journal a = v.records)
    (hi : v.current = s.position) (x : Value) :
    Traces (b.Hears a ls.length v) g (b.work ls a s provider action v x g).2 := by
  have hc := shows_contextOf ls hs hj hi x
  rw [show s.frame.provider? = provider by simp [hf, Frame.provider?]] at hc
  unfold work
  cases hx : contextOf ls s.position provider v x g with
  | mk answer g₁ =>
    rw [hx] at hc
    cases answer with
    | error f => exact hc.traces
    | ok x' =>
      have hcall := shows_call ls hc.journal hi (.action x' (hs.trans (congrArg some hf)))
      dsimp only
      cases hy : g₁.call ls s.position .action (action x') with
      | mk answer g₂ =>
        rw [hy] at hcall
        cases answer with
        | error f => exact hc.traces.trans hcall.traces
        | ok y => exact (hc.traces.trans hcall.traces).trans (traces_complete s _ _ _)

theorem traces_stop {s : Spot σ} {given : Option String} {condition : Condition σ}
    (hs : b.frames[s.position]? = some s.frame) (hf : s.frame = .stop given condition)
    (hj : g.world.journal a = v.records) (hi : v.current = s.position) :
    Traces (b.Hears a ls.length v) g (b.stop ls a s condition v g).2 := by
  have hcall := shows_call ls hj hi (.predicate (hs.trans (congrArg some hf)))
  unfold stop holds
  cases hy : g.call ls s.position .predicate (condition v) with
  | mk answer g₁ =>
    rw [hy] at hcall
    cases answer with
    | error f => exact hcall.traces
    | ok y =>
      have hdone := hcall.traces.trans (traces_complete (b := b) s s.kind (.bool y.truth) g₁)
      simp only [Except.map]
      split
      · exact hdone.trans (.of_trace rfl)
      · exact hdone

theorem traces_jump (s : Spot σ) (target : Target) (g : Stage σ) :
    Traces (b.Hears a ls.length v) g (b.jump ls a s target g).2 := by
  unfold jump
  dsimp only
  split
  · exact .of_trace rfl
  · generalize List.foldl (b.addSkipped a) _ _ = w
    have hpersist : Traces (b.Hears a ls.length v) g (b.persist ls a (g.withWorld w)) :=
      .trans (.of_trace rfl) (traces_persist ls (g.withWorld w))
    exact hpersist.trans (.of_trace rfl)

theorem Below.traces {depth : Nat} (h : Below depth a g g') : Traces (b.Hears a depth v) g g' := by
  obtain ⟨ms, ht, hms, -⟩ := h
  exact ⟨ms, ht, fun m hm hdepth => absurd hdepth (Nat.ne_of_gt (hms m hm).1)⟩

theorem traces_story {s : Spot σ} {c : Board σ} {condition : Option (Condition σ)} {provider : Option (Provider σ)}
    (hs : b.frames[s.position]? = some s.frame) (hf : s.frame = .story c condition provider)
    (hj : g.world.journal a = v.records) (hi : v.current = s.position) (limit : Nat) (x : Value) :
    Traces (b.Hears a ls.length v) g
      (b.story ls a s (enterBoard limit (a ++ [s.position]) c) provider v x g).2 := by
  have hc := shows_contextOf ls hs hj hi x
  rw [show s.frame.provider? = provider by simp [hf, Frame.provider?]] at hc
  rw [story_eq]
  cases hx : contextOf ls s.position provider v x g with
  | mk answer g₁ =>
    rw [hx] at hc
    cases answer with
    | error f => exact hc.traces
    | ok x' =>
      have hbelow := enterBoard_below limit c (address_apart a s.position) ls x' (b.entering ls a s g₁)
      have hrun := (hc.traces.trans (traces_entering ls s g₁)).trans hbelow.traces
      dsimp only
      cases hr : enterBoard limit (a ++ [s.position]) c ls x' (b.entering ls a s g₁) with
      | mk ending g₂ =>
        rw [hr] at hrun
        unfold receive
        cases ending with
        | raised f => exact hrun
        | unfinished => exact hrun
        | failure f => exact hrun
        | success o =>
          dsimp only
          split
          · exact hrun
          · exact hrun.trans (traces_conclude _ _)

/-- **The code of a step is called with the journal that the step finds**, and with its cursor. -/
theorem turn_hears (hj : g.world.journal a = v.records) {n : Nat} (hn : v.current = n) (limit : Nat) (x : Value) :
    Traces (b.Hears a ls.length v) g (b.turn (enterFrames limit a 0 b.frames) ls a x n g).2 := by
  unfold turn
  cases hspot : b.spot? n with
  | none => exact .of_trace rfl
  | some s =>
    obtain ⟨hposition, hs⟩ := spot?_natCast hspot
    rw [← hposition] at hs hn
    have hview : (⟨g.world.journal a, n⟩ : View) = v := by
      rw [hj, ← hposition, ← hn]
    have ht := shows_taken ls hs hj hn
    dsimp only
    rw [hview]
    cases hy : taken ls s v g with
    | mk answer g₁ =>
      rw [hy] at ht
      cases answer with
      | error f => exact ht.traces
      | ok yes =>
        cases yes with
        | false => exact ht.traces.trans (.trans (.of_trace rfl) (traces_complete s emptyKind (.dict []) _))
        | true =>
          cases hf : s.frame with
          | work kind name condition provider action => exact ht.traces.trans (traces_work hs hf ht.journal hn x)
          | stop given condition => exact ht.traces.trans (traces_stop hs hf ht.journal hn)
          | jump target condition => exact ht.traces.trans (traces_jump s target g₁)
          | story c condition provider =>
            simp only [enterFrames_story (hs.trans (congrArg some hf))]
            exact ht.traces.trans (traces_story hs hf ht.journal hn limit x)

end

/-! ## Walks -/

/-- If code of the board on a level answers at a moment, it was called with a view at its frame, and the journal stands
to the frames as the moments before it tell. -/
def Recalls (b : Board σ) (a : Address) (depth : Nat) (m : Moment σ) (before : List (Moment σ)) : Prop :=
  m.levels.length = depth → ∀ i role answer, m.event = .evaluated i role answer →
    (∃ code, b.Asked ⟨m.world.journal a, i⟩ i role code ∧ (code m.world).1 = answer) ∧
      b.Drifts (firstBack? depth before) (m.world.journal a) i

def RecallsAll (b : Board σ) (a : Address) (depth : Nat) (ms : List (Moment σ)) : Prop :=
  ∀ ms₁ m ms₂, ms = ms₁ ++ m :: ms₂ → b.Recalls a depth m ms₂

section

variable {b : Board σ} {a : Address} {depth : Nat} {ms ms' : List (Moment σ)}

theorem RecallsAll.cons {m : Moment σ} (h : b.RecallsAll a depth ms)
    (hm : ∀ i role answer, m.event ≠ .evaluated i role answer) : b.RecallsAll a depth (m :: ms) := by
  intro ms₁ m' ms₂ hsplit
  cases ms₁ with
  | nil =>
    cases hsplit
    exact fun _ i role answer he => absurd he (hm i role answer)
  | cons m₁ ms₁ =>
    cases hsplit
    exact h ms₁ m' ms₂ rfl

theorem RecallsAll.append {t : Timeline} {n : Nat} (h : b.RecallsAll a depth ms)
    (hd : b.Drifts (firstBack? depth ms) t n)
    (hms' : ∀ m ∈ ms', m.stepped? depth = none ∧ b.Hears a depth ⟨t, n⟩ m) : b.RecallsAll a depth (ms' ++ ms) := by
  induction ms' with
  | nil => exact h
  | cons m ms' ih =>
    have hrest := ih fun m' hm' => hms' m' (List.mem_cons_of_mem m hm')
    intro ms₁ m' ms₂ hsplit
    cases ms₁ with
    | cons m₁ ms₁ =>
      rw [List.cons_append, List.cons_append] at hsplit
      exact hrest ms₁ m' ms₂ (List.cons.inj hsplit).2
    | nil =>
      rw [List.cons_append, List.nil_append] at hsplit
      obtain ⟨rfl, rfl⟩ := List.cons.inj hsplit
      intro hdepth i role answer he
      obtain ⟨hjournal, hcurrent, code, hcode, hanswer⟩ := (hms' m List.mem_cons_self).2 hdepth i role answer he
      dsimp only at hjournal hcurrent hcode
      obtain rfl := Int.natCast_inj.mp hcurrent
      -- no step was over since this one set in
      have hidle := firstBack?_idle fun m' hm' => (hms' m' (List.mem_cons_of_mem m hm')).1
      rw [hjournal, firstBack?_append, hidle, Option.or_none]
      exact ⟨⟨code, hcode, hanswer⟩, hd⟩

end

/-- Between two steps of a walk over a journal that was empty at first. -/
structure Remembers (b : Board σ) (depth : Nat) (a : Address) (g₀ : Stage σ) (ms : List (Moment σ)) (m : Model) (n : Nat)
    (g : Stage σ) : Prop where
  trace : g.trace = ms ++ g₀.trace
  model : g.world.model? a = some m
  drifts : b.Drifts (firstBack? depth ms) m.timeline n
  recalls : b.RecallsAll a depth ms

section

variable {b : Board σ} {ls : List (Level σ)} {a : Address} {g₀ g : Stage σ} {ms : List (Moment σ)} {m : Model} {n : Nat}

theorem Remembers.turn (h : Remembers b ls.length a g₀ ms m n g) (limit : Nat) (x : Value) :
    ∃ ms' es rs, (b.turn (enterFrames limit a 0 b.frames) ls a x n g).2.trace = ms' ++ ms ++ g₀.trace ∧
      (b.turn (enterFrames limit a 0 b.frames) ls a x n g).2.world.model? a = some ⟨m.board, m.timeline ++ rs⟩ ∧
      Tells b x m.timeline n es rs (b.turn (enterFrames limit a 0 b.frames) ls a x n g).1 ∧
      firstBack? ls.length (ms' ++ ms) = firstBack? ls.length ms ∧ b.RecallsAll a ls.length (ms' ++ ms) := by
  obtain ⟨ms₁, rs, hdoes⟩ : ∃ ms rs, Does b ls a 0 x n m g ms rs _ _ :=
    turn_does h.model (Nat.zero_le _) limit x n
  have hhears := @turn_hears σ b ls a ⟨m.timeline, n⟩ g (journal_of_model h.model) n rfl limit x
  obtain ⟨ms', ht, hms'⟩ := (turn_idle b limit ls a x n g).and hhears
  refine ⟨ms', _, rs, ?_, hdoes.model, hdoes.tells, ?_, h.recalls.append h.drifts hms'⟩
  · rw [ht, h.trace, List.append_assoc]
  · rw [firstBack?_append, firstBack?_idle fun m' hm' => (hms' m' hm').1, Option.or_none]

theorem Remembers.next {limit : Nat} {x : Value} {c' : Int} {g' : Stage σ} (h : Remembers b ls.length a g₀ ms m n g)
    (hturn : b.turn (enterFrames limit a 0 b.frames) ls a x n g = (.next c', g')) :
    ∃ ms' m' k, c' = (k : Nat) ∧
      Remembers b ls.length a g₀ ms' m' k (g'.record ⟨ls, .turned n (.next c'), g.world⟩) := by
  obtain ⟨ms', es, rs, htrace, hm, htells, hfirst, hrecalls⟩ := h.turn limit x
  rw [hturn] at htrace hm htells
  obtain ⟨k, rfl, hcovers⟩ := htells.covers
  refine ⟨⟨ls, .turned n (.next k), g.world⟩ :: (ms' ++ ms), _, k, rfl, ?_, hm, ?_, ?_⟩
  · rw [Stage.record_trace, htrace, List.cons_append]
  · rw [firstBack?_next, hfirst]
    exact h.drifts.next hcovers
  · exact hrecalls.cons fun _ _ _ he => nomatch he

variable (ls) in
theorem steps_remember {limit k : Nat} {x : Value} {halt : Halt} {g' : Stage σ}
    (h : Remembers b ls.length a g₀ ms m n g)
    (hsteps : b.steps (enterFrames limit a 0 b.frames) ls a x k n g = (halt, g')) :
    ∃ ms', g'.trace = ms' ++ g₀.trace ∧ b.RecallsAll a ls.length ms' := by
  have hlast := steps_ends
    (P := fun _ cursor g => ∃ ms m n, cursor = (n : Nat) ∧ Remembers b ls.length a g₀ ms m n g)
    (extends_closed.enterFrames fun p d _ => extends_closedAt d (a ++ p)) ?_ k ⟨ms, m, n, rfl, h⟩ hsteps
  · obtain ⟨_, _, g₁, ⟨ms₁, m₁, n₁, rfl, h₁⟩, hends⟩ := hlast
    cases hends with
    | past => exact ⟨ms₁, h₁.trace, h₁.recalls⟩
    | limit => exact ⟨ms₁, h₁.trace, h₁.recalls⟩
    | halt _ hturn =>
      obtain ⟨ms', _, _, htrace, -, -, -, hrecalls⟩ := h₁.turn limit x
      rw [hturn] at htrace
      refine ⟨⟨ls, .turned n₁ (.halt halt), g₁.world⟩ :: (ms' ++ ms₁), ?_, hrecalls.cons fun _ _ _ he => nomatch he⟩
      rw [Stage.record_trace, htrace, List.cons_append]
  · rintro - cursor c' g₁ g₂ ⟨ms₁, m₁, n₁, rfl, h₁⟩ - hturn -
    exact h₁.next hturn

end

/-! ## Runs -/

theorem loaded_nothing {b : Board σ} {w : World σ} (h : (b.session.readFile w).1 = .ok none) (a : Address) :
    b.loaded a w = [] := by
  unfold loaded Session.load Session.storedModel
  cases hr : b.session.readFile w with
  | mk answer w' =>
    rw [hr] at h
    dsimp only at h
    subst h
    exact journal_of_model (World.model?_remember_self _ _ _)

theorem RecallsAll.close {b : Board σ} {ls : List (Level σ)} {a : Address} {depth : Nat} {ms : List (Moment σ)}
    {g₀ g : Stage σ} (h : b.RecallsAll a depth ms) (htrace : g.trace = ms ++ g₀.trace) (halt : Halt) :
    ∃ ms', (b.close ls a (halt, g)).2.trace = ms' ++ g₀.trace ∧ b.RecallsAll a depth ms' := by
  have hcloses := @close_closes σ b ls a halt g
  generalize b.close ls a (halt, g) = result at hcloses ⊢
  cases hcloses with
  | raised f => exact ⟨ms, htrace, h⟩
  | unfinished => exact ⟨ms, htrace, h⟩
  | ended => exact ⟨_ :: ms, congrArg (List.cons _) htrace, h.cons fun _ _ _ he => nomatch he⟩

theorem run_recalls {b : Board σ} {a : Address} {g : Stage σ} (hnone : b.loaded a g.world = []) (limit : Nat)
    (above : List (Level σ)) (x : Value) : ∃ ms, (enterBoard limit a b above x g).2.trace = ms ++ g.trace ∧
      b.RecallsAll a (above.length + 1) ms := by
  have hnil : b.RecallsAll a (above.length + 1) [] := fun ms₁ m ms₂ hsplit => by simp at hsplit
  unfold loaded at hnone
  rw [enterBoard_eq]
  rcases runWith_cases b (enterFrames limit a 0 b.frames) limit a above x g with
    ⟨f, w, -, hr⟩ | ⟨f, w, -, -, hr⟩ | ⟨answer, w, hload, hr⟩
  · -- a board that does not start asks for nothing
    rw [hr]
    exact ⟨[], rfl, hnil⟩
  · rw [hr]
    exact ⟨[], rfl, hnil⟩
  · rw [hload] at hnone
    dsimp only at hnone
    obtain ⟨m, hm⟩ := Session.load_model hload
    have htimeline : m.timeline = [] := (journal_of_model hm).symm.trans hnone
    rw [hr, walk_eq, Stage.withWorld_world, hnone]
    have hstart : Remembers b (above.length + 1) a g [⟨⟨b, a, w⟩ :: above, .started (w.journal a).cursor, w⟩] m 0
        (b.opened (⟨b, a, w⟩ :: above) a (g.withWorld w)) := by
      refine ⟨rfl, hm, ?_, hnil.cons fun _ _ _ he => nomatch he⟩
      rw [htimeline]
      exact drifts_nil b
    cases hsteps : b.steps (enterFrames limit a 0 b.frames) (⟨b, a, w⟩ :: above) a (givenContext x) limit
        (Timeline.cursor []) (b.opened (⟨b, a, w⟩ :: above) a (g.withWorld w)) with
    | mk halt g' =>
      obtain ⟨ms, htrace, hrecalls⟩ := steps_remember (⟨b, a, w⟩ :: above) hstart hsteps
      exact hrecalls.close htrace halt

/-- **The previous record that code sees is the latest one of the frame before its own**, just if no step of the run led
back so far, or the first one that did was that of the frame before or of a later one. In any case it is the latest
record of the frame whose record has the place before the cursor, which may be an earlier one. -/
theorem previous_iff {b : Board σ} (hnames : b.names.Nodup) (limit : Nat) (a : Address) (above : List (Level σ))
    (x : Value) (g : Stage σ) (hnone : b.loaded a g.world = []) :
    ∃ ms, (enterBoard limit a b above x g).2.trace = ms ++ g.trace ∧
      ∀ ms₁ m ms₂, ms = ms₁ ++ m :: ms₂ → m.levels.length = above.length + 1 →
        ∀ (i : Nat) role answer, m.event = .evaluated i role answer →
          ∃ v : View, v.records = m.world.journal a ∧ v.current = i ∧
            (∃ code, b.Asked v i role code ∧ (code m.world).1 = answer) ∧
            (1 ≤ i → ∃ q r, v.records[i - 1]?.map Record.frameIndex = some (.int (q : Nat)) ∧ q ≤ i - 1 ∧
              v.Finds (.position q) (.ok (some v.previous)) ∧ v.Finds (.position (i - 1)) (.ok (some r)) ∧
              (v.previous = r ↔ ∀ j ∈ firstBack? (above.length + 1) ms₂, (i : Int) - 1 ≤ j)) := by
  obtain ⟨ms, htrace, hrecalls⟩ := run_recalls hnone limit above x
  refine ⟨ms, htrace, fun ms₁ m ms₂ hsplit hdepth i role answer he => ?_⟩
  obtain ⟨hcode, hdrifts⟩ := hrecalls ms₁ m ms₂ hsplit hdepth i role answer he
  exact ⟨⟨m.world.journal a, i⟩, rfl, rfl, hcode, hdrifts.previous hnames⟩

/-- The second frame leads back once. The last one tells the name of the previous record. -/
def looped : Board Nat :=
  ⟨"b", .plain none "b", none,
    [.work .key "A" none none fun _ w => (.ok (.str "A"), w.scene), .jump (.position 0) (some fun _ => backOnce),
      .work .key "B" none none fun _ w => (.ok (.str "B"), w.scene),
      .work .key "C" none (some fun v _ w => (.ok (.str v.previous.name), w.scene)) fun x w => (.ok x, w.scene)]⟩

theorem exists_answer {m : Moment σ} {i : Nat} {role : Role} (h : m.asked? = some (i, role)) :
    ∃ answer, m.event = .evaluated i role answer := by
  unfold Moment.asked? at h
  cases he : m.event with
  | evaluated position role' answer =>
    rw [he] at h
    cases h
    exact ⟨answer, rfl⟩
  | _ =>
    rw [he] at h
    cases h

def loopedRun : Ending × Stage Nat := enterBoard 9 [] looped [] .null ⟨.blank 0, []⟩

theorem loopedRun_eq : enterBoard 9 [] looped [] .null ⟨.blank 0, []⟩ = loopedRun := rfl

theorem loopedRun_length : 10 < loopedRun.2.trace.length := by
  decide +kernel

def loopedAgain : Moment Nat := loopedRun.2.trace.get ⟨10, loopedRun_length⟩

def loopedLast : Moment Nat := loopedRun.2.trace.get ⟨4, Nat.lt_trans (by decide) loopedRun_length⟩

/-- The frame that leads back still sees the latest record of the frame before it. -/
theorem looped_follows : ∃ (v : View) (r : Record), v.records = loopedAgain.world.journal [] ∧ v.current = 1 ∧
    v.Finds (.position 0) (.ok (some r)) ∧ v.previous = r := by
  obtain ⟨ms, htrace, hsees⟩ :=
    previous_iff (b := looped) (by decide +kernel) 9 [] [] .null ⟨.blank 0, []⟩ (loaded_nothing rfl [])
  rw [loopedRun_eq, List.append_nil] at htrace
  subst htrace
  have hsplit : loopedRun.2.trace = loopedRun.2.trace.take 10 ++ loopedAgain :: loopedRun.2.trace.drop 11 := by
    have := eq_take_get_drop loopedRun_length
    rwa [List.append_nil] at this
  obtain ⟨answer, hanswer⟩ := exists_answer (show loopedAgain.asked? = some (1, .condition) by decide +kernel)
  have hback : firstBack? 1 (loopedRun.2.trace.drop 11) = some 1 := by
    decide +kernel
  obtain ⟨v, hrecords, hcurrent, -, hprevious⟩ := hsees _ _ _ hsplit (by decide +kernel) 1 .condition answer hanswer
  obtain ⟨q, r, -, -, -, hfinds, hiff⟩ := hprevious (Nat.le_refl 1)
  refine ⟨v, r, hrecords, hcurrent, hfinds, hiff.mpr fun j hj => ?_⟩
  rw [show List.length ([] : List (Level Nat)) + 1 = 1 from rfl, hback] at hj
  cases hj
  decide

/-- The last frame is behind the one that led back: its provider is told of the first frame, and not of the third one. -/
theorem looped_misled : looped.names.Nodup ∧ (looped.session.readFile (.blank 0)).1 = .ok none ∧
    loopedLast ∈ (enterBoard 9 [] looped [] .null ⟨.blank 0, []⟩).2.trace ∧ loopedLast.levels.length = 1 ∧
    loopedLast.asked? = some (3, .provider) ∧
    ∃ r, View.Finds ⟨loopedLast.world.journal [], 3⟩ (.position 2) (.ok (some r)) ∧ r.name = "B" ∧
      (View.previous ⟨loopedLast.world.journal [], 3⟩).name = "A" ∧
      View.previous ⟨loopedLast.world.journal [], 3⟩ ≠ r := by
  have hprevious : (View.previous ⟨loopedLast.world.journal [], 3⟩).name = "A" := by decide +kernel
  have hrecord : (View.record? ⟨loopedLast.world.journal [], 3⟩ (.position 2)).toOption.bind (Option.map Record.name) =
      some "B" := by
    decide +kernel
  have hfinds := @View.record?_finds ⟨loopedLast.world.journal [], 3⟩ (.position 2) trivial
  rw [loopedRun_eq]
  refine ⟨by decide +kernel, rfl, List.get_mem _ _, by decide +kernel, by decide +kernel, ?_⟩
  generalize View.record? ⟨loopedLast.world.journal [], 3⟩ (.position 2) = answer at hrecord hfinds
  cases answer with
  | error f => cases hrecord
  | ok found =>
    obtain ⟨r, rfl, hname⟩ := Option.map_eq_some_iff.mp hrecord
    refine ⟨r, hfinds, hname, hprevious, fun heq => ?_⟩
    rw [heq, hname] at hprevious
    exact absurd hprevious (by decide)

end Board

end Boardwalk
