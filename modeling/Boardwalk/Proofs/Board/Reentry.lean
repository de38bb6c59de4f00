import Boardwalk.Proofs.Board.Resume
/-!
# Where a run starts after a fault below

The record of a story frame is in flight while its board runs. If this raises a fault, the record stays so, and the
next run starts at the number of the record. Without jumps the first such record has the position of its frame for
number, and the next run enters the frame again. Every later run adds another record, though, so after the second
fault the next run starts behind the frame (`started_after_nested_faults`).
-/

namespace Boardwalk

variable {σ : Type}

def Moment.entered? (m : Moment σ) : Option Nat :=
  match m.event with
  | .entered position => some position
  | _ => none

/-! ## What the boards below leave alone -/

namespace Session

variable {s : Session σ}

/-- The directories and the lock of the session are still what they were, and so is its file if it is there. -/
structure Guards (s : Session σ) (d d' : Disk) : Prop where
  dirs : d.KeepsDirs d'
  file : ∀ n, d.node? s.file = some n → d'.node? s.file = some n
  lock : ∀ c, d.node? s.lock = some (.file c) → ∃ c', d'.node? s.lock = some (.file c')

theorem Keeps.guards {d d' : Disk} (h : s.Keeps d d') : s.Guards d d' :=
  ⟨h.dirs, fun _ hn => h.file.trans hn, h.lock⟩

theorem Guards.keeps {d d' : Disk} {n : Node} (h : s.Guards d d') (hn : d.node? s.file = some n) : s.Keeps d d' :=
  ⟨h.dirs, (h.file n hn).trans hn.symm, h.lock⟩

theorem Guards.trans {d d' d'' : Disk} (h : s.Guards d d') (h' : s.Guards d' d'') : s.Guards d d'' := by
  refine ⟨fun p hp => h'.dirs p (h.dirs p hp), fun n hn => h'.file n (h.file n hn), fun c hc => ?_⟩
  obtain ⟨c', hc'⟩ := h.lock c hc
  exact h'.lock c' hc'

theorem guards_of_stays {t : Session σ} (hne : s.file ≠ t.file) {d d' : Disk} (h : Disk.StaysBut t.file d d') :
    s.Guards d d' :=
  ⟨h.keepsDirs, fun n hn => h _ n hn (.inl hne), fun c hc => ⟨c, h _ _ hc (.inl (file_ne_lock t s).symm)⟩⟩

end Session

namespace Board

variable {b : Board σ}

def HasNoJump (b : Board σ) : Prop := ∀ f ∈ b.frames, ∀ target condition, f ≠ .jump target condition

def SparesRoot (b : Board σ) : Prop := ∀ {p c code}, b.Has p c → c.Calls code → b.session.Spares code

theorem SparesRoot.own (h : b.SparesRoot) {code : Code σ Value} (hc : b.Calls code) : b.session.Spares code :=
  h (.here b) hc

theorem enterBoard_guards (hspares : b.SparesRoot) (hapart : b.FileApart) {i : Nat} {c : Board σ}
    {condition : Option (Condition σ)} {provider : Option (Provider σ)}
    (hf : b.frames[i]? = some (.story c condition provider)) (limit : Nat) (ls : List (Level σ)) (x : Value)
    (g : Stage σ) : b.session.Guards g.world.disk (enterBoard limit [i] c ls x g).2.world.disk := by
  apply enterBoard_disk limit c [i] ls x g
  intro p d hd
  have hhas : b.Has (i :: p) d := .story hf hd
  exact ⟨fun _ => (Session.Keeps.refl _ _).guards, fun h h' => h.trans h', fun hc w => (hspares hhas hc w).guards,
    fun hs => Session.guards_of_stays (hapart hhas (List.cons_ne_nil _ _)) hs⟩

/-! ## The story frame -/

structure Pends (b : Board σ) (t : Timeline) (w : World σ) : Prop where
  ready : b.session.Ready w.held w.disk
  stores : b.session.Stores w.disk t
  numbered : t.IsNumbered
  last : ∃ r, t.getLast? = some r ∧ r.completed = .bool false

theorem conclude_raised_eq {ls : List (Level σ)} {a : Address} {output : Json} {g : Stage σ} {f : Fault} :
    (b.conclude ls a output g).1 = .raised f → (b.conclude ls a output g).2 = g := by
  unfold conclude
  split
  · exact fun _ => rfl
  · dsimp only
    split
    · exact fun _ => rfl
    · exact nofun

theorem story_raised_eq {ls : List (Level σ)} {a : Address} {s : Spot σ} {enter : Enter σ} {v : View} {x : Value}
    {g : Stage σ} {f : Fault} : (b.story ls a s enter none v x g).1 = .raised f →
    (b.story ls a s enter none v x g).2 = (enter ls x ((b.persist ls a
      (g.withWorld (add a s.name s.kind s.position (.dict []) false g.world))).note ls (.entered s.position))).2 := by
  unfold story contextOf
  dsimp only
  split
  all_goals
    rename_i he
    rw [he]
  · exact fun _ => rfl
  · exact nofun
  · exact fun _ => rfl
  · split
    · exact fun _ => rfl
    · exact conclude_raised_eq

section

variable (hspares : b.SparesRoot) (hapart : b.FileApart)
include hspares hapart

/-- **A fault below leaves the record of the story frame in flight**, in the file of the board that waits. -/
theorem story_raised {limit : Nat} {ls : List (Level σ)} {s : Spot σ} {c : Board σ}
    {condition : Option (Condition σ)} {provider : Option (Provider σ)}
    (hf : b.frames[s.position]? = some (.story c condition provider)) {m : Model} {g : Stage σ}
    (hm : g.world.model? [] = some m) (hready : b.session.Ready g.world.held g.world.disk)
    (hn : m.timeline.IsNumbered) {v : View} {x : Value} {f : Fault}
    (hs : SavesSucceed (b.story ls [] s (enterBoard limit [s.position] c) none v x g).2.trace)
    (hr : (b.story ls [] s (enterBoard limit [s.position] c) none v x g).1 = .raised f) :
    ∃ t, Pends b t (b.story ls [] s (enterBoard limit [s.position] c) none v x g).2.world ∧
      t.length = m.timeline.length + 1 := by
  rw [story_raised_eq hr] at hs ⊢
  have ha := adds_add [] s.name s.kind s.position (.dict []) false g.world
  rw [journal_of_model hm] at ha
  generalize hp : b.persist ls [] (g.withWorld (add [] s.name s.kind s.position (.dict []) false g.world)) = g₁ at hs ⊢
  have hext : Extends g₁ (enterBoard limit [s.position] c ls x (g₁.note ls (.entered s.position))).2 :=
    extends_closed.trans (extends_closed.record g₁ _) (enterBoard_extends ..)
  have hs₁ := hs.of_extends hext
  rw [← hp] at hs₁
  have hj := persist_journals hm ha hs₁
  rw [hp] at hj
  have hnumbered : (m.timeline ++ [m.timeline.entry s.name s.kind s.position (.dict []) false]).IsNumbered :=
    hn.concat _ _ _ _ _
  obtain ⟨content, -, hnode⟩ := id hj.holds
  have hkeeps : b.session.Keeps g₁.world.disk _ :=
    (enterBoard_guards hspares hapart hf limit ls x (g₁.note ls (.entered s.position))).keeps hnode
  have hheld : _ = g₁.world.held := enterBoard_held limit c [s.position] ls x (g₁.note ls (.entered s.position))
  have hready₁ : b.session.Ready g₁.world.held g₁.world.disk := by
    rw [hj.held]
    exact hready.of_stays hj.stays
  refine ⟨_, ⟨?_, (hj.holds.stores hnumbered.valid).of_keeps hkeeps, hnumbered.reread, ?_⟩, ?_⟩
  · rw [hheld]
    exact hready₁.of_keeps hkeeps
  · refine ⟨(m.timeline.entry s.name s.kind s.position (.dict []) false).reread, ?_, rfl⟩
    rw [List.map_append]
    exact List.getLast?_concat
  · rw [List.length_map, List.length_append, List.length_singleton]

/-! ## The steps before it -/

/-- What holds whenever a board without jumps is about to take a frame: its journal has so many records more than the
cursor, and no board was entered. -/
structure Nears (b : Board σ) (surplus : Nat) (cursor : Int) (m : Model) (g : Stage σ) : Prop where
  model : g.world.model? [] = some m
  numbered : m.timeline.IsNumbered
  ready : b.session.Ready g.world.held g.world.disk
  level : (m.timeline.length : Int) = cursor + surplus
  nonneg : 0 ≤ cursor
  alone : ∀ m' ∈ g.trace, m'.entered? = none

omit hspares hapart in
theorem entered?_quiet {m : Moment σ} (h : m.isQuiet = true) : m.entered? = none := by
  unfold Moment.isQuiet at h
  unfold Moment.entered?
  split
  · rename_i he
    rw [he] at h
    cases h
  · rfl

omit hspares hapart in
theorem alone_notes {acts : List Nat} {g g' : Stage σ} (h : Notes acts g g')
    (ha : ∀ m ∈ g.trace, m.entered? = none) : ∀ m ∈ g'.trace, m.entered? = none := by
  obtain ⟨ms, hms, hq, -⟩ := h
  rw [hms]
  intro m hm
  rcases List.mem_append.mp hm with hm | hm
  · exact entered?_quiet (hq m hm)
  · exact ha m hm

omit hspares hapart in
theorem takes_one (hjump : b.HasNoJump) {x : Value} {t t' : Timeline} {cursor c : Int} {act : Option Nat}
    (h : Takes b x t cursor t' (some c) act) : c = cursor + 1 := by
  generalize hnext : some c = next at h
  cases h with
  | skip => exact Option.some.inj hnext
  | work => exact Option.some.inj hnext
  | stop =>
    split at hnext
    · cases hnext
    · exact Option.some.inj hnext
  | jump hspot hf => exact absurd hf (hjump _ (List.mem_of_getElem? (spot?_some hspot).1) _ _)

omit hapart in
theorem nears_next (hjump : b.HasNoJump) {surplus : Nat} {enters : List (Enter σ)} {ls : List (Level σ)} {x : Value}
    {cursor c : Int} {m : Model} {g g' : Stage σ} {w : World σ} (h : Nears b surplus cursor m g)
    (ht : TurnsTo b enters ls [] x cursor m g (.next c) g') :
    cursor ≤ c ∧ ∃ m', Nears b surplus c m' (g'.record ⟨ls, .turned cursor (.next c), w⟩) := by
  cases ht with
  | @next _ act rs g₁ _ he htake hj hn =>
    have hc := takes_one hjump htake
    have hlength := takes_length htake rfl
    have hlevel := h.level
    have hnonneg := h.nonneg
    have hready : b.session.Ready g'.world.held g'.world.disk := by
      rw [hj.held, he.runs.held]
      exact (h.ready.of_keeps (he.runs.keeps hspares.own)).of_stays hj.stays
    refine ⟨by omega, _, hj.model, takes_numbered htake h.numbered, hready, ?_, by omega, ?_⟩
    · dsimp only
      omega
    · intro m' hm'
      rcases List.mem_cons.mp hm' with rfl | hm'
      · rfl
      · exact alone_notes (he.notes.trans hn) h.alone m' hm'

/-! ## Runs -/

/-- A run that a fault below the story frame at a position stops: the frame was entered, and its step is the last
one. -/
structure FaultsBelow (b : Board σ) (i : Nat) (limit : Nat) (x : Value) (w : World σ) : Prop where
  raised : (b.run limit x w).1.isRaised = true
  entered : ∃ m ∈ b.trace limit x w, m.entered? = some i
  last : (b.trace limit x w).getLast?.bind Moment.stopped? = some (i : Int)

theorem turn_pends (hjump : b.HasNoJump) {surplus limit : Nat} {ls : List (Level σ)} {x : Value} {cursor : Int}
    {m : Model} {g g' : Stage σ} {f : Fault} (h : Nears b surplus cursor m g) (hs : SavesSucceed g'.trace)
    (ht : TurnsTo b (enterFrames limit [] 0 b.frames) ls [] x cursor m g (.halt (.raised f)) g')
    (hentered : ∃ m ∈ g'.trace, ∃ i, m.entered? = some i) :
    ∃ t, Pends b t g'.world ∧ t.length = m.timeline.length + 1 := by
  obtain ⟨m', hm', i, hi⟩ := hentered
  generalize hturn : Turn.halt (.raised f) = turn at ht
  cases ht with
  | raised hr =>
    rw [alone_notes hr.notes h.alone m' hm'] at hi
    cases hi
  | lost hspot hf => exact absurd hf (hjump _ (List.mem_of_getElem? (spot?_some hspot).1) _ _)
  | @story s c condition provider enter x' g₁ hspot hf henter he =>
    have hframe := (spot?_some hspot).1.trans (congrArg some hf)
    cases (enterFrames_story hframe).symm.trans henter
    have hready : b.session.Ready g₁.world.held g₁.world.disk := by
      rw [he.runs.held]
      exact h.ready.of_keeps (he.runs.keeps hspares.own)
    exact story_raised hspares hapart hframe ((he.runs.model? []).trans h.model) hready h.numbered hs
      (Turn.halt.inj hturn).symm
  | next => cases hturn
  | ended => cases hturn
  | closed => cases hturn

/-- **A run that is stopped below the frame at a position** adds the records up to this frame, and one in flight. -/
theorem run_pends (hjump : b.HasNoJump) {t : Timeline} {w : World σ} {i limit : Nat} {x : Value} (surplus : Nat)
    (hopens : b.session.Opens w t) (hn : t.IsNumbered) (hlevel : (t.length : Int) = t.cursor + surplus)
    (hnonneg : 0 ≤ t.cursor) (ha : b.session.Agrees w) (hs : SavesSucceed (b.trace limit x w))
    (hf : FaultsBelow b i limit x w) :
    t.cursor ≤ i ∧ ∃ t', Pends b t' (b.run limit x w).2 ∧ t'.length = i + surplus + 1 := by
  have hend := run_ends hspares.own (P := fun _ cursor m g => t.cursor ≤ cursor ∧ Nears b surplus cursor m g) hopens ha
    hs ?_ ?_ ?_
  · obtain ⟨ls, n, cursor, m, g, halt, g', ⟨hle, hnears⟩, hs', hends, henter⟩ := hend
    have hraised := hf.raised
    obtain ⟨m', hentered, hevent⟩ := hf.entered
    have hlast := hf.last
    unfold run at hraised ⊢
    unfold trace at hentered hlast
    rw [henter] at hraised hentered hlast ⊢
    rw [List.getLast?_reverse] at hlast
    replace hentered := List.mem_reverse.mp hentered
    cases halt with
    | unfinished => cases hraised
    | ended =>
      dsimp only [close] at hlast
      rw [finish_trace] at hlast
      cases hlast
    | raised f' =>
      cases hends with
      | @halt n _ _ g₁ _ hlt hturn =>
        have hs₁ : SavesSucceed g₁.trace := hs'.of_extends (extends_closed.record _ _)
        have ht := turnsTo_of_turn hnears.model hnears.nonneg hlt hturn hs₁
        cases hlast
        -- the board was entered in this very step, as the end of the step is recorded last
        have hbelow : ∃ m ∈ g₁.trace, ∃ i, m.entered? = some i := by
          rcases List.mem_cons.mp hentered with rfl | hmem
          · cases hevent
          · exact ⟨m', hmem, i, hevent⟩
        obtain ⟨t', hpends, hlength⟩ := turn_pends hspares hapart hjump hnears hs₁ ht hbelow
        refine ⟨hle, t', hpends, ?_⟩
        have := hnears.level
        omega
  · exact fun {n cursor m g} h => ⟨h.2.model, h.2.nonneg⟩
  · rintro m g ls w₁ rfl hm hready - htrace
    refine ⟨Int.le_refl _, hm, hn, hready, hlevel, hnonneg, fun m' hm' => ?_⟩
    rw [htrace] at hm'
    cases List.mem_singleton.mp hm'
    rfl
  · rintro n cursor c m g g' ls ⟨hle, hnears⟩ - ht
    obtain ⟨hle', m', hnears'⟩ := nears_next hspares hjump hnears ht
    exact ⟨m', Int.le_trans hle hle', hnears'⟩

/-- The worlds after so many runs in a row that faults below the story frame at a position stopped: at first no run
is stored, every resume is agreed to, and every save succeeds. -/
inductive Faulted (b : Board σ) (i : Nat) : Nat → World σ → Prop where
  | none {w : World σ} : (b.session.readFile w).1 = .ok none → Faulted b i 0 w
  | again {n limit : Nat} {x : Value} {w w' : World σ} : Faulted b i n w → b.session.Agrees w →
      SavesSucceed (b.trace limit x w) → FaultsBelow b i limit x w → Follows b (b.run limit x w).2 w' →
      Faulted b i (n + 1) w'

/-- Every run that a fault below stops adds one record more than it takes frames, so the cursor moves on. -/
theorem faulted_opens (hjump : b.HasNoJump) {i n : Nat} {w : World σ} (h : Faulted b i n w) :
    ∃ t, b.session.Opens w t ∧ t.IsNumbered ∧ n ≤ 2 ∧ (t.length : Int) = t.cursor + min n 1 ∧
      t.cursor = if n = 0 then 0 else (i : Int) + n - 1 := by
  induction h with
  | none hnothing => exact ⟨[], Session.opens_nothing hnothing, Timeline.isNumbered_nil, Nat.zero_le 2, rfl, rfl⟩
  | @again n limit x w w' _ ha hs hf hfollows ih =>
    obtain ⟨t, hopens, hn, hle, hlevel, hcursor⟩ := ih
    have hnonneg : 0 ≤ t.cursor := by
      rw [hcursor]
      split
      · omega
      · omega
    obtain ⟨hstart, t', hpends, hlength⟩ :=
      run_pends hspares hapart hjump (min n 1) hopens hn (by omega) hnonneg ha hs hf
    obtain ⟨r, hlast, hc⟩ := hpends.last
    have hcursor' := Timeline.cursor_of_inFlight hpends.numbered hlast hc
    -- a run that starts behind the frame does not enter it again, so this was the first or the second one
    have hn₁ : n ≤ 1 := by
      rw [hcursor] at hstart
      split at hstart
      · omega
      · omega
    have hready : b.session.Ready w'.held w'.disk := by
      rw [hfollows.held]
      exact hpends.ready.of_keeps hfollows.keeps
    refine ⟨t', Session.opens_of_ready hready (hpends.stores.of_keeps hfollows.keeps), hpends.numbered, ?_, ?_, ?_⟩
    · omega
    · omega
    · rw [if_neg (Nat.succ_ne_zero n)]
      omega

/-- **The run after faults below a story frame** starts one frame further for each of them but the first. So it enters
the frame again after one fault, and after two it starts behind the frame. -/
theorem started_after_nested_faults (hjump : b.HasNoJump) {i n : Nat} {w : World σ} (h : Faulted b i n w)
    (hn : 1 ≤ n) (ha : b.session.Agrees w) (limit : Nat) (x : Value) :
    n ≤ 2 ∧ ∃ m, (b.trace limit x w).head? = some m ∧ m.event = .started (i + n - 1) ∧
      (m.event = .started i ↔ n = 1) := by
  obtain ⟨t, hopens, -, hle, -, hcursor⟩ := faulted_opens hspares hapart hjump h
  rw [if_neg (by omega)] at hcursor
  obtain ⟨m, hhead, hevent, -⟩ := run_started hspares.own hopens ha limit x
  rw [hcursor] at hevent
  refine ⟨hle, m, hhead, hevent, ?_⟩
  rw [hevent]
  constructor
  · intro he
    have := Event.started.inj he
    omega
  · rintro rfl
    congr 1
    omega

end

/-! ### A board below that fails twice -/

def twice : Code Nat Value := fun w =>
  match w.user with
  | 0 => (.error (.raised .other "RuntimeError" "x failed"), ⟨w.disk, 1⟩)
  | 1 => (.error (.raised .other "RuntimeError" "x failed"), ⟨w.disk, 2⟩)
  | _ => (.ok (.int 1), w.scene)

theorem twice_disk (w : World Nat) : (twice w).2.disk = w.disk := by
  unfold twice
  split
  · rfl
  · rfl
  · rfl

def part : Board Nat := ⟨"n", .plain (some "p") "n", none, [.work .key "A" none none fun _ => twice]⟩

def whole : Board Nat := ⟨"p", .plain none "p", none, [.story part none none]⟩

theorem whole_has {p : Address} {c : Board Nat} (h : whole.Has p c) : (p = [] ∧ c = whole) ∨ (p = [0] ∧ c = part) := by
  cases h with
  | here => exact .inl ⟨rfl, rfl⟩
  | @story _ c _ i p condition provider hf hp =>
    have hi : i = 0 ∧ c = part := by
      match i, hf with
      | 0, hf =>
        cases hf
        exact ⟨rfl, rfl⟩
    obtain ⟨rfl, rfl⟩ := hi
    cases hp with
    | here => exact .inr ⟨rfl, rfl⟩
    | @story _ _ _ j _ _ _ hf' _ =>
      match j, hf' with
      | 0, hf' => cases hf'

theorem whole_disk {p : Address} {c : Board Nat} {code : Code Nat Value} (hp : whole.Has p c) (hcode : c.Calls code)
    (w : World Nat) : (code w).2.disk = w.disk := by
  refine hcode.all (P := fun code => ∀ w, (code w).2.disk = w.disk) ?_ ?_ w
  · rcases whole_has hp with ⟨rfl, rfl⟩ | ⟨rfl, rfl⟩
    · simp [whole, Frame.AllCode]
    · simp [part, Frame.AllCode, twice_disk]
  · rcases whole_has hp with ⟨rfl, rfl⟩ | ⟨rfl, rfl⟩
    · exact fun _ _ => rfl
    · exact fun _ _ => rfl

theorem whole_spares : whole.SparesRoot := fun hp hcode => Session.spares_of_disk (whole_disk hp hcode)

theorem whole_apart : whole.FileApart := by
  intro p c hp hne
  rcases whole_has hp with ⟨rfl, rfl⟩ | ⟨rfl, rfl⟩
  · exact absurd rfl hne
  · decide

def wholeWorlds : Nat → World Nat
  | 0 => .blank 0
  | n + 1 => (whole.run 9 .null (wholeWorlds n)).2

theorem whole_follows (n : Nat) : Follows whole (whole.run 9 .null (wholeWorlds n)).2 (wholeWorlds (n + 1)) :=
  ⟨.refl _ _, rfl⟩

theorem whole_enters : ∀ n < 2, SavesSucceed (whole.trace 9 .null (wholeWorlds n)) ∧
    (whole.run 9 .null (wholeWorlds n)).1.isRaised = true ∧
    (∃ m ∈ whole.trace 9 .null (wholeWorlds n), m.levels.length = 1 ∧ m.entered? = some 0) ∧
    (whole.trace 9 .null (wholeWorlds n)).getLast?.bind Moment.stopped? = some 0 := by
  -- one evaluation for all of them, as each reads the file of the first run back
  decide +kernel

theorem whole_faults : ∀ n < 2, SavesSucceed (whole.trace 9 .null (wholeWorlds n)) ∧
    FaultsBelow whole 0 9 .null (wholeWorlds n) := by
  intro n hn
  obtain ⟨hs, hraised, ⟨m, hm, -, hentered⟩, hlast⟩ := whole_enters n hn
  exact ⟨hs, hraised, ⟨m, hm, hentered⟩, hlast⟩

/-- The second run enters the frame again. -/
theorem whole_reentered : ∃ m, (whole.trace 9 .null (wholeWorlds 1)).head? = some m ∧ m.event = .started 0 := by
  have hjump : whole.HasNoJump := by
    simp [HasNoJump, whole]
  obtain ⟨hs, hf⟩ := whole_faults 0 (by decide)
  have hfaulted : Faulted whole 0 1 (wholeWorlds 1) :=
    .again (.none rfl) (Session.agrees_plain _ _ _) hs hf (whole_follows 0)
  obtain ⟨-, m, hhead, -, hiff⟩ :=
    started_after_nested_faults whole_spares whole_apart hjump hfaulted (by decide) (Session.agrees_plain _ _ _) 9 .null
  exact ⟨m, hhead, hiff.mpr rfl⟩

/-- The third run starts behind the frame. -/
theorem whole_not_reentered : Faulted whole 0 2 (wholeWorlds 2) ∧
    (whole.trace 9 .null (wholeWorlds 2)).head?.bind Moment.started? = some 1 := by
  have hjump : whole.HasNoJump := by
    simp [HasNoJump, whole]
  obtain ⟨hs₀, hf₀⟩ := whole_faults 0 (by decide)
  obtain ⟨hs₁, hf₁⟩ := whole_faults 1 (by decide)
  have hfirst : Faulted whole 0 1 (wholeWorlds 1) :=
    .again (.none rfl) (Session.agrees_plain _ _ _) hs₀ hf₀ (whole_follows 0)
  have hsecond : Faulted whole 0 2 (wholeWorlds 2) :=
    .again hfirst (Session.agrees_plain _ _ _) hs₁ hf₁ (whole_follows 1)
  refine ⟨hsecond, ?_⟩
  obtain ⟨t, hopens, -, -, -, hcursor⟩ := faulted_opens whole_spares whole_apart hjump hsecond
  obtain ⟨m, hhead, hstarted, -⟩ :=
    run_started whole_spares.own hopens (Session.agrees_plain _ _ _) 9 .null
  rw [hhead, Option.bind_some, Moment.started?, hstarted, hcursor]
  rfl

end Board

end Boardwalk
