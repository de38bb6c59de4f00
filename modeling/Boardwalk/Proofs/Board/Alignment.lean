import Boardwalk.Proofs.Board.Cleanup
import Boardwalk.Proofs.Board.Isolation
import Boardwalk.Proofs.Board.Previous
import Boardwalk.Proofs.Session.Outcome
/-!
# Journals that mirror their boards

As long as no step leads back and no board below is entered, the journal has one record for each frame before the
cursor, in the order of the frames (`Mirrors`), and what the disk keeps has as many. A step adds the records up to
where it goes on, and saves them (`Aligns.next`). However a run ends, the disk keeps such a journal or none
(`run_mirrored`), and the next run loads it (`load_saved`). So it is the same at every head of the loop of every run of
a board whose code leaves its file alone (`aligned_at_heads`).
-/

namespace Boardwalk

variable {σ : Type}

/-- If the step goes on, then behind its frame, and no board below is entered. Only a jump can lead back. -/
def Moment.isOnward (m : Moment σ) : Bool :=
  match m.event with
  | .turned c (.next c') => decide (c < c')
  | .entered _ => false
  | _ => true

namespace Session

variable {s : Session σ} {d d' : Disk} {t t' : Timeline} {w : World σ} {a : Address}

/-! ## The journal on the disk -/

/-- The journal that the disk keeps for the session: the one in its file. No file counts as an empty journal. -/
inductive Saved (s : Session σ) (d : Disk) : Timeline → Prop where
  | absent : d.file? s.file = none → Saved s d []
  | stored {t : Timeline} : s.Stores d t → Saved s d t

theorem Stores.eq_nil (h : s.Stores d t) (hf : d.file? s.file = none) : t = [] := by
  cases h with
  | nothing => rfl
  | model hs =>
    cases hn : d.node? s.file with
    | none =>
      rw [hn] at hs
      cases hs
    | some n =>
      cases n with
      | file c => cases hf.symm.trans (Disk.file?_eq_some.mpr hn)
      | dir =>
        rw [hn] at hs
        cases hs

theorem Stores.unique (h : s.Stores d t) (h' : s.Stores d t') : t = t' := by
  cases h with
  | nothing hs =>
    cases h' with
    | nothing => rfl
    | model hs' => cases hs.symm.trans hs'
  | model hs hm =>
    cases h' with
    | nothing hs' => cases hs.symm.trans hs'
    | model hs' hm' =>
      cases hs.symm.trans hs'
      cases hm.symm.trans hm'
      rfl

theorem Saved.unique (h : s.Saved d t) (h' : s.Saved d t') : t = t' := by
  cases h with
  | absent hf =>
    cases h' with
    | absent => rfl
    | stored hs' => exact (hs'.eq_nil hf).symm
  | stored hs =>
    cases h' with
    | absent hf => exact hs.eq_nil hf
    | stored hs' => exact hs.unique hs'

theorem Saved.of_brings (h : s.Saved d t) (hb : Disk.BringsNone s.file d d') : s.Saved d' t ∨ s.Saved d' [] := by
  cases hf : d'.file? s.file with
  | none => exact .inr (.absent hf)
  | some c =>
    have hn' := Disk.file?_eq_some.mp hf
    have hn := hb c hn'
    cases h with
    | absent hnone => cases hnone.symm.trans (Disk.file?_eq_some.mpr hn)
    | stored hs => exact .inl (.stored (hs.of_node (hn.trans hn'.symm)))

theorem Saved.of_file? (h : s.Saved d t) (hf : d'.file? s.file = d.file? s.file) : s.Saved d' t := by
  cases hc : d.file? s.file with
  | none =>
    rw [h.unique (.absent hc)]
    exact .absent (hf.trans hc)
  | some c =>
    have hn := Disk.file?_eq_some.mp hc
    have hn' := Disk.file?_eq_some.mp (hf.trans hc)
    cases h with
    | absent hnone => exact .absent (hf.trans hnone)
    | stored hs => exact .stored (hs.of_node (hn.trans hn'.symm))

/-- A run with records that the file stores is resumed, unless the loading raises a fault. -/
def Confirms (s : Session σ) (a : Address) (w : World σ) : Prop :=
  ∀ {t r}, s.Stores w.disk t → t ≠ [] → (s.load a w).1 = .ok r → s.Resumes w

theorem confirms_of_agrees (hreads : ∃ o, (s.readFile w).1 = .ok o) (ha : s.Agrees w) : s.Confirms a w := by
  intro t r hs hne _
  obtain ⟨o, ho⟩ := hreads
  have hread : s.readFile w = (.ok o, (s.readFile w).2) := Prod.ext ho rfl
  cases hs with
  | nothing => exact absurd rfl hne
  | @model j m hstate hm =>
    obtain rfl := readFile_stateOfNode hstate hread
    obtain ⟨w', hl, hmodel, -⟩ := load_of_state a hread hm ha
    by_contra hno
    exact hne ((Board.journal_of_model hmodel).symm.trans ((load_journal hl).mpr hno))

/-- **The loading puts the journal into memory that the disk keeps.** -/
theorem load_saved {r : Answer Model} (h : s.Saved w.disk t) (hc : s.Confirms a w) (hl : (s.load a w).1 = .ok r) :
    ∃ m, (s.load a w).2.model? a = some m ∧ m.timeline = t := by
  obtain ⟨m, hm, hloaded⟩ := load_loads (Prod.ext hl rfl)
  refine ⟨m, hm, ?_⟩
  rcases hloaded with hs | ⟨rfl, hs⟩
  · obtain ⟨j, hr, hj⟩ := storedModel_some hs
    obtain ⟨⟨c, hn, hstate⟩, -⟩ := readFile_state hr
    have hstores : s.Stores w.disk m.timeline := .model (by rw [hn]; exact hstate) hj
    exact (Saved.stored hstores).unique h
  · -- a fresh journal is loaded, so the disk keeps no record
    cases h with
    | absent => rfl
    | stored hstores =>
      by_contra hne
      obtain ⟨m, hm, -⟩ := hc hstores (Ne.symm hne) hl
      exact hs m hm

end Session

namespace Board

variable {b : Board σ} {a : Address} {t rs : Timeline}

/-! ## Journals that mirror the board -/

def Mirrors (b : Board σ) (t : Timeline) : Prop :=
  ∀ (p : Nat) (r : Record), t[p]? = some r → r.index = .int p ∧ r.completed = .bool true ∧ b.IsOf p r

theorem mirrors_nil (b : Board σ) : b.Mirrors [] := by
  intro p r h
  cases h

theorem Mirrors.inStep (h : b.Mirrors t) : b.InStep t := by
  intro p r hr
  obtain ⟨hindex, hdone, f, hf, -, hframe⟩ := h p r hr
  exact ⟨(List.getElem?_eq_some_iff.mp hf).1, hindex, hdone, hframe⟩

theorem Mirrors.reread (h : b.Mirrors t) : b.Mirrors (t.map Record.reread) := by
  intro p r hr
  rw [List.getElem?_map] at hr
  obtain ⟨r', hr', rfl⟩ := Option.map_eq_some_iff.mp hr
  exact h p r' hr'

theorem Mirrors.append {k : Nat} (h : b.Mirrors t) (hc : b.Covers t.length k rs)
    (hnumbered : Timeline.IsNumbered (t ++ rs)) (hdone : Timeline.IsDone (t ++ rs)) : b.Mirrors (t ++ rs) := by
  intro p r hr
  refine ⟨(hnumbered p r hr).1, hdone r (List.mem_of_getElem? hr), ?_⟩
  by_cases hlt : p < t.length
  · rw [List.getElem?_append_left hlt] at hr
    exact (h p r hr).2.2
  · obtain ⟨i, rfl⟩ := Nat.exists_eq_add_of_le (Nat.le_of_not_lt hlt)
    rw [List.getElem?_append_right (Nat.le_add_right ..), Nat.add_sub_cancel_left] at hr
    exact hc.frames i r hr

theorem takes_covers {x : Value} {n : Nat} {t' : Timeline} {next : Option Int} {act : Option Nat}
    (h : Takes b x t n t' next act) : ∃ k rs, t' = t ++ rs ∧ b.Covers n k rs := by
  cases h with
  | skip hs => exact ⟨_, _, rfl, covers_one (isOf_entry hs ..)⟩
  | work hs => exact ⟨_, _, rfl, covers_one (isOf_entry hs ..)⟩
  | stop hs => exact ⟨_, _, rfl, covers_one (isOf_entry hs ..)⟩
  | jump hs hf _ hk =>
    obtain ⟨-, hcursor, -⟩ := spot?_some hs
    rw [hcursor]
    obtain ⟨gaps, hskipped, hcovers⟩ := skipped_covers hs hf hk t
    exact ⟨_, _, hskipped, hcovers⟩

theorem takes_mirrors {x : Value} {next : Option Int} {act : Option Nat}
    (h : Takes b x t t.length (t ++ rs) next act) (ht : b.Mirrors t) : b.Mirrors (t ++ rs) := by
  obtain ⟨k, rs', hrs, hcovers⟩ := takes_covers h
  cases List.append_cancel_left hrs
  exact ht.append hcovers (takes_numbered h ht.inStep.numbered) (takes_done h ht.inStep.done)

def MirroredOn (b : Board σ) (d : Disk) : Prop := ∃ t, b.session.Saved d t ∧ b.Mirrors t

theorem MirroredOn.of_file? {d d' : Disk} (h : b.MirroredOn d) (hf : d'.file? b.session.file = d.file? b.session.file) :
    b.MirroredOn d' := by
  obtain ⟨t, hsaved, ht⟩ := h
  exact ⟨t, hsaved.of_file? hf, ht⟩

theorem MirroredOn.of_brings {d d' : Disk} (h : b.MirroredOn d) (hb : Disk.BringsNone b.session.file d d') :
    b.MirroredOn d' := by
  obtain ⟨t, hsaved, ht⟩ := h
  rcases hsaved.of_brings hb with hsaved' | hsaved'
  · exact ⟨t, hsaved', ht⟩
  · exact ⟨[], hsaved', mirrors_nil b⟩

/-! ## Steps -/

/-- Between two steps the journals in memory and on the disk mirror the board, and are of one length. -/
structure Aligns (b : Board σ) (a : Address) (m : Model) (w : World σ) : Prop where
  model : w.model? a = some m
  mirrors : b.Mirrors m.timeline
  saved : ∃ t, b.session.Saved w.disk t ∧ b.Mirrors t ∧ t.length = m.timeline.length

theorem Aligns.mirroredOn {m : Model} {w : World σ} (h : Aligns b a m w) : b.MirroredOn w.disk := by
  obtain ⟨t, hsaved, ht, -⟩ := h.saved
  exact ⟨t, hsaved, ht⟩

theorem aligns_journals {m : Model} {w w' : World σ} (h : b.Mirrors (m.timeline ++ rs)) (hj : Journals b a m rs w w') :
    Aligns b a ⟨m.board, m.timeline ++ rs⟩ w' :=
  ⟨hj.model, h, _, .stored (hj.holds.stores h.inStep.numbered.valid), h.reread, List.length_map _⟩

def LeavesFile (b : Board σ) : Prop :=
  ∀ {code}, b.Calls code → ∀ w, (code w).2.disk.file? b.session.file = w.disk.file? b.session.file

theorem Runs.file?_eq (hleaves : b.LeavesFile) {w w' : World σ} (h : Runs b w w') :
    w'.disk.file? b.session.file = w.disk.file? b.session.file := by
  induction h with
  | refl => rfl
  | call _ hc ih => exact (hleaves hc _).trans ih

theorem Traces.split {P : Moment σ → Prop} {g g' g'' : Stage σ} (h : Traces P g g'') (h₁ : Extends g g')
    (h₂ : Extends g' g'') : Traces P g g' ∧ Traces P g' g'' := by
  obtain ⟨ms, ht, hms⟩ := h
  obtain ⟨ms₁, ht₁⟩ := h₁
  obtain ⟨ms₂, ht₂⟩ := h₂
  obtain rfl : ms = ms₂ ++ ms₁ := by
    rw [ht₂, ht₁, ← List.append_assoc] at ht
    exact (List.append_cancel_right ht).symm
  exact ⟨⟨ms₁, ht₁, fun m hm => hms m (List.mem_append_right _ hm)⟩,
    ⟨ms₂, ht₂, fun m hm => hms m (List.mem_append_left _ hm)⟩⟩

theorem Traces.of_record {P : Moment σ → Prop} {g g' g'' : Stage σ} {m : Moment σ} (h : Traces P g g'')
    (h₁ : Extends g g') (h₂ : Extends (g'.record m) g'') : P m := by
  have hafter := (h.split h₁ (extends_closed.trans (extends_closed.record g' m) h₂)).2
  obtain ⟨ms, ht, hms⟩ := (hafter.split (extends_closed.record g' m) h₂).1
  obtain rfl : ms = [m] := List.append_cancel_right (ht.symm.trans List.singleton_append.symm)
  exact hms m List.mem_cons_self

/-- From the first stage to the second one no step leads back, or to its own frame, and no board below is entered. -/
abbrev Onward : Stage σ → Stage σ → Prop := Traces fun m => m.isOnward = true

section

variable {enters : List (Enter σ)} (he : ∀ enter ∈ enters, ∀ ls x g, Extends g (enter ls x g).2)

include he in
theorem story_records {s : Spot σ} {enter : Enter σ} (henter : enter ∈ enters) (ls : List (Level σ)) (a : Address)
    (v : View) (x : Value) (g : Stage σ) : ∃ g' m, Extends g g' ∧ m.isOnward = false ∧
      Extends (g'.record m) (b.story ls a s enter none v x g).2 := by
  have hpersist : Extends g (b.persist ls a (g.withWorld (add a s.name s.kind s.position (.dict []) false g.world))) :=
    ((extends_closedAt b a).advances extends_closed.on.within trivial).persist _
  refine ⟨_, ⟨ls, .entered s.position, (b.entering ls a s g).world⟩, hpersist, rfl, ?_⟩
  rw [story_eq]
  exact extends_closed.trans (he enter henter ls x (b.entering ls a s g)) (tellsOn_receive b ls a s _).toExtends

variable {ls : List (Level σ)} {x : Value} {m : Model} {g g' : Stage σ} (h : Aligns b a m g.world)
  (hlt : (m.timeline.length : Int) < b.frames.length)
include h hlt

/-- **A step onward keeps the journals aligned**, and goes on at their length. -/
theorem Aligns.next {c : Int} (hturn : b.turn enters ls a x m.timeline.length g = (.next c, g'))
    (hs : SavesSucceed g'.trace) (hup : (m.timeline.length : Int) < c) :
    ∃ m', Aligns b a m' g'.world ∧ c = m'.timeline.length := by
  have hturns := turnsTo_of_turn h.model (Int.natCast_nonneg _) hlt hturn hs
  cases hturns with
  | next act he htake hj hn =>
    have hlength := takes_length htake rfl
    refine ⟨_, aligns_journals (takes_mirrors htake h.mirrors) hj, ?_⟩
    dsimp only
    omega

include he

/-- **The last step** leaves on the disk what was kept there, or saves its record. -/
theorem Aligns.last (hleaves : b.LeavesFile) {halt : Halt}
    (hturn : b.turn enters ls a x m.timeline.length g = (.halt halt, g')) (hs : SavesSucceed g'.trace)
    (ho : Onward g g') : b.MirroredOn g'.world.disk := by
  have hturns := turnsTo_of_turn h.model (Int.natCast_nonneg _) hlt hturn hs
  generalize hend : Turn.halt halt = turn at hturns
  cases hturns with
  | raised hr => exact h.mirroredOn.of_file? (hr.runs.file?_eq hleaves)
  | lost _ _ _ heval ha =>
    obtain ⟨rs, ha⟩ := ha
    rw [Stage.withWorld_world, ha.disk]
    exact h.mirroredOn.of_file? (heval.runs.file?_eq hleaves)
  | ended _ htake hj => exact (aligns_journals (takes_mirrors htake h.mirrors) hj).mirroredOn
  | story _ _ henter heval =>
    obtain ⟨ms, htrace, -⟩ := heval.notes
    obtain ⟨g₁, m', hbefore, hentered, hafter⟩ := story_records he (List.mem_of_getElem? henter) ls a _ _ _
    have hyes := ho.of_record (extends_closed.trans ⟨ms, htrace⟩ hbefore) hafter
    cases hentered.symm.trans hyes
  | closed _ _ _ heval => exact h.mirroredOn.of_file? (heval.runs.file?_eq hleaves)
  | next => cases hend

end

theorem finish_brings (ls : List (Level σ)) (g : Stage σ) :
    Disk.BringsNone b.session.file g.world.disk (b.finish ls a g).2.world.disk := by
  cases hr : b.resolve (g.world.journal a) with
  | error f =>
    rw [(finish_failure hr).2.1]
    exact fun _ hc => hc
  | ok o =>
    rw [finish_disk hr]
    exact (passes_clearEach b.session _ g.world).file

theorem close_brings (ls : List (Level σ)) (halt : Halt) (g : Stage σ) :
    Disk.BringsNone b.session.file g.world.disk (b.close ls a (halt, g)).2.world.disk := by
  cases halt with
  | raised f => exact fun _ hc => hc
  | unfinished => exact fun _ hc => hc
  | ended => exact finish_brings ls g

/-! ## The heads of the loop -/

theorem opened_trace (b : Board σ) (ls : List (Level σ)) (a : Address) (g : Stage σ) :
    (b.opened ls a g).trace = ⟨ls, .started (g.world.journal a).cursor, g.world⟩ :: g.trace := rfl

theorem opened_onward (b : Board σ) (ls : List (Level σ)) (a : Address) (g : Stage σ) (w : World σ) :
    Onward g (b.opened ls a (g.withWorld w)) := by
  refine ⟨[_], opened_trace b ls a _, fun m hm => ?_⟩
  rw [List.mem_singleton.mp hm]
  rfl

theorem opened_savesSucceed (b : Board σ) (ls : List (Level σ)) (a : Address) {g : Stage σ}
    (h : SavesSucceed g.trace) : SavesSucceed (b.opened ls a g).trace := by
  rw [opened_trace, SavesSucceed, List.forall_mem_cons]
  refine ⟨fun f hf => ?_, h⟩
  cases hf

/-- The board on top of those that run already, with the world as the loading leaves it. -/
def onTop (b : Board σ) (a : Address) (above : List (Level σ)) (w : World σ) : List (Level σ) :=
  ⟨b, a, (b.session.load a w).2⟩ :: above

theorem starts_of_load {m : Model} {w w' : World σ} (h : b.session.load a w = (.ok (.ok m), w')) :
    b.starts a w = true := by
  unfold starts
  rw [h]

theorem starts_cases (b : Board σ) (limit : Nat) (a : Address) (above : List (Level σ)) (x : Value) (g : Stage σ) :
    (b.starts a g.world = false ∧ (enterBoard limit a b above x g).2 = g.withWorld (b.session.load a g.world).2) ∨
    (b.starts a g.world = true ∧ (∃ r, (b.session.load a g.world).1 = .ok r) ∧
      enterBoard limit a b above x g = b.walk (enterFrames limit a 0 b.frames) limit (b.onTop a above g.world) a
        (givenContext x) (g.withWorld (b.session.load a g.world).2)) := by
  rw [enterBoard_eq]
  unfold starts runWith onTop
  cases b.session.load a g.world with
  | mk answer w =>
    cases answer with
    | error f => exact .inl ⟨rfl, rfl⟩
    | ok loaded =>
      cases loaded with
      | ok m => exact .inr ⟨rfl, ⟨_, rfl⟩, rfl⟩
      | error f =>
        cases b.session.settings.strictLoad with
        | true => exact .inl ⟨rfl, rfl⟩
        | false => exact .inr ⟨rfl, ⟨_, rfl⟩, rfl⟩

section

variable (b : Board σ) (limit : Nat) (a : Address) (above : List (Level σ)) (x : Value) (g₀ : Stage σ)

/-- The heads of the loop of a run: with so many steps left it stands at a cursor, in a stage. -/
inductive AtHead : Nat → Int → Stage σ → Prop where
  | first : b.starts a g₀.world = true → AtHead limit (b.loaded a g₀.world).cursor
      (b.opened (b.onTop a above g₀.world) a (g₀.withWorld (b.session.load a g₀.world).2))
  | next {n : Nat} {c c' : Int} {g g' : Stage σ} : AtHead (n + 1) c g → c < b.frames.length →
      b.turn (enterFrames limit a 0 b.frames) (b.onTop a above g₀.world) a (givenContext x) c g = (.next c', g') →
      AtHead n c' (g'.record ⟨b.onTop a above g₀.world, .turned c (.next c'), g.world⟩)

end

section

variable {limit : Nat} {above : List (Level σ)} {x : Value} {g₀ : Stage σ}

theorem turned_extends {ls : List (Level σ)} {c : Int} {g g' : Stage σ} {turn : Turn}
    (hturn : b.turn (enterFrames limit a 0 b.frames) ls a x c g = (turn, g')) : Extends g g' := by
  obtain ⟨ms, htrace, -⟩ := turn_idle b limit ls a x c g
  rw [hturn] at htrace
  exact ⟨ms, htrace⟩

theorem AtHead.extends {n : Nat} {c : Int} {g : Stage σ} (h : AtHead b limit a above x g₀ n c g) : Extends g₀ g := by
  induction h with
  | first => exact ⟨[_], opened_trace ..⟩
  | next _ _ hturn ih =>
    exact extends_closed.trans ih (extends_closed.trans (turned_extends hturn) (extends_closed.record _ _))

theorem AtHead.run_eq {n : Nat} {c : Int} {g : Stage σ} (h : AtHead b limit a above x g₀ n c g) :
    enterBoard limit a b above x g₀ = b.close (b.onTop a above g₀.world) a (b.steps (enterFrames limit a 0 b.frames)
      (b.onTop a above g₀.world) a (givenContext x) n c g) := by
  induction h with
  | first hstarts =>
    rcases starts_cases b limit a above x g₀ with ⟨hnot, -⟩ | ⟨-, -, hwalk⟩
    · cases hnot.symm.trans hstarts
    · rw [hwalk, walk_eq]
      rfl
  | next _ hlt hturn ih => rw [ih, steps, if_neg (Int.not_le.mpr hlt), hturn]

theorem exists_last_head (hstarts : b.starts a g₀.world = true) (limit : Nat) (above : List (Level σ)) (x : Value) :
    ∃ n c g halt g', AtHead b limit a above x g₀ n c g ∧
      Ends b (enterFrames limit a 0 b.frames) (b.onTop a above g₀.world) a (givenContext x) n c g halt g' ∧
      enterBoard limit a b above x g₀ = b.close (b.onTop a above g₀.world) a (halt, g') := by
  have hfirst : AtHead b limit a above x g₀ limit _ _ := .first hstarts
  rw [hfirst.run_eq]
  cases hsteps : b.steps (enterFrames limit a 0 b.frames) (b.onTop a above g₀.world) a (givenContext x) limit
      (b.loaded a g₀.world).cursor (b.opened (b.onTop a above g₀.world) a
        (g₀.withWorld (b.session.load a g₀.world).2)) with
  | mk halt g' =>
    obtain ⟨n, c, g, hhead, hends⟩ := steps_ends (P := AtHead b limit a above x g₀)
      (extends_closed.enterFrames fun p d _ => extends_closedAt d (a ++ p))
      (fun hp hlt hturn _ => .next hp hlt hturn) limit hfirst hsteps
    exact ⟨n, c, g, halt, g', hhead, hends, rfl⟩

section

variable (hleaves : b.LeavesFile) (hmirrored : b.MirroredOn g₀.world.disk) (hc : b.session.Confirms a g₀.world)
include hleaves hmirrored hc

/-- **The journals are aligned at every head of the loop.** -/
theorem AtHead.aligns {n : Nat} {c : Int} {g : Stage σ} (h : AtHead b limit a above x g₀ n c g)
    (hs : SavesSucceed g.trace) (ho : Onward g₀ g) : ∃ m, Aligns b a m g.world ∧ c = m.timeline.length := by
  induction h with
  | first hstarts =>
    obtain ⟨t, hsaved, ht⟩ := hmirrored
    rcases starts_cases b limit a above x g₀ with ⟨hnot, -⟩ | ⟨-, ⟨r, hr⟩, -⟩
    · cases hnot.symm.trans hstarts
    · obtain ⟨m, hm, rfl⟩ := Session.load_saved hsaved hc hr
      have hfile := Session.load_file? (fun message w => hleaves (.question message) w) a g₀.world
      refine ⟨m, ⟨hm, ht, _, hsaved.of_file? hfile, ht, rfl⟩, ?_⟩
      rw [loaded, journal_of_model hm, ht.inStep.cursor]
  | @next n c c' g g' hhead hlt hturn ih =>
    have hext := turned_extends hturn
    have hrecord := extends_closed.record g' ⟨b.onTop a above g₀.world, .turned c (.next c'), g.world⟩
    have hup : c < c' :=
      of_decide_eq_true (ho.of_record (extends_closed.trans hhead.extends hext) (extends_closed.refl _))
    have hbefore := (ho.split hhead.extends (extends_closed.trans hext hrecord)).1
    obtain ⟨m, haligns, rfl⟩ := ih (hs.of_extends (extends_closed.trans hext hrecord)) hbefore
    rw [Stage.record_world]
    exact haligns.next hlt hturn (hs.of_extends hrecord) hup

/-- **However a run ends, the disk keeps a journal that mirrors the board**, or none. -/
theorem run_mirrored (hs : SavesSucceed (enterBoard limit a b above x g₀).2.trace)
    (ho : Onward g₀ (enterBoard limit a b above x g₀).2) :
    b.MirroredOn (enterBoard limit a b above x g₀).2.world.disk := by
  rcases starts_cases b limit a above x g₀ with ⟨-, hr⟩ | ⟨hstarts, -, -⟩
  · rw [hr]
    exact hmirrored.of_file? (Session.load_file? (fun message w => hleaves (.question message) w) a g₀.world)
  · obtain ⟨n, c, g, halt, g', hhead, hends, hrun⟩ := exists_last_head hstarts limit above x
    have hclose := close_extends b a (b.onTop a above g₀.world) g' halt
    rw [hrun] at hs ho ⊢
    refine MirroredOn.of_brings ?_ (close_brings (b.onTop a above g₀.world) halt g')
    cases hends with
    | past =>
      have hbefore := (ho.split hhead.extends hclose).1
      obtain ⟨m, haligns, -⟩ := hhead.aligns hleaves hmirrored hc (hs.of_extends hclose) hbefore
      exact haligns.mirroredOn
    | limit =>
      have hbefore := (ho.split hhead.extends hclose).1
      obtain ⟨m, haligns, -⟩ := hhead.aligns hleaves hmirrored hc (hs.of_extends hclose) hbefore
      exact haligns.mirroredOn
    | @halt n c g g₁ halt hlt hturn =>
      have hext := turned_extends hturn
      have hafter := extends_closed.trans (extends_closed.record g₁ _) hclose
      obtain ⟨hbefore, hlast⟩ := ho.split hhead.extends (extends_closed.trans hext hafter)
      obtain ⟨m, haligns, rfl⟩ := hhead.aligns hleaves hmirrored hc
        (hs.of_extends (extends_closed.trans hext hafter)) hbefore
      rw [Stage.record_world]
      exact haligns.last (extends_closed.enterFrames fun p d _ => extends_closedAt d (a ++ p)) hlt hleaves hturn
        (hs.of_extends hafter) (hlast.split hext hafter).1

end

/-! ## Runs one after the other -/

/-- The worlds in which runs of a board set in, one after the other. At first the file stores a journal that mirrors the
board, or there is no file. Every run resumes what is stored, its saves succeed, and it only leads onward. Between two
runs nobody writes the file. -/
inductive Arrives (b : Board σ) : World σ → Prop where
  | first {w : World σ} : b.MirroredOn w.disk → Arrives b w
  | again {limit : Nat} {a : Address} {above : List (Level σ)} {x : Value} {g : Stage σ} {w : World σ} :
      Arrives b g.world → b.session.Confirms a g.world → SavesSucceed (enterBoard limit a b above x g).2.trace →
      Onward g (enterBoard limit a b above x g).2 →
      Disk.BringsNone b.session.file (enterBoard limit a b above x g).2.world.disk w.disk → Arrives b w

theorem arrives_mirrored (hleaves : b.LeavesFile) {w : World σ} (h : Arrives b w) : b.MirroredOn w.disk := by
  induction h with
  | first hmirrored => exact hmirrored
  | again _ hc hs ho hbrings ih => exact (run_mirrored hleaves ih hc hs ho).of_brings hbrings

/-- **As long as no step leads back and no board below is entered, the records are those of the frames before the
cursor.** At every head of the loop of every run there are as many records as the cursor says, each of them is done and
is that of the frame at its own position, and a run that started from the journal in memory, or from the one that the
disk keeps, would start at the cursor. -/
theorem aligned_at_heads (hleaves : b.LeavesFile) (ha : Arrives b g₀.world) (hc : b.session.Confirms a g₀.world)
    {n : Nat} {c : Int} {g : Stage σ} (h : AtHead b limit a above x g₀ n c g) (hs : SavesSucceed g.trace)
    (ho : Onward g₀ g) :
    ((g.world.journal a).length : Int) = c ∧
      (∀ (p : Nat) (r : Record), (g.world.journal a)[p]? = some r → r.index = .int p ∧ r.frameIndex = .int p ∧
        r.completed = .bool true ∧ ∃ f, b.frames[p]? = some f ∧ r.name = f.nameAt p) ∧
      (g.world.journal a).cursor = c ∧ ∃ t, b.session.Saved g.world.disk t ∧ t.cursor = c := by
  obtain ⟨m, ⟨hm, hmirrors, t, hsaved, ht, hlength⟩, rfl⟩ := h.aligns hleaves (arrives_mirrored hleaves ha) hc hs ho
  rw [journal_of_model hm]
  refine ⟨rfl, fun p r hr => ?_, hmirrors.inStep.cursor, t, hsaved, ?_⟩
  · obtain ⟨hindex, hdone, f, hf, hname, hframe⟩ := hmirrors p r hr
    exact ⟨hindex, hframe, hdone, f, hf, hname⟩
  · rw [ht.inStep.cursor, hlength]

end

/-- The world that a run from nothing leaves behind. -/
theorem arrives_of_run {b : Board σ} {limit : Nat} {x : Value} {w : World σ} (hnone : w.disk.file? b.session.file = none)
    (hs : SavesSucceed (enterBoard limit [] b [] x ⟨w, []⟩).2.trace)
    (ho : Onward ⟨w, []⟩ (enterBoard limit [] b [] x ⟨w, []⟩).2) : Arrives b (b.run limit x w).2 := by
  have hfirst : Arrives b w := .first ⟨[], .absent hnone, mirrors_nil _⟩
  exact @Arrives.again σ b limit [] [] x ⟨w, []⟩ _ hfirst (fun hs hne _ => absurd (hs.eq_nil hnone) hne) hs ho
    fun _ hc => hc

theorem rounds_leavesFile : rounds.LeavesFile := fun hcode w => Disk.file?_congr (rounds_spares hcode w).file

/-- After a fault in the last frame the next run starts at it, with the records of the two frames before. -/
theorem rounds_aligned : ∃ c g, AtHead rounds 9 [] [] .null ⟨(rounds.run 9 .null (.blank 1)).2, []⟩ 9 c g ∧ c = 2 ∧
    ((g.world.journal []).length : Int) = c ∧ (g.world.journal []).cursor = c ∧
    ∃ t, rounds.session.Saved g.world.disk t ∧ t.cursor = c := by
  obtain ⟨f, hf⟩ : ∃ f, (rounds.run 9 .null (.blank 1)).1 = .raised f := Ending.exists_fault (by decide +kernel)
  have hflat : rounds.IsFlat := by
    simp [IsFlat, rounds]
  have hs : SavesSucceed (rounds.trace 9 .null (.blank 1)) := by decide +kernel
  have hcount : (rounds.trace 9 .null (.blank 1)).getLast?.map (fun m => (m.world.journal []).length) = some 2 := by
    decide +kernel
  have harrives : Arrives rounds (rounds.run 9 .null (.blank 1)).2 :=
    arrives_of_run rfl (by decide +kernel) ⟨_, (List.append_nil _).symm, by decide +kernel⟩
  -- what the first run leaves is resumed
  obtain ⟨i, m, t, hlast, -, hreads, hleaves, -⟩ :=
    leaves_fault hflat rounds_spares (.first rfl) (Session.agrees_plain _ _ _) hs hf
  have hresumes := hleaves.resumes
  have hagrees : rounds.session.Agrees (rounds.run 9 .null (.blank 1)).2 := Session.agrees_plain _ _ _
  generalize (rounds.run 9 .null (.blank 1)).2 = w at *
  have hconfirms : rounds.session.Confirms [] w := Session.confirms_of_agrees hresumes.opens.reads hagrees
  obtain ⟨m', w₁, hload, rfl, hm', -⟩ :=
    Session.load_of_opens [] hresumes.opens hagrees fun message => rounds_spares (.question message)
  have hhead : AtHead rounds 9 [] [] .null ⟨w, []⟩ 9 _ _ := .first (starts_of_load hload)
  have hnone : SavesSucceed ([] : List (Moment Nat)) := List.forall_mem_nil _
  obtain ⟨hlength, -, hcursor, hsaved⟩ := aligned_at_heads rounds_leavesFile harrives hconfirms hhead
    (opened_savesSucceed rounds _ _ hnone) (opened_onward rounds _ _ _ _)
  refine ⟨_, _, hhead, ?_, hlength, hcursor, hsaved⟩
  rw [hlast, Option.map_some, Option.some.injEq] at hcount
  unfold loaded
  rw [hload]
  dsimp only
  rw [journal_of_model hm', Timeline.cursor_of_isDone hresumes.numbered hresumes.done, hreads.length_eq, hcount]
  rfl

/-- A journal whose only record is numbered like a second one. -/
def swapped : Model := ⟨"swapping", [⟨.int 1, "A", "key_frame", .int 0, .bool true, .int 1⟩]⟩

/-- Puts another journal into the file of the run before it fails. -/
def swappingWork : Code Unit Value := fun w =>
  (.error (.raised .other "RuntimeError" "down"),
    ⟨w.disk.put (Session.plain none "swapping" : Session Unit).file (.file (Session.bytesOf swapped)), ()⟩)

def swapping : Board Unit := ⟨"swapping", .plain none "swapping", none, [.work .key "A" none none fun _ => swappingWork]⟩

theorem swapping_found :
    swapping.session.found (swapping.run 9 .null (.blank ())).2 = .ok (some swapped.reread) := by
  have hnode : (swapping.run 9 .null (.blank ())).2.disk.node? swapping.session.file =
      some (.file (Session.bytesOf swapped)) := rfl
  obtain ⟨d, hopened⟩ : ∃ d, swapping.session.opened (swapping.run 9 .null (.blank ())).2 = .ok d :=
    ok_of_toBool (by decide +kernel)
  have hvalid : ∀ r ∈ swapped.timeline, r.IsValid :=
    List.forall_mem_singleton.mpr ⟨⟨1, rfl⟩, ⟨true, rfl⟩, .inr ⟨1, rfl⟩⟩
  rw [Session.found_of_node hnode hopened]
  exact Session.runIn_bytesOf (by decide +kernel) hvalid

/-- A board may put another journal into the file of its own run. Then the next run has one record at its first head, and
its cursor says two. -/
theorem swapping_unaligned : ∃ c g, Arrives swapping (swapping.run 9 .null (.blank ())).2 ∧
    swapping.session.Confirms [] (swapping.run 9 .null (.blank ())).2 ∧
    AtHead swapping 9 [] [] .null ⟨(swapping.run 9 .null (.blank ())).2, []⟩ 9 c g ∧ SavesSucceed g.trace ∧
    Onward ⟨(swapping.run 9 .null (.blank ())).2, []⟩ g ∧ (g.world.journal []).length = 1 ∧ c = 2 := by
  have harrives : Arrives swapping (swapping.run 9 .null (.blank ())).2 :=
    arrives_of_run rfl (by decide +kernel) ⟨_, (List.append_nil _).symm, by decide +kernel⟩
  have hfound := swapping_found
  have hagrees : swapping.session.Agrees (swapping.run 9 .null (.blank ())).2 := Session.agrees_plain _ _ _
  generalize (swapping.run 9 .null (.blank ())).2 = w at *
  have hreads : ∃ o, (swapping.session.readFile w).1 = .ok o := by
    rw [Session.found_eq] at hfound
    cases hr : (swapping.session.readFile w).1 with
    | ok o => exact ⟨o, rfl⟩
    | error f =>
      rw [hr] at hfound
      cases hfound
  obtain ⟨w₁, hload, hmodel⟩ := Session.load_of_found hfound hagrees []
  refine ⟨_, _, harrives, Session.confirms_of_agrees hreads hagrees, .first (starts_of_load hload),
    opened_savesSucceed swapping _ _ (List.forall_mem_nil _), opened_onward swapping _ _ _ _, ?_, ?_⟩
  · rw [hload]
    exact (congrArg List.length (journal_of_model hmodel)).trans rfl
  · unfold loaded
    rw [hload]
    dsimp only
    rw [journal_of_model hmodel]
    rfl

end Board

end Boardwalk
