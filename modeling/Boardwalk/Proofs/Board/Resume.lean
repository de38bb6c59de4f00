import Boardwalk.Proofs.Board.Turn
import Boardwalk.Proofs.Record.Numbered
/-!
# What a run leaves for the next one

A run walks on from the journal that its file stores (`run_walks`), and what holds when it sets in and is preserved
by its steps holds where the last one sets in (`run_ends`). Between two steps the journal of a board without story
frames is numbered, its records are done, and its file stores it (`Stands`). So does the file that a run leaves,
however it ends (`run_cases`), and the next run goes on from there.
-/

namespace Boardwalk

def Ending.isRaised : Ending → Bool
  | .raised _ => true
  | _ => false

theorem Ending.exists_fault {e : Ending} (h : e.isRaised = true) : ∃ f, e = .raised f := by
  cases e with
  | raised f => exact ⟨f, rfl⟩
  | success => cases h
  | failure => cases h
  | unfinished => cases h

namespace Moment

variable {σ : Type}

def started? (m : Moment σ) : Option Int :=
  match m.event with
  | .started cursor => some cursor
  | _ => none

def stopped? (m : Moment σ) : Option Int :=
  match m.event with
  | .turned cursor (.halt (.raised _)) => some cursor
  | _ => none

end Moment

namespace Board

variable {σ : Type} {b : Board σ}

/-! ## The records of a step -/

theorem length_skipped (b : Board σ) (is : List Int) (t : Timeline) :
    (b.skipped t is).length = t.length + is.length := by
  induction is generalizing t with
  | nil => rfl
  | cons i is ih =>
    rw [skipped, ih, List.length_append, List.length_singleton, List.length_cons]
    omega

theorem skipped_numbered (b : Board σ) (is : List Int) {t : Timeline} (h : t.IsNumbered) :
    (b.skipped t is).IsNumbered := by
  induction is generalizing t with
  | nil => exact h
  | cons i is ih =>
    rw [skipped]
    exact ih (h.concat _ _ _ _ _)

theorem skipped_done (b : Board σ) (is : List Int) {t : Timeline} (h : t.IsDone) : (b.skipped t is).IsDone := by
  induction is generalizing t with
  | nil => exact h
  | cons i is ih =>
    rw [skipped]
    exact ih (h.concat _ _ _ _)

theorem length_between (cursor : Int) (k : Nat) : (between cursor k).length = ((k : Int) - (cursor + 1)).toNat := by
  unfold between
  rw [List.length_map, List.length_range]

section

variable {x : Value} {t t' : Timeline} {cursor : Int} {next : Option Int} {act : Option Nat}
  (h : Takes b x t cursor t' next act)
include h

theorem takes_numbered (hn : t.IsNumbered) : t'.IsNumbered := by
  cases h with
  | skip => exact hn.concat _ _ _ _ _
  | work => exact hn.concat _ _ _ _ _
  | stop => exact hn.concat _ _ _ _ _
  | jump => exact skipped_numbered b _ (hn.concat _ _ _ _ _)

theorem takes_done (hd : t.IsDone) : t'.IsDone := by
  cases h with
  | skip => exact hd.concat _ _ _ _
  | work => exact hd.concat _ _ _ _
  | stop => exact hd.concat _ _ _ _
  | jump => exact skipped_done b _ (hd.concat _ _ _ _)

theorem takes_length {c : Int} (hc : next = some c) :
    (t'.length : Int) = t.length + max 1 (c - cursor) := by
  cases h with
  | skip =>
    cases hc
    rw [List.length_append, List.length_singleton]
    omega
  | work =>
    cases hc
    rw [List.length_append, List.length_singleton]
    omega
  | stop =>
    split at hc
    · cases hc
    · cases hc
      rw [List.length_append, List.length_singleton]
      omega
  | jump hspot =>
    cases hc
    obtain ⟨-, hcursor, -⟩ := spot?_some hspot
    rw [length_skipped, length_between, hcursor, List.length_append, List.length_singleton]
    omega

theorem takes_nonneg (h₀ : 0 ≤ cursor) {c : Int} (hc : next = some c) : 0 ≤ c := by
  cases h with
  | skip =>
    cases hc
    omega
  | work =>
    cases hc
    omega
  | stop =>
    split at hc
    · cases hc
    · cases hc
      omega
  | jump =>
    cases hc
    omega

end

/-! ## Between two steps -/

structure Leaves (b : Board σ) (t : Timeline) (w : World σ) : Prop where
  ready : b.session.Ready w.held w.disk
  stores : b.session.Stores w.disk t
  numbered : t.IsNumbered
  done : t.IsDone

def Rereads (t t' : Timeline) : Prop := t' = t ∨ t' = t.map Record.reread

theorem Rereads.length_eq {t t' : Timeline} (h : Rereads t t') : t'.length = t.length := by
  rcases h with rfl | rfl
  · rfl
  · exact List.length_map _

structure Stands (b : Board σ) (a : Address) (m : Model) (w : World σ) : Prop where
  model : w.model? a = some m
  numbered : m.timeline.IsNumbered
  done : m.timeline.IsDone
  leaves : ∃ t, Rereads m.timeline t ∧ Leaves b t w

theorem Leaves.of_keeps {t : Timeline} {w w' : World σ} (h : Leaves b t w)
    (hk : b.session.Keeps w.disk w'.disk) (hh : w'.held = w.held) : Leaves b t w' := by
  refine ⟨?_, h.stores.of_keeps hk, h.numbered, h.done⟩
  rw [hh]
  exact h.ready.of_keeps hk

theorem stands_journals {a : Address} {m : Model} {rs : Timeline} {w w' : World σ}
    (hj : Journals b a m rs w w') (hr : b.session.Ready w.held w.disk) (hn : (m.timeline ++ rs).IsNumbered)
    (hd : (m.timeline ++ rs).IsDone) : Stands b a ⟨m.board, m.timeline ++ rs⟩ w' := by
  have hready : b.session.Ready w'.held w'.disk := by
    rw [hj.held]
    exact hr.of_stays hj.stays
  exact ⟨hj.model, hn, hd, _, .inr rfl, hready, hj.holds.stores hn.valid, hn.reread, hd.reread⟩

section

variable (hspares : ∀ {code}, b.Calls code → b.session.Spares code) {a : Address} {enters : List (Enter σ)}
  {ls : List (Level σ)} {x : Value} {cursor : Int} {m : Model} {g g' : Stage σ}
include hspares

/-- **A step that goes on leaves the journal standing.** -/
theorem stands_next {c : Int} (h : Stands b a m g.world) (ht : TurnsTo b enters ls a x cursor m g (.next c) g') :
    ∃ rs act, Takes b x m.timeline cursor (m.timeline ++ rs) (some c) act ∧
      Stands b a ⟨m.board, m.timeline ++ rs⟩ g'.world ∧ Notes act.toList g g' := by
  cases ht with
  | @next _ act rs g₁ _ he htake hj hn =>
    obtain ⟨t, -, hl⟩ := h.leaves
    have hl₁ := hl.of_keeps (he.runs.keeps hspares) he.runs.held
    have hstands := stands_journals hj hl₁.ready (takes_numbered htake h.numbered) (takes_done htake h.done)
    exact ⟨rs, act, htake, hstands, he.notes.trans hn⟩

theorem stands_ended (h : Stands b a m g.world) (ht : TurnsTo b enters ls a x cursor m g (.halt .ended) g')
    (hflat : b.IsFlat) :
    ∃ rs, Takes b x m.timeline cursor (m.timeline ++ rs) none none ∧
      Stands b a ⟨m.board, m.timeline ++ rs⟩ g'.world ∧ Notes [] g g' := by
  generalize hturn : Turn.halt .ended = turn at ht
  cases ht with
  | @ended rs g₁ _ he htake hj hn =>
    obtain ⟨t, -, hl⟩ := h.leaves
    have hl₁ := hl.of_keeps (he.runs.keeps hspares) he.runs.held
    have hstands := stands_journals hj hl₁.ready (takes_numbered htake h.numbered) (takes_done htake h.done)
    exact ⟨rs, htake, hstands, he.notes.trans hn⟩
  | story hspot hf => exact absurd hf (hflat.frame_ne hspot)
  | raised => cases hturn
  | lost => cases hturn
  | next => cases hturn
  | closed => cases hturn

/-- A step that raises a fault leaves the disk as the run needs it, and journals nothing. -/
theorem leaves_raised {f : Fault} (ht : TurnsTo b enters ls a x cursor m g (.halt (.raised f)) g')
    (hflat : b.IsFlat) :
    Notes [] g g' ∧ ∀ t, Leaves b t g.world → Leaves b t g'.world := by
  generalize hturn : Turn.halt (.raised f) = turn at ht
  cases ht with
  | raised hr => exact ⟨hr.notes, fun t hl => hl.of_keeps (hr.runs.keeps hspares) hr.runs.held⟩
  | lost _ _ _ he ha =>
    obtain ⟨rs, ha⟩ := ha
    refine ⟨he.notes, fun t hl => (hl.of_keeps (he.runs.keeps hspares) he.runs.held).of_keeps ?_ ha.held⟩
    rw [Stage.withWorld_world, ha.disk]
    exact .refl _ _
  | story hspot hf => exact absurd hf (hflat.frame_ne hspot)
  | ended => cases hturn
  | next => cases hturn
  | closed => cases hturn

end

/-! ## Runs -/

/-- Between two runs the place of the session stays as it is. -/
structure Follows (b : Board σ) (w w' : World σ) : Prop where
  keeps : b.session.Keeps w.disk w'.disk
  held : w'.held = w.held

structure Resumes (b : Board σ) (t : Timeline) (w : World σ) : Prop where
  opens : b.session.Opens w t
  numbered : t.IsNumbered
  done : t.IsDone

theorem Leaves.follows {t : Timeline} {w w' : World σ} (h : Leaves b t w) (hf : Follows b w w') : Leaves b t w' :=
  h.of_keeps hf.keeps hf.held

theorem resumes_nothing {w : World σ} (h : (b.session.readFile w).1 = .ok none) : Resumes b [] w :=
  ⟨Session.opens_nothing h, Timeline.isNumbered_nil, Timeline.isDone_nil⟩

theorem Leaves.resumes {t : Timeline} {w : World σ} (h : Leaves b t w) : Resumes b t w :=
  ⟨Session.opens_of_ready h.ready h.stores, h.numbered, h.done⟩

theorem enterBoard_loaded {m : Model} {w w₁ : World σ} (h : b.session.load [] w = (.ok (.ok m), w₁)) (limit : Nat)
    (x : Value) : enterBoard limit [] b [] x ⟨w, []⟩ =
      b.walk (enterFrames limit [] 0 b.frames) limit [⟨b, [], w₁⟩] [] (givenContext x) ⟨w₁, []⟩ := by
  rw [enterBoard_eq]
  unfold runWith
  rw [h]
  rfl

theorem started_of_load {m : Model} {w w₁ : World σ} (h : b.session.load [] w = (.ok (.ok m), w₁))
    (hm : w₁.model? [] = some m) (limit : Nat) (x : Value) :
    ∃ moment, (b.trace limit x w).head? = some moment ∧ moment.event = .started m.timeline.cursor ∧
      moment.world.model? [] = some m := by
  have hext : Extends (b.opened [⟨b, [], w₁⟩] [] ⟨w₁, []⟩) (enterBoard limit [] b [] x ⟨w, []⟩).2 := by
    have hsteps := steps_extends limit b [] [⟨b, [], w₁⟩] (givenContext x) (b.opened [⟨b, [], w₁⟩] [] ⟨w₁, []⟩) limit
      (w₁.journal []).cursor
    rw [enterBoard_loaded h, walk_eq]
    exact extends_closed.trans hsteps (close_extends ..)
  obtain ⟨ms, hms⟩ := hext
  refine ⟨⟨[⟨b, [], w₁⟩], .started (w₁.journal []).cursor, w₁⟩, ?_, ?_, hm⟩
  · unfold trace
    rw [hms, List.reverse_append]
    rfl
  · dsimp only
    rw [journal_of_model hm]

section

variable (hspares : ∀ {code}, b.Calls code → b.session.Spares code)
include hspares

/-- **A run goes on with the journal that the disk stores.** -/
theorem run_walks {t : Timeline} {w : World σ} (h : b.session.Opens w t) (ha : b.session.Agrees w) (limit : Nat)
    (x : Value) : ∃ m w₁, m.timeline = t ∧ w₁.model? [] = some m ∧ b.session.Ready w₁.held w₁.disk ∧
      b.session.Stores w₁.disk t ∧ enterBoard limit [] b [] x ⟨w, []⟩ =
        b.walk (enterFrames limit [] 0 b.frames) limit [⟨b, [], w₁⟩] [] (givenContext x) ⟨w₁, []⟩ := by
  obtain ⟨m, w₁, hl, ht, hm, hready, hstores⟩ :=
    Session.load_of_opens [] h ha fun message => hspares (.question message)
  exact ⟨m, w₁, ht, hm, hready, hstores, enterBoard_loaded hl limit x⟩

/-- **What holds of a run wherever it takes a frame**: if it holds at first, and the steps that go on preserve it, it
holds where the last step sets in. -/
theorem run_ends {t : Timeline} {w : World σ} {limit : Nat} {x : Value} (h : b.session.Opens w t)
    (ha : b.session.Agrees w) (hs : SavesSucceed (b.trace limit x w)) {P : Nat → Int → Model → Stage σ → Prop}
    (hmodel : ∀ {n cursor m g}, P n cursor m g → g.world.model? [] = some m ∧ 0 ≤ cursor)
    (hfirst : ∀ {m g ls w₁}, m.timeline = t → g.world.model? [] = some m →
      b.session.Ready g.world.held g.world.disk → b.session.Stores g.world.disk t →
      g.trace = [⟨ls, .started t.cursor, w₁⟩] → P limit t.cursor m g)
    (hnext : ∀ {n cursor c m g g' ls}, P (n + 1) cursor m g → cursor < b.frames.length →
      TurnsTo b (enterFrames limit [] 0 b.frames) ls [] (givenContext x) cursor m g (.next c) g' →
      ∃ m', P n c m' (g'.record ⟨ls, .turned cursor (.next c), g.world⟩)) :
    ∃ ls n cursor m g halt g', P n cursor m g ∧ SavesSucceed g'.trace ∧
      Ends b (enterFrames limit [] 0 b.frames) ls [] (givenContext x) n cursor g halt g' ∧
      enterBoard limit [] b [] x ⟨w, []⟩ = b.close ls [] (halt, g') := by
  obtain ⟨m, w₁, rfl, hm, hready, hstores, hwalk⟩ := run_walks hspares h ha limit x
  have hjournal : (w₁.journal []).cursor = m.timeline.cursor := by rw [journal_of_model hm]
  rw [walk_eq] at hwalk
  dsimp only at hwalk
  rw [hjournal] at hwalk
  cases hsteps : b.steps (enterFrames limit [] 0 b.frames) [⟨b, [], w₁⟩] [] (givenContext x) limit m.timeline.cursor
      (b.opened [⟨b, [], w₁⟩] [] ⟨w₁, []⟩) with
  | mk halt g' =>
    rw [hsteps] at hwalk
    have hs' : SavesSucceed g'.trace := by
      refine SavesSucceed.of_extends (fun m hm => ?_) (close_extends b [] [⟨b, [], w₁⟩] g' halt)
      rw [← hwalk] at hm
      exact hs m (List.mem_reverse.mpr hm)
    have htrace : (b.opened [⟨b, [], w₁⟩] [] ⟨w₁, []⟩).trace = [⟨[⟨b, [], w₁⟩], .started m.timeline.cursor, w₁⟩] := by
      rw [← hjournal]
      rfl
    have hopened := hfirst (g := b.opened [⟨b, [], w₁⟩] [] ⟨w₁, []⟩) rfl hm hready hstores htrace
    have hlast := steps_ends (P := fun n cursor g => ∃ m, P n cursor m g)
      (extends_closed.enterFrames fun p c _ => extends_closedAt c ([] ++ p)) ?_ limit ⟨m, hopened⟩ hsteps
    · obtain ⟨n, cursor, g, ⟨m', hp⟩, hends⟩ := hlast
      exact ⟨_, n, cursor, m', g, halt, g', hp, hs', hends, hwalk⟩
    · rintro n cursor c g g₁ ⟨m', hp⟩ hlt hturn hext
      obtain ⟨hm', h₀⟩ := hmodel hp
      exact hnext hp hlt (turnsTo_of_turn hm' h₀ hlt hturn
        ((hs'.of_extends hext).of_extends (extends_closed.record _ _)))

def endOf (b : Board σ) (t : Timeline) : Ending :=
  match b.resolve t with
  | .error f => .failure f
  | .ok o => .success o

omit hspares in
theorem endOf_ne_raised (t : Timeline) (f : Fault) : b.endOf t ≠ .raised f := by
  unfold endOf
  intro h
  split at h
  · cases h
  · cases h

omit hspares in
theorem leaves_clear {a : Address} {t : Timeline} {w : World σ} (h : Leaves b t w) :
    ∃ r w' t', b.session.clear a w = (.ok r, w') ∧ Leaves b t' w' := by
  obtain ⟨r, w', hc, hd⟩ := Session.clear_of_ready h.ready a
  have hheld := Session.clear_held b.session a w
  have hstays := Session.stays_clear b.session a w
  rw [hc] at hheld hstays
  have hready : b.session.Ready w'.held w'.disk := by
    rw [show w'.held = w.held from hheld]
    exact h.ready.of_stays hstays
  rcases hd with hd | hn
  · refine ⟨r, w', t, hc, hready, ?_, h.numbered, h.done⟩
    rw [hd]
    exact h.stores
  · refine ⟨r, w', [], hc, hready, .nothing ?_, Timeline.isNumbered_nil, Timeline.isDone_nil⟩
    rw [hn]
    rfl

omit hspares in
theorem finish_stands (hflat : b.IsFlat) (ls : List (Level σ)) {a : Address} {m : Model} {g : Stage σ}
    (h : Stands b a m g.world) :
    (b.finish ls a g).1 = b.endOf m.timeline ∧ (b.finish ls a g).2.trace = ⟨ls, .finished, g.world⟩ :: g.trace ∧
      ∃ t, Leaves b t (b.finish ls a g).2.world := by
  obtain ⟨t, -, hl⟩ := h.leaves
  obtain ⟨r, w', t', hc, hl'⟩ := leaves_clear (a := a) hl
  have hall : b.clearAll a (g.note ls .finished).world = (.ok (), w') := by
    unfold clearAll
    rw [hflat.stories, List.map_nil, clearEach, Stage.note_world, hc]
    rfl
  unfold finish endOf
  dsimp only
  rw [Stage.note_world, journal_of_model h.model]
  cases b.resolve m.timeline with
  | error f => exact ⟨rfl, rfl, t, hl.of_keeps (.refl _ _) rfl⟩
  | ok o =>
    rw [Stage.note_world] at hall
    dsimp only
    rw [hall]
    exact ⟨rfl, rfl, t', hl'.of_keeps (.refl _ _) rfl⟩

/-- What a run amounts to, if something holds whenever it is about to take a frame. -/
inductive RunsTo (b : Board σ) (x : Value) (P : Nat → Int → Model → Stage σ → Prop) : Ending → Stage σ → Prop where
  | raised {n : Nat} {cursor : Int} {m : Model} {g g' : Stage σ} {enters : List (Enter σ)} {ls : List (Level σ)}
      {f : Fault} : P (n + 1) cursor m g → cursor < b.frames.length → Stands b [] m g.world →
      TurnsTo b enters ls [] x cursor m g (.halt (.raised f)) g' →
      (∃ t, Rereads m.timeline t ∧ Leaves b t g'.world) →
      RunsTo b x P (.raised f) (g'.record ⟨ls, .turned cursor (.halt (.raised f)), g.world⟩)
  | unfinished {cursor : Int} {m : Model} {g : Stage σ} : P 0 cursor m g → cursor < b.frames.length →
      Stands b [] m g.world → RunsTo b x P .unfinished g
  | past {n : Nat} {cursor : Int} {m : Model} {g g' : Stage σ} {ls : List (Level σ)} : P n cursor m g →
      (b.frames.length : Int) ≤ cursor → Stands b [] m g.world →
      g'.trace = ⟨ls, .finished, g.world⟩ :: g.trace → (∃ t, Leaves b t g'.world) → RunsTo b x P (b.endOf m.timeline) g'
  | stopped {n : Nat} {cursor : Int} {m : Model} {rs : Timeline} {g g₁ g' : Stage σ} {ls : List (Level σ)} :
      P (n + 1) cursor m g → cursor < b.frames.length →
      Takes b x m.timeline cursor (m.timeline ++ rs) none none → Notes [] g g₁ →
      Stands b [] ⟨m.board, m.timeline ++ rs⟩ g₁.world →
      g'.trace = ⟨ls, .finished, g₁.world⟩ :: ⟨ls, .turned cursor (.halt .ended), g.world⟩ :: g₁.trace →
      (∃ t, Leaves b t g'.world) → RunsTo b x P (b.endOf (m.timeline ++ rs)) g'

/-- **What a run amounts to** that goes on with a journal, if its saves succeed: what holds at first and is preserved
by the steps that go on holds where the run ends. -/
theorem run_cases (hflat : b.IsFlat) {t : Timeline} {w : World σ} {limit : Nat} {x : Value} (h : Resumes b t w)
    (ha : b.session.Agrees w) (hs : SavesSucceed (b.trace limit x w)) {P : Nat → Int → Model → Stage σ → Prop}
    (hfirst : ∀ {m g ls w₁}, m.timeline = t → Stands b [] m g.world →
      g.trace = [⟨ls, .started t.length, w₁⟩] → P limit t.length m g)
    (hpos : ∀ {n cursor m g}, P n cursor m g → 0 ≤ cursor)
    (hnext : ∀ {n cursor c m rs act g g' ls}, P (n + 1) cursor m g → cursor < b.frames.length →
      Takes b (givenContext x) m.timeline cursor (m.timeline ++ rs) (some c) act → Notes act.toList g g' →
      P n c ⟨m.board, m.timeline ++ rs⟩ (g'.record ⟨ls, .turned cursor (.next c), g.world⟩)) :
    RunsTo b (givenContext x) P (enterBoard limit [] b [] x ⟨w, []⟩).1 (enterBoard limit [] b [] x ⟨w, []⟩).2 := by
  have hcursor : t.cursor = t.length := Timeline.cursor_of_isDone h.numbered h.done
  have hlast := run_ends hspares (P := fun n cursor m g => Stands b [] m g.world ∧ P n cursor m g) h.opens ha hs
    ?_ ?_ ?_
  · obtain ⟨ls, n, cursor, m, g, halt, g', ⟨hstands, hp⟩, hs', hends, henter⟩ := hlast
    rw [henter]
    cases hends with
    | past hle =>
      obtain ⟨hending, htrace, hleaves⟩ := finish_stands hflat ls hstands
      dsimp only [close]
      rw [hending]
      exact .past hp hle hstands htrace hleaves
    | limit hlt => exact .unfinished hp hlt hstands
    | halt hlt hturn =>
      have ht := turnsTo_of_turn hstands.model (hpos hp) hlt hturn (hs'.of_extends (extends_closed.record _ _))
      cases halt with
      | raised f =>
        obtain ⟨t', hreads, hleaves⟩ := hstands.leaves
        exact .raised hp hlt hstands ht ⟨t', hreads, (leaves_raised hspares ht hflat).2 t' hleaves⟩
      | unfinished =>
        generalize hhalt : Turn.halt .unfinished = turn at ht
        cases ht with
        | story hspot hf => exact absurd hf (hflat.frame_ne hspot)
        | closed hspot hf => exact absurd hf (hflat.frame_ne hspot)
        | raised => cases hhalt
        | lost => cases hhalt
        | next => cases hhalt
        | ended => cases hhalt
      | ended =>
        rename_i n g₁
        obtain ⟨rs, htake, hstands', hnotes⟩ := stands_ended hspares hstands ht hflat
        have hrecorded : Stands b [] ⟨m.board, m.timeline ++ rs⟩
            (g₁.record ⟨ls, .turned cursor (.halt .ended), g.world⟩).world := hstands'
        obtain ⟨hending, htrace, hleaves⟩ := finish_stands hflat ls hrecorded
        dsimp only [close]
        rw [hending]
        exact .stopped hp hlt htake hnotes hstands' htrace hleaves
  · exact fun {n cursor m g} h => ⟨h.1.model, hpos h.2⟩
  · intro m g ls w₁ ht hm hready hstores htrace
    rw [hcursor] at htrace ⊢
    have hstands : Stands b [] m g.world := by
      rw [← ht] at h hstores
      exact ⟨hm, h.numbered, h.done, m.timeline, .inl rfl, hready, hstores, h.numbered, h.done⟩
    exact ⟨hstands, hfirst ht hstands htrace⟩
  · rintro n cursor c m g g' ls ⟨hstands, hp⟩ hlt ht
    obtain ⟨rs, act, htake, hstands', hnotes⟩ := stands_next hspares hstands ht
    exact ⟨_, hstands', hnext hp hlt htake hnotes⟩

omit hspares in
theorem RunsTo.leaves {x : Value} {P : Nat → Int → Model → Stage σ → Prop} {e : Ending} {g : Stage σ}
    (h : RunsTo b x P e g) : ∃ t, Leaves b t g.world := by
  cases h with
  | raised _ _ _ _ hl =>
    obtain ⟨t, -, hl⟩ := hl
    exact ⟨t, hl⟩
  | unfinished _ _ hstands =>
    obtain ⟨t, -, hl⟩ := hstands.leaves
    exact ⟨t, hl⟩
  | past _ _ _ _ hl => exact hl
  | stopped _ _ _ _ _ _ hl => exact hl

/-- **A run starts at the cursor of the journal that the disk stores.** -/
theorem run_started {t : Timeline} {w : World σ} (h : b.session.Opens w t) (ha : b.session.Agrees w) (limit : Nat)
    (x : Value) :
    ∃ m, (b.trace limit x w).head? = some m ∧ m.event = .started t.cursor ∧ m.world.journal [] = t := by
  obtain ⟨m, w₁, hl, rfl, hm, -, -⟩ :=
    Session.load_of_opens [] h ha fun message => hspares (.question message)
  obtain ⟨moment, hhead, hevent, hmodel⟩ := started_of_load hl hm limit x
  exact ⟨moment, hhead, hevent, journal_of_model hmodel⟩

end

end Board

end Boardwalk
