import Boardwalk.Proofs.Board.Recount
/-!
# Where frames are read

A walk goes on behind the frame that it took, or where a jump leads, and it is over behind the last frame. So it
never reads behind the list, and before it just if it starts there (`reads_inside_iff`). Where it starts is decided by
the last record of the journal that was loaded, which may have any number.
-/

namespace Boardwalk

variable {σ : Type}

/-- A walk over this journal starts at a frame, or behind the last one. -/
def Timeline.StartsInside (t : Timeline) : Prop :=
  ∀ r ∈ t.getLast?, if r.isCompleted then -1 ≤ r.position else 0 ≤ r.position

theorem Timeline.cursor_nonneg_iff (t : Timeline) : 0 ≤ t.cursor ↔ t.StartsInside := by
  unfold cursor StartsInside
  cases t.getLast? with
  | none => simp [cursorAfter, Value.wholeNumber?]
  | some r =>
    simp only [cursorAfter, Option.mem_def, Option.some.injEq, forall_eq']
    split
    · rw [Value.wholeNumber?, Option.getD_some]
      omega
    · exact Iff.rfl

def Moment.read? (m : Moment σ) : Option Int :=
  match m.event with
  | .turned cursor _ => some cursor
  | _ => none

def Moment.Reads (m : Moment σ) (L : Level σ) (cursor : Int) : Prop := L ∈ m.levels.head? ∧ m.read? = some cursor

namespace Board

/-- Behind the last frame nothing is read, and before the first one only if the walk starts there; then the first
read is among these moments. -/
def WithinReach (ms : List (Moment σ)) (m : Moment σ) : Prop :=
  ∀ L cursor, m.Reads L cursor → cursor < L.board.frames.length ∧
    ((L.start.journal L.address).StartsInside → 0 ≤ cursor) ∧
    ∃ m' ∈ ms, m'.Reads L (L.start.journal L.address).cursor

def StaysInReach (g g' : Stage σ) : Prop := ∃ ms, g'.trace = ms ++ g.trace ∧ ∀ m ∈ ms, WithinReach g'.trace m

theorem WithinReach.mono {ms ms' : List (Moment σ)} {m : Moment σ} (h : WithinReach ms m) (hms : ms ⊆ ms') :
    WithinReach ms' m := by
  intro L cursor hr
  obtain ⟨hlt, hc, m', hm', hfirst⟩ := h L cursor hr
  exact ⟨hlt, hc, m', hms hm', hfirst⟩

theorem StaysInReach.of_trace {g g' : Stage σ} (h : g'.trace = g.trace) : StaysInReach g g' :=
  ⟨[], h, fun _ hm => absurd hm List.not_mem_nil⟩

theorem StaysInReach.trans {g g' g'' : Stage σ} (h : StaysInReach g g') (h' : StaysInReach g' g'') :
    StaysInReach g g'' := by
  obtain ⟨ms, ht, hms⟩ := h
  obtain ⟨ms', ht', hms'⟩ := h'
  refine ⟨ms' ++ ms, by rw [ht', ht, List.append_assoc], fun m hm => ?_⟩
  rcases List.mem_append.mp hm with hm | hm
  · exact hms' m hm
  · rw [ht']
    exact (hms m hm).mono (List.subset_append_right ..)

theorem StaysInReach.record {g g' : Stage σ} {m : Moment σ} (h : g'.trace = m :: g.trace)
    (hm : WithinReach g'.trace m) : StaysInReach g g' := by
  refine ⟨[m], h, fun m' hm' => ?_⟩
  rw [List.mem_singleton.mp hm']
  exact hm

theorem StaysInReach.other {g g' : Stage σ} {m : Moment σ} (h : g'.trace = m :: g.trace)
    (hm : m.read? = none) : StaysInReach g g' :=
  .record h fun _ _ hr => nomatch hm.symm.trans hr.2

theorem reach_within : ClosedWithin (fun _ => True) (@StaysInReach σ) where
  refl _ := .of_trace rfl
  trans := .trans
  note g ls _ e he := by
    refine .other (m := ⟨ls, e, g.world⟩) rfl ?_
    cases e with
    | turned => cases he
    | _ => rfl
  report _ _ := .of_trace rfl

theorem reach_closedAt (b : Board σ) (a : Address) : ClosedAt StaysInReach b a where
  call _ _ := .of_trace rfl
  journal _ _ := .of_trace rfl
  save _ := .of_trace rfl
  load _ := .of_trace rfl
  clear _ := .of_trace rfl

/-! ## Walks -/

section

variable {L : Level σ} {above : List (Level σ)} {limit : Nat}
  (henters : ∀ enter ∈ enterFrames limit L.address 0 L.board.frames, ∀ ls x g, StaysInReach g (enter ls x g).2)
include henters

/-- **The steps of a walk stay in reach.** What carries it: the walk is where it starts, or it has read the frame
there and is at a frame by now if it was then. -/
theorem steps_reach (x : Value) (n : Nat) : ∀ {m : Model} {cursor : Int} {g : Stage σ},
    g.world.model? L.address = some m → ((L.start.journal L.address).StartsInside → 0 ≤ cursor) →
    (cursor = (L.start.journal L.address).cursor ∨
      ∃ m ∈ g.trace, m.Reads L (L.start.journal L.address).cursor) →
    StaysInReach g
      (L.board.steps (enterFrames limit L.address 0 L.board.frames) (L :: above) L.address x n cursor g).2 := by
  induction n with
  | zero =>
    intro m cursor g _ _ _
    unfold steps
    split
    · exact .of_trace rfl
    · exact .of_trace rfl
  | succ n ih =>
    intro m cursor g hm hc hfirst
    have hturn : StaysInReach g
        (L.board.turn (enterFrames limit L.address 0 L.board.frames) (L :: above) L.address x cursor g).2 :=
      ((reach_closedAt L.board L.address).advances reach_within trivial).turn (fun enter hmem => henters enter hmem _)
        x cursor g
    obtain ⟨ms, rs, hdoes⟩ : ∃ ms rs, Does L.board (L :: above) L.address 0 x cursor m g ms rs _ _ :=
      turn_does hm (Nat.zero_le _) limit x cursor
    unfold steps
    split
    · exact .of_trace rfl
    · rename_i hlt
      -- the read itself is the first one, or an earlier one is, which is still on record
      have hread : ∀ {g' : Stage σ} (turn : Turn), StaysInReach g g' →
          ∃ m ∈ (g'.record ⟨L :: above, .turned cursor turn, g.world⟩).trace,
            m.Reads L (L.start.journal L.address).cursor := by
        rintro g' turn ⟨ms, ht, -⟩
        rcases hfirst with rfl | ⟨m', hm', hfirst⟩
        · exact ⟨_, List.mem_cons_self, rfl, rfl⟩
        · refine ⟨m', List.mem_cons_of_mem _ ?_, hfirst⟩
          rw [ht]
          exact List.mem_append_right _ hm'
      have hrecord : ∀ {g' : Stage σ} (turn : Turn), StaysInReach g g' →
          StaysInReach g (g'.record ⟨L :: above, .turned cursor turn, g.world⟩) := by
        intro g' turn hg
        refine hg.trans (.record rfl ?_)
        rintro L' cursor' ⟨hL, hc'⟩
        cases hL
        cases hc'
        exact ⟨Int.not_le.mp hlt, hc, hread turn hg⟩
      dsimp only
      split
      · rename_i h
        rw [h] at hturn
        exact hrecord _ hturn
      · rename_i c _ h
        rw [h] at hturn hdoes
        refine (hrecord (.next c) hturn).trans (ih (m := ⟨m.board, m.timeline ++ rs⟩) hdoes.model ?_ ?_)
        · exact fun hs => (hdoes.tells.goes_on rfl (hc hs)).1
        · exact .inr (hread _ hturn)

theorem walk_reach {m : Model} {g : Stage σ} (hm : g.world.model? L.address = some m) (hg : g.world = L.start)
    (n : Nat) (x : Value) : StaysInReach g
      (L.board.walk (enterFrames limit L.address 0 L.board.frames) n (L :: above) L.address x g).2 := by
  have hstarted : StaysInReach g (g.note (L :: above) (.started (g.world.journal L.address).cursor)) := .other rfl rfl
  have hopened : StaysInReach g (L.board.opened (L :: above) L.address g) := hstarted.trans (.of_trace rfl)
  have hsteps : StaysInReach (L.board.opened (L :: above) L.address g)
      (L.board.steps (enterFrames limit L.address 0 L.board.frames) (L :: above) L.address x n
        (g.world.journal L.address).cursor (L.board.opened (L :: above) L.address g)).2 := by
    refine steps_reach henters x n hm ?_ (.inl ?_)
    · rw [hg]
      exact (Timeline.cursor_nonneg_iff _).mpr
    · rw [hg]
  rw [walk_eq]
  generalize L.board.steps (enterFrames limit L.address 0 L.board.frames) (L :: above) L.address x n
    (g.world.journal L.address).cursor (L.board.opened (L :: above) L.address g) = result at hsteps ⊢
  obtain ⟨halt, g'⟩ := result
  refine (hopened.trans hsteps).trans ?_
  cases halt with
  | raised f => exact .of_trace rfl
  | unfinished => exact .of_trace rfl
  | ended => exact .other (finish_trace L.board (L :: above) L.address g') rfl

end

/-! ## Runs -/

theorem enterBoard_reach (limit : Nat) (b : Board σ) : ∀ (a : Address) (ls : List (Level σ)) (x : Value) (g : Stage σ),
    StaysInReach g (enterBoard limit a b ls x g).2 := by
  induction b using Board.induction with
  | step b ih =>
    intro a ls x g
    have henters : ∀ enter ∈ enterFrames limit a 0 b.frames, ∀ ls x g, StaysInReach g (enter ls x g).2 := by
      intro enter hm ls' x' g'
      rcases mem_enterFrames hm with ⟨i, c, condition, provider, hf, rfl⟩ | rfl
      · exact ih i c condition provider hf (a ++ [i]) ls' x' g'
      · exact .of_trace rfl
    rw [enterBoard_eq]
    rcases runWith_cases b (enterFrames limit a 0 b.frames) limit a ls x g with
      ⟨f, w, -, hr⟩ | ⟨f, w, -, -, hr⟩ | ⟨loaded, w, hload, hr⟩
    · rw [hr]
      exact .of_trace rfl
    · rw [hr]
      exact .of_trace rfl
    · rw [hr]
      obtain ⟨m, hm⟩ := Session.load_model hload
      exact .trans (.of_trace rfl) (walk_reach (L := ⟨b, a, w⟩) henters hm rfl limit (givenContext x))

/-- **Frames are read inside the list, just if every board that reads one starts inside it**, that is, just if the
journal that it loads is empty, or its last record has a number from zero on, or from minus one on if it is done.
Behind the list no board reads in any case, and a board that starts inside it reads inside it. -/
theorem reads_inside_iff (b : Board σ) (limit : Nat) (x : Value) (w : World σ) :
    (∀ m ∈ b.trace limit x w, ∀ L cursor, m.Reads L cursor →
      cursor < L.board.frames.length ∧ ((L.start.journal L.address).StartsInside → 0 ≤ cursor)) ∧
    ((∀ m ∈ b.trace limit x w, ∀ L cursor, m.Reads L cursor → 0 ≤ cursor ∧ cursor < L.board.frames.length) ↔
      ∀ m ∈ b.trace limit x w, ∀ L cursor, m.Reads L cursor → (L.start.journal L.address).StartsInside) := by
  obtain ⟨ms, ht, hms⟩ := enterBoard_reach limit b [] [] x ⟨w, []⟩
  rw [List.append_nil] at ht
  unfold trace
  simp only [List.mem_reverse, ht] at hms ⊢
  refine ⟨fun m hm L cursor hr => ?_, fun h m hm L cursor hr => ?_, fun h m hm L cursor hr => ?_⟩
  · obtain ⟨hlt, hc, -⟩ := hms m hm L cursor hr
    exact ⟨hlt, hc⟩
  · obtain ⟨-, -, m', hm', hfirst⟩ := hms m hm L cursor hr
    exact (Timeline.cursor_nonneg_iff _).mp (h m' hm' L _ hfirst).1
  · obtain ⟨hlt, hc, -⟩ := hms m hm L cursor hr
    exact ⟨hc (h m hm L cursor hr), hlt⟩

def single : Board Unit :=
  ⟨"b", .plain none "b", none, [.work .key "A" none none fun _ w => (.ok (.str "A"), w.scene)]⟩

def stray : Model := ⟨"b", [⟨.int (-3), "A", "key_frame", .str "A", .bool true, .int 0⟩]⟩

/-- The file holds a record that is numbered from below. -/
def strayed : World Unit :=
  { World.blank () with disk := ⟨[(single.session.file, .file (stray.bytes?.getD ByteArray.empty))]⟩ }

/-- The record is loaded, and the run reads a frame before the first one counted from the end. -/
theorem single_reads_outside :
    ((single.session.load [] strayed).1 matches .ok (.ok _)) ∧
      ((single.session.load [] strayed).2.journal []).map Record.position = [-3] ∧
      (∃ m ∈ single.trace 9 .null strayed, m.levels.length = 1 ∧ m.read? = some (-2)) ∧
      (single.run 9 .null strayed).1 matches .raised (.noFrame false) := by
  decide +kernel

end Board

end Boardwalk
