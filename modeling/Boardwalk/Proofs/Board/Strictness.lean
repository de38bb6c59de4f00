import Mathlib.Data.List.Induction
import Boardwalk.Proofs.Board.Handover
import Boardwalk.Proofs.Board.Lockstep
/-!
# Strict loading

Whether the sessions of a board and of the boards below are strict can be chosen for each of them (`strictly`). The
choice does not reach what a run does: every part of it goes along with the choice, up to the boards that the moments of
the run tell of (`turn_strictly`, `walk_strictly`). Only a loading that reports a failure looks at it
(`enterBoard_strictly`).
-/

namespace Boardwalk

variable {σ : Type}

def Session.strictly (s : Session σ) (strict : Bool) : Session σ :=
  { s with settings := { s.settings with strictLoad := strict } }

namespace Board

mutual

def strictFrame (choose : Address → Bool) (a : Address) : Frame σ → Frame σ
  | .story b condition provider => .story (strictly choose a b) condition provider
  | .work kind name condition provider action => .work kind name condition provider action
  | .stop given condition => .stop given condition
  | .jump target condition => .jump target condition

/-- The board with its session strict or not, and so on for the boards below, as it is chosen for their addresses. -/
def strictly (choose : Address → Bool) (a : Address) : BoardOf (Frame σ) σ → Board σ
  | ⟨name, session, resolver, frames⟩ => ⟨name, session.strictly (choose a), resolver, strictFrames choose a 0 frames⟩

def strictFrames (choose : Address → Bool) (a : Address) : Nat → List (Frame σ) → List (Frame σ)
  | _, [] => []
  | i, f :: fs => strictFrame choose (a ++ [i]) f :: strictFrames choose a (i + 1) fs

end

end Board

/-! ## What a run tells -/

def Spot.strictly (choose : Address → Bool) (a : Address) (s : Spot σ) : Spot σ :=
  { s with frame := Board.strictFrame choose (a ++ [s.position]) s.frame }

def Level.strictly (choose : Address → Bool) (L : Level σ) : Level σ :=
  { L with board := Board.strictly choose L.address L.board }

def Moment.strictly (choose : Address → Bool) (m : Moment σ) : Moment σ :=
  { m with levels := m.levels.map (Level.strictly choose) }

def Stage.strictly (choose : Address → Bool) (g : Stage σ) : Stage σ :=
  { g with trace := g.trace.map (Moment.strictly choose) }

/-! ## What a run loads -/

/-- The board below that the innermost board enters at this moment. Its session is loaded next. -/
def Moment.loads? (m : Moment σ) : Option (Board σ × Address) :=
  match m.levels, m.event with
  | L :: _, .entered i =>
    match L.board.frames[i]? with
    | some (.story c _ _) => some (c, L.address ++ [i])
    | _ => none
  | _, _ => none

theorem Moment.loads?_entered {L : Level σ} {above : List (Level σ)} {i : Nat} {w : World σ} {c : Board σ}
    {condition : Option (Condition σ)} {provider : Option (Provider σ)}
    (hf : L.board.frames[i]? = some (.story c condition provider)) :
    (⟨L :: above, .entered i, w⟩ : Moment σ).loads? = some (c, L.address ++ [i]) := by
  unfold loads?
  dsimp only
  rw [hf]

theorem Moment.loads?_some {m : Moment σ} {c : Board σ} {p : Address} (h : m.loads? = some (c, p)) :
    ∃ L above i condition provider, m.levels = L :: above ∧ m.event = .entered i ∧
      L.board.frames[i]? = some (.story c condition provider) ∧ p = L.address ++ [i] := by
  unfold loads? at h
  split at h
  · rename_i L above i hlevels hevent
    split at h
    · rename_i hf
      cases h
      exact ⟨L, above, i, _, _, hlevels, hevent, hf, rfl⟩
    · cases h
  · cases h

/-- In a run of a board the session of a board is loaded in a world. -/
inductive Board.Loads (b : Board σ) (limit : Nat) (x : Value) (w : World σ) : Board σ → Address → World σ → Prop
  | start : b.Loads limit x w b [] w
  | entered {m : Moment σ} {c : Board σ} {p : Address} : m ∈ b.trace limit x w → m.loads? = some (c, p) →
      b.Loads limit x w c p m.world

def Untroubled (ms : List (Moment σ)) : Prop :=
  ∀ m ∈ ms, ∀ {c p}, m.loads? = some (c, p) → ∀ f, (c.session.load p m.world).1 ≠ .ok (.error f)

theorem Untroubled.of_extends {g g' : Stage σ} (h : Untroubled g'.trace) (hg : Board.Extends g g') :
    Untroubled g.trace :=
  fun m hm => h m (hg.mem hm)

namespace Board

variable (choose : Address → Bool)

/-! ## The parts of a board -/

theorem strictFrames_eq (a : Address) (k : Nat) (fs : List (Frame σ)) :
    strictFrames choose a k fs = fs.mapIdx fun i f => strictFrame choose (a ++ [k + i]) f := by
  induction fs generalizing k with
  | nil => rfl
  | cons f fs ih =>
    rw [strictFrames, ih, List.mapIdx_cons]
    congr 2
    funext i f
    rw [show k + 1 + i = k + (i + 1) by omega]

theorem strictly_eq (a : Address) (b : Board σ) : strictly choose a b =
    ⟨b.name, b.session.strictly (choose a), b.resolver, b.frames.mapIdx fun i f => strictFrame choose (a ++ [i]) f⟩ := by
  cases b
  rw [strictly, strictFrames_eq]
  simp only [Nat.zero_add]

section

variable (a : Address) (b : Board σ)

@[simp] theorem strictly_name : (strictly choose a b).name = b.name := by rw [strictly_eq]

@[simp] theorem strictly_session : (strictly choose a b).session = b.session.strictly (choose a) := by rw [strictly_eq]

@[simp] theorem strictly_resolver : (strictly choose a b).resolver = b.resolver := by rw [strictly_eq]

theorem strictly_frames : (strictly choose a b).frames = b.frames.mapIdx fun i f => strictFrame choose (a ++ [i]) f := by
  rw [strictly_eq]

@[simp] theorem strictly_length : (strictly choose a b).frames.length = b.frames.length := by
  rw [strictly_frames, List.length_mapIdx]

end

section

variable (a : Address) (f : Frame σ)

@[simp] theorem strictFrame_name (i : Nat) : (strictFrame choose a f).nameAt i = f.nameAt i := by
  cases f with
  | story b condition provider =>
    rw [strictFrame]
    exact strictly_name choose a b
  | _ => rw [strictFrame]

@[simp] theorem strictFrame_kind : (strictFrame choose a f).kind = f.kind := by
  cases f with
  | story b condition provider =>
    rw [strictFrame]
    rfl
  | _ => rw [strictFrame]

@[simp] theorem strictFrame_condition : (strictFrame choose a f).condition? = f.condition? := by
  cases f with
  | story b condition provider =>
    rw [strictFrame]
    rfl
  | _ => rw [strictFrame]

end

section

variable (a : Address) (s : Spot σ)

@[simp] theorem strictly_spotName : (s.strictly choose a).name = s.name := strictFrame_name choose _ s.frame s.position

@[simp] theorem strictly_spotKind : (s.strictly choose a).kind = s.kind := strictFrame_kind choose _ s.frame

end

section

variable (a : Address) (b : Board σ)

theorem strictly_spot? (cursor : Int) :
    (strictly choose a b).spot? cursor = (b.spot? cursor).map (Spot.strictly choose a) := by
  unfold spot?
  rw [strictly_length, strictly_frames]
  dsimp only
  generalize (if cursor < 0 then cursor + (b.frames.length : Int) else cursor) = position
  split
  · rfl
  · rw [List.getElem?_mapIdx, Option.map_map, Option.map_map]
    rfl

@[simp] theorem strictly_names : (strictly choose a b).names = b.names := by
  unfold names
  rw [strictly_frames, List.mapIdx_mapIdx]
  congr 1
  funext i f
  exact strictFrame_name choose _ f i

@[simp] theorem strictly_jumpTarget (t : Target) : (strictly choose a b).jumpTarget t = b.jumpTarget t := by
  unfold jumpTarget lastNamed? outsideFault
  rw [strictly_names, strictly_length, strictly_name]

theorem strictly_stories :
    (strictly choose a b).stories = b.stories.map fun (i, c) => (i, strictly choose (a ++ [i]) c) := by
  unfold stories
  rw [strictly_frames, List.mapIdx_mapIdx, List.map_filterMap]
  induction b.frames using List.reverseRecOn with
  | nil => rfl
  | append_singleton fs f ih =>
    rw [List.mapIdx_concat, List.mapIdx_concat, List.filterMap_append, List.filterMap_append, ih]
    congr 1
    cases f <;> simp [strictFrame]

theorem clearEach_strictly (entries : List (Address × Session σ)) (w : World σ) :
    clearEach (entries.map fun e => (e.1, e.2.strictly (choose e.1))) w = clearEach entries w := by
  induction entries generalizing w with
  | nil => rfl
  | cons e entries ih =>
    obtain ⟨p, s⟩ := e
    have hclear : (s.strictly (choose p)).clear p w = s.clear p w := rfl
    rw [List.map_cons, clearEach, clearEach, hclear]
    cases s.clear p w with
    | mk answer w =>
      cases answer with
      | error f => rfl
      | ok u => exact ih w

@[simp] theorem strictly_clearAll (w : World σ) : (strictly choose a b).clearAll a w = b.clearAll a w := by
  unfold clearAll
  rw [strictly_stories, strictly_session, List.map_map,
    ← clearEach_strictly choose ((a, b.session) :: b.stories.map fun (i, c) => (a ++ [i], c.session))]
  congr 2
  rw [List.map_map]
  congr 1
  funext p
  obtain ⟨i, c⟩ := p
  simp

@[simp] theorem strictly_resolve (t : Timeline) : (strictly choose a b).resolve t = b.resolve t := by
  unfold resolve
  rw [strictly_resolver]

@[simp] theorem strictly_addSkipped : (strictly choose a b).addSkipped a = b.addSkipped a := by
  funext w i
  unfold addSkipped
  rw [strictly_spot?]
  cases b.spot? i with
  | none => rfl
  | some s => simp

end

/-! ## Steps -/

section

variable (b : Board σ) (ls : List (Level σ)) (a : Address) (s : Spot σ) (g : Stage σ)

theorem strictly_call (position : Nat) (role : Role) (code : Code σ Value) :
    (g.strictly choose).call (ls.map (Level.strictly choose)) position role code =
      (g.call ls position role code).map id (Stage.strictly choose) := rfl

theorem strictly_report (level : Nat) (message : String) (extras : List (String × Value)) :
    (strictly choose a b).report level message extras (g.strictly choose) =
      (b.report level message extras g).strictly choose := by
  unfold report
  rw [strictly_name]
  rfl

theorem strictly_afterSave (w : World σ) : (strictly choose a b).afterSave a w = b.afterSave a w := by
  unfold afterSave
  rw [strictly_session, strictly_name]
  rfl

theorem strictly_persist :
    (strictly choose a b).persist (ls.map (Level.strictly choose)) a (g.strictly choose) =
      (b.persist ls a g).strictly choose := by
  rw [persist_eq, persist_eq, strictly_afterSave, strictly_session]
  rfl

theorem strictly_complete (kind : String) (output : Value) :
    (strictly choose a b).complete (ls.map (Level.strictly choose)) a (s.strictly choose a) kind output
      (g.strictly choose) = (b.complete ls a s kind output g).strictly choose := by
  unfold complete
  rw [strictly_spotName]
  exact strictly_persist choose b ls a (g.withWorld _)

theorem strictly_taken (v : View) :
    taken (ls.map (Level.strictly choose)) (s.strictly choose a) v (g.strictly choose) =
      (taken ls s v g).map id (Stage.strictly choose) := by
  unfold taken
  rw [show (s.strictly choose a).frame.condition? = s.frame.condition? from strictFrame_condition choose _ s.frame]
  cases s.frame.condition? with
  | none => rfl
  | some c => rfl

theorem strictly_contextOf (i : Nat) (provider : Option (Provider σ)) (v : View) (x : Value) :
    contextOf (ls.map (Level.strictly choose)) i provider v x (g.strictly choose) =
      (contextOf ls i provider v x g).map id (Stage.strictly choose) := by
  cases provider with
  | none => rfl
  | some p => rfl

theorem strictly_skip :
    (strictly choose a b).skip (ls.map (Level.strictly choose)) a (s.strictly choose a) (g.strictly choose) =
      (b.skip ls a s g).map id (Stage.strictly choose) := by
  unfold skip
  rw [strictly_spotName, strictly_report]
  exact Prod.ext rfl (strictly_complete choose b ls a s _ _ _)

theorem strictly_work (provider : Option (Provider σ)) (action : Action σ) (v : View) (x : Value) :
    (strictly choose a b).work (ls.map (Level.strictly choose)) a (s.strictly choose a) provider action v x
      (g.strictly choose) = (b.work ls a s provider action v x g).map id (Stage.strictly choose) := by
  unfold work
  rw [show (s.strictly choose a).position = s.position from rfl, strictly_contextOf]
  cases contextOf ls s.position provider v x g with
  | mk answer g₁ =>
    cases answer with
    | error f => rfl
    | ok x' =>
      dsimp only [Prod.map, id]
      rw [strictly_call]
      cases g₁.call ls s.position .action (action x') with
      | mk answer g₂ =>
        cases answer with
        | error f => rfl
        | ok output =>
          dsimp only [Prod.map, id]
          rw [strictly_complete, strictly_spotKind]
          rfl

theorem strictly_stop (condition : Condition σ) (v : View) :
    (strictly choose a b).stop (ls.map (Level.strictly choose)) a (s.strictly choose a) condition v
      (g.strictly choose) = (b.stop ls a s condition v g).map id (Stage.strictly choose) := by
  unfold stop holds
  rw [show (s.strictly choose a).position = s.position from rfl, strictly_call]
  cases g.call ls s.position .predicate (condition v) with
  | mk answer g₁ =>
    cases answer with
    | error f => rfl
    | ok y =>
      dsimp only [Prod.map, id, Except.map]
      rw [strictly_complete, strictly_spotKind, strictly_spotName, strictly_report]
      cases y.truth with
      | false => rfl
      | true => rfl

theorem strictly_jump (target : Target) :
    (strictly choose a b).jump (ls.map (Level.strictly choose)) a (s.strictly choose a) target (g.strictly choose) =
      (b.jump ls a s target g).map id (Stage.strictly choose) := by
  unfold jump
  rw [strictly_jumpTarget, strictly_spotName, strictly_spotKind, strictly_addSkipped]
  cases b.jumpTarget target with
  | error f => rfl
  | ok t =>
    have hpersist := strictly_persist choose b ls a
    have hreport := strictly_report choose b a
    dsimp only
    exact Prod.ext rfl ((congrArg _ (hpersist (g.withWorld _))).trans (hreport _ _ _ _))

theorem strictly_conclude (output : Json) :
    (strictly choose a b).conclude (ls.map (Level.strictly choose)) a output (g.strictly choose) =
      (b.conclude ls a output g).map id (Stage.strictly choose) := by
  unfold conclude
  rw [show (g.strictly choose).world = g.world from rfl]
  cases (g.world.journal a).getLast? with
  | none => rfl
  | some r =>
    dsimp only
    cases (g.world.journal a).update
        (Timeline.editOfRecord { r with output := Value.ofJson output, completed := .bool true }) with
    | error f => rfl
    | ok t => exact Prod.ext rfl (strictly_persist choose b ls a (g.withWorld _))

theorem strictly_receive (r : Ending × Stage σ) :
    (strictly choose a b).receive (ls.map (Level.strictly choose)) a (s.strictly choose a)
      (r.map id (Stage.strictly choose)) = (b.receive ls a s r).map id (Stage.strictly choose) := by
  obtain ⟨ending, g⟩ := r
  cases ending with
  | raised f => rfl
  | unfinished => rfl
  | failure f =>
    unfold receive
    dsimp only [Prod.map, id]
    rw [strictly_spotName]
  | success o =>
    unfold receive
    dsimp only [Prod.map, id]
    cases o.toValue.normal with
    | error f => rfl
    | ok output => exact strictly_conclude choose b ls a g output

theorem strictly_entering :
    (strictly choose a b).entering (ls.map (Level.strictly choose)) a (s.strictly choose a) (g.strictly choose) =
      (b.entering ls a s g).strictly choose := by
  unfold entering
  rw [strictly_spotName, strictly_spotKind]
  exact congrArg (fun g => Stage.note g (ls.map (Level.strictly choose)) (.entered s.position))
    (strictly_persist choose b ls a (g.withWorld _))

end

/-! ## Runs -/

def GoesAlong (limit : Nat) (a : Address) (b : Board σ) : Prop :=
  ∀ ls x g, (∀ f, (b.session.load a g.world).1 ≠ .ok (.error f)) → Untroubled (enterBoard limit a b ls x g).2.trace →
    enterBoard limit a (strictly choose a b) (ls.map (Level.strictly choose)) x (g.strictly choose) =
      (enterBoard limit a b ls x g).map id (Stage.strictly choose)

section

variable (b : Board σ) (ls : List (Level σ)) (a : Address) (x : Value) (g : Stage σ)

theorem strictly_finish :
    (strictly choose a b).finish (ls.map (Level.strictly choose)) a (g.strictly choose) =
      (b.finish ls a g).map id (Stage.strictly choose) := by
  unfold finish
  have hnote : (g.strictly choose).note (ls.map (Level.strictly choose)) .finished =
      (g.note ls .finished).strictly choose := rfl
  have hworld : ((g.note ls .finished).strictly choose).world = (g.note ls .finished).world := rfl
  dsimp only
  rw [hnote, hworld, strictly_resolve, strictly_clearAll]
  cases b.resolve ((g.note ls .finished).world.journal a) with
  | error f =>
    dsimp only
    rw [strictly_report]
    rfl
  | ok o =>
    dsimp only
    cases b.clearAll a (g.note ls .finished).world with
    | mk answer w =>
      cases answer with
      | error f => rfl
      | ok u => exact Prod.ext rfl (strictly_report choose b a ((g.note ls .finished).withWorld w) _ _ _)

theorem strictly_close (h : Halt) :
    (strictly choose a b).close (ls.map (Level.strictly choose)) a (h, g.strictly choose) =
      (b.close ls a (h, g)).map id (Stage.strictly choose) := by
  cases h with
  | raised f => rfl
  | unfinished => rfl
  | ended => exact strictly_finish choose b ls a g

theorem strictly_opened :
    (strictly choose a b).opened (ls.map (Level.strictly choose)) a (g.strictly choose) =
      (b.opened ls a g).strictly choose := by
  unfold opened
  rw [strictly_length]
  exact strictly_report choose b a (g.note ls _) _ _ _

variable {b} {limit : Nat} {w : World σ} {above : List (Level σ)} (hls : ls = ⟨b, a, w⟩ :: above)
  (hbelow : ∀ {i c condition provider}, b.frames[i]? = some (.story c condition provider) →
    GoesAlong choose limit (a ++ [i]) c)
include hls hbelow

theorem strictly_story {s : Spot σ} {c : Board σ} {condition : Option (Condition σ)} {provider : Option (Provider σ)}
    (hf : b.frames[s.position]? = some (.story c condition provider)) (v : View)
    (hcalm : Untroubled (b.story ls a s (enterBoard limit (a ++ [s.position]) c) provider v x g).2.trace) :
    (strictly choose a b).story (ls.map (Level.strictly choose)) a (s.strictly choose a)
        (enterBoard limit (a ++ [s.position]) (strictly choose (a ++ [s.position]) c)) provider v x
        (g.strictly choose) =
      (b.story ls a s (enterBoard limit (a ++ [s.position]) c) provider v x g).map id (Stage.strictly choose) := by
  rw [story_eq] at hcalm ⊢
  rw [story_eq, show (s.strictly choose a).position = s.position from rfl, strictly_contextOf]
  cases hcontext : contextOf ls s.position provider v x g with
  | mk answer g₁ =>
    rw [hcontext] at hcalm
    cases answer with
    | error f => rfl
    | ok x' =>
      dsimp only [Prod.map, id] at hcalm ⊢
      have hentered := hcalm.of_extends (tellsOn_receive b ls a s _).toExtends
      -- the moment at which the board is entered tells of its loading
      have hloads : ∀ f, (c.session.load (a ++ [s.position]) (b.entering ls a s g₁).world).1 ≠ .ok (.error f) := by
        refine (hentered.of_extends (enterBoard_extends ..)) ⟨ls, .entered s.position, _⟩ List.mem_cons_self ?_
        rw [hls]
        exact Moment.loads?_entered hf
      rw [strictly_entering, hbelow hf ls x' _ hloads hentered]
      exact strictly_receive choose b ls a s _

theorem turn_strictly (cursor : Int)
    (hcalm : Untroubled (b.turn (enterFrames limit a 0 b.frames) ls a x cursor g).2.trace) :
    (strictly choose a b).turn (enterFrames limit a 0 (strictly choose a b).frames) (ls.map (Level.strictly choose)) a x
        cursor (g.strictly choose) =
      (b.turn (enterFrames limit a 0 b.frames) ls a x cursor g).map id (Stage.strictly choose) := by
  unfold turn at hcalm ⊢
  rw [strictly_spot?]
  cases hspot : b.spot? cursor with
  | none => rfl
  | some s =>
    obtain ⟨hframe, -, -⟩ := spot?_some hspot
    rw [hspot] at hcalm
    dsimp only [Option.map] at hcalm ⊢
    rw [show (g.strictly choose).world = g.world from rfl, strictly_taken]
    cases htaken : taken ls s ⟨g.world.journal a, cursor⟩ g with
    | mk answer g₁ =>
      rw [htaken] at hcalm
      cases answer with
      | error f => rfl
      | ok yes =>
        cases yes with
        | false => exact strictly_skip choose b ls a s g₁
        | true =>
          have hstrict : (s.strictly choose a).frame = strictFrame choose (a ++ [s.position]) s.frame := rfl
          dsimp only [Prod.map, id] at hcalm ⊢
          cases hf : s.frame with
          | work kind name condition provider action =>
            rw [hstrict, hf, strictFrame]
            exact strictly_work choose b ls a s g₁ provider action _ x
          | stop given condition =>
            rw [hstrict, hf, strictFrame]
            exact strictly_stop choose b ls a s g₁ condition _
          | jump target condition =>
            rw [hstrict, hf, strictFrame]
            exact strictly_jump choose b ls a s g₁ target
          | story c condition provider =>
            rw [hf] at hframe hcalm
            -- only here the two boards differ: the board below has the session that is chosen for its address
            have hframe' : (strictly choose a b).frames[s.position]? =
                some (.story (strictly choose (a ++ [s.position]) c) condition provider) := by
              rw [strictly_frames, List.getElem?_mapIdx, hframe]
              simp [strictFrame]
            rw [hstrict, hf, strictFrame]
            dsimp only at hcalm ⊢
            rw [enterFrames_story hframe] at hcalm
            rw [show (s.strictly choose a).position = s.position from rfl, enterFrames_story hframe',
              enterFrames_story hframe]
            dsimp only at hcalm ⊢
            rw [strictly_story choose ls a x g₁ hls hbelow hframe _ hcalm]
            rfl

theorem steps_strictly (n : Nat) (cursor : Int)
    (hcalm : Untroubled (b.steps (enterFrames limit a 0 b.frames) ls a x n cursor g).2.trace) :
    (strictly choose a b).steps (enterFrames limit a 0 (strictly choose a b).frames) (ls.map (Level.strictly choose)) a x
        n cursor (g.strictly choose) =
      (b.steps (enterFrames limit a 0 b.frames) ls a x n cursor g).map id (Stage.strictly choose) := by
  induction n generalizing cursor g with
  | zero =>
    unfold steps
    rw [strictly_length]
    split
    · rfl
    · rfl
  | succ n ih =>
    unfold steps at hcalm ⊢
    rw [strictly_length]
    split
    · rfl
    · rename_i hpast
      rw [if_neg hpast] at hcalm
      have hturn := turn_strictly choose ls a x g hls hbelow cursor
      dsimp only at hcalm ⊢
      cases ht : b.turn (enterFrames limit a 0 b.frames) ls a x cursor g with
      | mk turn g₁ =>
        rw [ht] at hcalm hturn
        cases turn with
        | halt h =>
          rw [hturn (hcalm.of_extends (extends_closed.record g₁ _))]
          rfl
        | next next =>
          rw [hturn ((hcalm.of_extends (steps_extends ..)).of_extends (extends_closed.record g₁ _))]
          exact ih (g₁.record ⟨ls, .turned cursor (.next next), g.world⟩) next hcalm

theorem walk_strictly
    (hcalm : Untroubled (b.walk (enterFrames limit a 0 b.frames) limit ls a x g).2.trace) :
    (strictly choose a b).walk (enterFrames limit a 0 (strictly choose a b).frames) limit
        (ls.map (Level.strictly choose)) a x (g.strictly choose) =
      (b.walk (enterFrames limit a 0 b.frames) limit ls a x g).map id (Stage.strictly choose) := by
  rw [walk_eq] at hcalm ⊢
  rw [walk_eq, strictly_opened]
  have hsteps := steps_strictly choose ls a x (b.opened ls a g) hls hbelow limit (g.world.journal a).cursor
    (hcalm.of_extends (close_extends b a ls _ _))
  rw [show (g.strictly choose).world = g.world from rfl, hsteps]
  exact strictly_close choose b ls a _ _

end

/-- **Only a loading that reports a failure looks at the choice.** -/
theorem enterBoard_strictly (limit : Nat) (b : Board σ) : ∀ a, GoesAlong choose limit a b := by
  induction b using Board.induction with
  | step b ih =>
    intro a ls x g hload hcalm
    rw [enterBoard_eq] at hcalm ⊢
    rw [enterBoard_eq]
    unfold runWith at hcalm ⊢
    rw [strictly_session, show (b.session.strictly (choose a)).load a (g.strictly choose).world =
      b.session.load a g.world from rfl]
    cases hanswer : b.session.load a g.world with
    | mk answer w =>
      rw [hanswer] at hload hcalm
      cases answer with
      | error f => rfl
      | ok loaded =>
        cases loaded with
        | error f => exact absurd rfl (hload f)
        | ok m =>
          exact walk_strictly choose (⟨b, a, w⟩ :: ls) a (givenContext x) (g.withWorld w) rfl
            (fun hf => ih _ _ _ _ hf _) hcalm

/-- **Strictness only matters when a loading fails**: a run in which no loading reports a failure comes to the same
outcome in the same world, and tells of the same moments, whichever sessions are strict. -/
theorem run_strictly {b : Board σ} {limit : Nat} {x : Value} {w : World σ}
    (hloads : ∀ {c p w'}, b.Loads limit x w c p w' → ∀ f, (c.session.load p w').1 ≠ .ok (.error f)) :
    (strictly choose [] b).run limit x w = b.run limit x w ∧
      (strictly choose [] b).trace limit x w = (b.trace limit x w).map (Moment.strictly choose) := by
  have h := enterBoard_strictly choose limit b [] [] x ⟨w, []⟩ (hloads .start) fun m hm _ _ hm' =>
    hloads (.entered (List.mem_reverse.mpr hm) hm')
  have hrun : enterBoard limit [] (strictly choose [] b) [] x ⟨w, []⟩ =
      (enterBoard limit [] b [] x ⟨w, []⟩).map id (Stage.strictly choose) := h
  constructor
  · unfold run
    rw [hrun]
    rfl
  · unfold trace
    rw [hrun, List.map_reverse]
    rfl

end Board

end Boardwalk
