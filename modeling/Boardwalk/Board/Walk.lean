import Boardwalk.Board.Stage
/-!
# Walking a board

A run loads the session, and takes the frames from the cursor on that the journal gives. Each step is
journaled and saved before the next one. A story frame hands over to its board and ends the walk; the
walk also ends past the last frame and at a stop frame whose condition holds. Then the journal is reduced
to the outcome, and the session and those of the boards below are cleared.

Jumps backward may go on for ever, so a run has a limit on the number of steps that each board takes.
-/

namespace Boardwalk

/-- What a run amounts to: the records of the journal, or what the resolver makes of them. -/
inductive Outcome where
  | records (t : Timeline)
  | value (v : Value)
  deriving Inhabited

def Outcome.toValue : Outcome → Value
  | .records t => .list (t.map Record.toValue)
  | .value v => v

inductive Ending where
  | success (o : Outcome)
  | failure (f : Fault)
  | raised (f : Fault)
  | unfinished
  deriving Inhabited

/-- Runs the board of a story frame in a context, below the boards that run already. -/
abbrev Enter (σ : Type) := List (Level σ) → Value → Stage σ → Ending × Stage σ

namespace Board

variable {σ : Type}

/-! ## The journal -/

def add (a : Address) (name kind : String) (frameIndex : Int) (output : Value) (completed : Bool)
    (w : World σ) : World σ :=
  w.append a ((w.journal a).entry name kind frameIndex output completed)

/-- Saves the journal. A failure is reported and stops nothing. -/
def persist (b : Board σ) (ls : List (Level σ)) (a : Address) (g : Stage σ) : Stage σ :=
  match b.session.save a g.world with
  | (.ok _, w) => (g.note ls (.saved (.ok ()))).withWorld w
  | (.error f, w) =>
    (g.note ls (.saved (.error f))).withWorld (w.report (Log.entry Log.warning Log.Logger.board
      (Session.failureText "Progress not persisted" f)
      [("storyboard", .str b.name), ("session", .str b.session.name)]))

def complete (b : Board σ) (ls : List (Level σ)) (a : Address) (s : Spot σ) (kind : String)
    (output : Value) (g : Stage σ) : Stage σ :=
  b.persist ls a (g.withWorld (add a s.name kind s.position output true g.world))

def addSkipped (b : Board σ) (a : Address) (w : World σ) (i : Int) : World σ :=
  add a (((b.spot? i).map Spot.name).getD "") emptyKind i (.dict []) true w

/-! ## Steps -/

def report (b : Board σ) (level : Nat) (message : String) (extras : List (String × Value))
    (g : Stage σ) : Stage σ :=
  g.withWorld (g.world.report
    (Log.entry level Log.Logger.board message (("storyboard", .str b.name) :: extras)))

def holds (ls : List (Level σ)) (position : Nat) (role : Role) (condition : Condition σ) (v : View)
    (g : Stage σ) : Except Fault Bool × Stage σ :=
  let (answer, g) := g.call ls position role (condition v)
  (answer.map Value.truth, g)

def taken (ls : List (Level σ)) (s : Spot σ) (v : View) (g : Stage σ) :
    Except Fault Bool × Stage σ :=
  match s.frame.condition? with
  | some c => holds ls s.position .condition c v g
  | none => (.ok true, g)

def contextOf (ls : List (Level σ)) (position : Nat) (provider : Option (Provider σ)) (v : View)
    (context : Value) (g : Stage σ) : Except Fault Value × Stage σ :=
  match provider with
  | some p => g.call ls position .provider (p v context)
  | none => (.ok context, g)

def skip (b : Board σ) (ls : List (Level σ)) (a : Address) (s : Spot σ) (g : Stage σ) :
    Turn × Stage σ :=
  let g := b.report Log.debug "Frame skipped" [("frame", .str s.name)] g
  (.next (s.cursor + 1), b.complete ls a s emptyKind (.dict []) g)

def work (b : Board σ) (ls : List (Level σ)) (a : Address) (s : Spot σ)
    (provider : Option (Provider σ)) (action : Action σ) (v : View) (context : Value)
    (g : Stage σ) : Turn × Stage σ :=
  match contextOf ls s.position provider v context g with
  | (.error f, g) => (.halt (.raised f), g)
  | (.ok context, g) =>
    match g.call ls s.position .action (action context) with
    | (.error f, g) => (.halt (.raised f), g)
    | (.ok output, g) => (.next (s.cursor + 1), b.complete ls a s s.kind output g)

def stop (b : Board σ) (ls : List (Level σ)) (a : Address) (s : Spot σ) (condition : Condition σ)
    (v : View) (g : Stage σ) : Turn × Stage σ :=
  match holds ls s.position .predicate condition v g with
  | (.error f, g) => (.halt (.raised f), g)
  | (.ok stops, g) =>
    let g := b.complete ls a s s.kind (.bool stops) g
    if stops then (.halt .ended, b.report Log.info "Stopped early" [("frame", .str s.name)] g)
    else (.next (s.cursor + 1), g)

def between (cursor : Int) (target : Nat) : List Int :=
  (List.range (target - (cursor + 1)).toNat).map fun (n : Nat) => cursor + 1 + n

/-- Records the jump first and then resolves its target: a target that no frame has leaves the record of
the jump in memory, but not in the file. -/
def jump (b : Board σ) (ls : List (Level σ)) (a : Address) (s : Spot σ) (target : Target)
    (g : Stage σ) : Turn × Stage σ :=
  let w := add a s.name s.kind s.position (.int s.cursor) true g.world
  match b.jumpTarget target with
  | .error f => (.halt (.raised f), g.withWorld w)
  | .ok t =>
    let g := b.persist ls a (g.withWorld ((between s.cursor t).foldl (b.addSkipped a) w))
    (.next t, b.report Log.debug "Jumped" [("from_frame", .int s.cursor), ("to_frame", .int t)] g)

/-- Merges the outcome of a board below into the record of its frame, the last one. -/
def conclude (b : Board σ) (ls : List (Level σ)) (a : Address) (output : Json) (g : Stage σ) :
    Halt × Stage σ :=
  match (g.world.journal a).getLast? with
  | none => (.ended, g)
  | some r =>
    let edit := Timeline.editOfRecord { r with output := Value.ofJson output, completed := .bool true }
    match (g.world.journal a).update edit with
    | .error f => (.raised f, g)
    | .ok (t, _) => (.ended, b.persist ls a (g.withWorld (g.world.withJournal a t)))

def story (b : Board σ) (ls : List (Level σ)) (a : Address) (s : Spot σ) (enter : Enter σ)
    (provider : Option (Provider σ)) (v : View) (context : Value) (g : Stage σ) : Halt × Stage σ :=
  match contextOf ls s.position provider v context g with
  | (.error f, g) => (.raised f, g)
  | (.ok context, g) =>
    -- the record is in the file, in flight, before the board below starts
    let g := b.persist ls a (g.withWorld (add a s.name s.kind s.position (.dict []) false g.world))
    match enter ls context (g.note ls (.entered s.position)) with
    | (.raised f, g) => (.raised f, g)
    | (.unfinished, g) => (.unfinished, g)
    | (.failure f, g) => (.raised (.nested s.name f), g)
    | (.success o, g) =>
      match o.toValue.normal with
      | .error f => (.raised (Session.dumpFault f), g)
      | .ok output => b.conclude ls a output g

/-- A cursor that no number of frames reaches when it is counted from the end. -/
def isVast (cursor : Int) : Bool := cursor < -(Number.twoTo 63 : Int)

def turn (b : Board σ) (enters : List (Enter σ)) (ls : List (Level σ)) (a : Address)
    (context : Value) (cursor : Int) (g : Stage σ) : Turn × Stage σ :=
  match b.spot? cursor with
  | none => (.halt (.raised (.noFrame (isVast cursor))), g)
  | some s =>
    let v : View := ⟨g.world.journal a, cursor⟩
    match taken ls s v g with
    | (.error f, g) => (.halt (.raised f), g)
    | (.ok false, g) => b.skip ls a s g
    | (.ok true, g) =>
      match s.frame with
      | .work _ _ _ provider action => b.work ls a s provider action v context g
      | .stop _ condition => b.stop ls a s condition v g
      | .jump target _ => b.jump ls a s target g
      | .story _ _ provider =>
        -- in a run there is one for every frame
        match enters[s.position]? with
        | none => (.halt .unfinished, g)
        | some enter =>
          let (h, g) := b.story ls a s enter provider v context g
          (.halt h, g)

def steps (b : Board σ) (enters : List (Enter σ)) (ls : List (Level σ)) (a : Address)
    (context : Value) : Nat → Int → Stage σ → Halt × Stage σ
  | limit, cursor, g =>
    if (b.frames.length : Int) ≤ cursor then (.ended, g)
    else match limit with
      | 0 => (.unfinished, g)
      | limit + 1 =>
        match b.turn enters ls a context cursor g with
        | (.halt h, g') => (h, g'.record ⟨ls, .turned cursor (.halt h), g.world⟩)
        | (.next next, g') =>
          steps b enters ls a context limit next (g'.record ⟨ls, .turned cursor (.next next), g.world⟩)

/-! ## Runs -/

def resolve (b : Board σ) (t : Timeline) : Except Fault Outcome :=
  match b.resolver with
  | none => .ok (.records t)
  | some r => (r t).map .value

/-- Clears sessions one after the other, up to one whose clearing raises a fault. -/
def clearEach : List (Address × Session σ) → World σ → Except Fault Unit × World σ
  | [], w => (.ok (), w)
  | (a, s) :: rest, w =>
    match s.clear a w with
    | (.error f, w) => (.error f, w)
    | (.ok _, w) => clearEach rest w

def clearAll (b : Board σ) (a : Address) (w : World σ) : Except Fault Unit × World σ :=
  clearEach ((a, b.session) :: b.stories.map fun (i, c) => (a ++ [i], c.session)) w

/-- Reduces the journal. Only an outcome removes the sessions. -/
def finish (b : Board σ) (ls : List (Level σ)) (a : Address) (g : Stage σ) : Ending × Stage σ :=
  let g := g.note ls .finished
  let records := g.world.journal a
  let count : String × Value := ("records", .int records.length)
  match b.resolve records with
  | .error f =>
    (.failure f, b.report Log.error (Session.failureText "Failed to resolve outcome" f) [count] g)
  | .ok o =>
    match b.clearAll a g.world with
    | (.error f, w) => (.raised f, g.withWorld w)
    | (.ok _, w) => (.success o, b.report Log.info "Storyboard run finished" [count] (g.withWorld w))

def givenContext (context : Value) : Value := if context.isNull then .dict [] else context

/-- Takes the frames from where the journal stands, and reduces the journal behind the last one. -/
def walk (b : Board σ) (enters : List (Enter σ)) (limit : Nat) (ls : List (Level σ)) (a : Address)
    (context : Value) (g : Stage σ) : Ending × Stage σ :=
  let cursor := (g.world.journal a).cursor
  let g := b.report Log.info "Storyboard run started"
    [("cursor", .int cursor), ("frames", .int b.frames.length)] (g.note ls (.started cursor))
  match b.steps enters ls a context limit cursor g with
  | (.raised f, g) => (.raised f, g)
  | (.unfinished, g) => (.unfinished, g)
  | (.ended, g) => b.finish ls a g

def runWith (b : Board σ) (enters : List (Enter σ)) (limit : Nat) (a : Address) : Enter σ :=
  fun above context g =>
    match b.session.load a g.world with
    | (.error f, w) => (.raised f, g.withWorld w)
    | (.ok loaded, w) =>
      -- a board that is not strict goes on with the fresh journal
      match loaded, b.session.settings.strictLoad with
      | .error f, true => (.failure f, g.withWorld w)
      | _, _ => b.walk enters limit (⟨b, a, w⟩ :: above) a (givenContext context) (g.withWorld w)

mutual

def enterFrame (limit : Nat) (a : Address) : Frame σ → Enter σ
  | .story b _ _ => enterBoard limit a b
  | .work .. => fun _ _ g => (.unfinished, g)
  | .stop .. => fun _ _ g => (.unfinished, g)
  | .jump .. => fun _ _ g => (.unfinished, g)

def enterBoard (limit : Nat) (a : Address) : BoardOf (Frame σ) σ → Enter σ
  | ⟨name, session, resolver, frames⟩ =>
    runWith ⟨name, session, resolver, frames⟩ (enterFrames limit a 0 frames) limit a

def enterFrames (limit : Nat) (a : Address) : Nat → List (Frame σ) → List (Enter σ)
  | _, [] => []
  | i, f :: fs => enterFrame limit (a ++ [i]) f :: enterFrames limit a (i + 1) fs

end

/-- Runs a board, or resumes its run, in a context; each board takes at most `limit` steps. -/
def run (b : Board σ) (limit : Nat) (context : Value) (w : World σ) : Ending × World σ :=
  let (e, g) := enterBoard limit [] b [] context ⟨w, []⟩
  (e, g.world)

def trace (b : Board σ) (limit : Nat) (context : Value) (w : World σ) : List (Moment σ) :=
  (enterBoard limit [] b [] context ⟨w, []⟩).2.trace.reverse

end Board

end Boardwalk
