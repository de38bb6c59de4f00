import Boardwalk.Record.Resolver
import Boardwalk.Record.View
import Boardwalk.Session
/-!
# Boards

A board is a list of frames with a session that journals them. A frame does work, may stop the run, jumps to
another frame, or hands over to a board of its own. The position of a frame in the list is part of what
it is: stop and jump frames without a name are named after it.
-/

namespace Boardwalk

/-- Decides from the journal whether something holds. Its value counts by its truth. -/
abbrev Condition (σ : Type) := View → Code σ Value

abbrev Provider (σ : Type) := View → Value → Code σ Value

abbrev Action (σ : Type) := Value → Code σ Value

abbrev Resolver := Timeline → Except Fault Value

namespace Resolver

def outputs : Resolver := fun t => .ok (.dict t.outputs)

def last : Resolver := Timeline.lastOutput

end Resolver

inductive WorkKind where
  | key
  | loop
  deriving DecidableEq, Inhabited

structure BoardOf (φ σ : Type) where
  name : String
  session : Session σ
  resolver : Option Resolver
  frames : List φ

inductive Frame (σ : Type) where
  | work (kind : WorkKind) (name : String) (condition : Option (Condition σ))
      (provider : Option (Provider σ)) (action : Action σ)
  | stop (given : Option String) (condition : Condition σ)
  | jump (target : Target) (condition : Option (Condition σ))
  | story (board : BoardOf (Frame σ) σ) (condition : Option (Condition σ))
      (provider : Option (Provider σ))

abbrev Board (σ : Type) := BoardOf (Frame σ) σ

def numbered (label : String) (n : Nat) : String := label ++ String.ofList (Json.natChars n)

namespace Frame

variable {σ : Type}

def nameAt (position : Nat) : Frame σ → String
  | .work _ name _ _ _ => name
  | .stop given _ => match given with
    | some name => if name = "" then numbered "stop_at_" position else name
    | none => numbered "stop_at_" position
  | .jump _ _ => numbered "jump_at_" position
  | .story board _ _ => board.name

def kind : Frame σ → String
  | .work .key .. => "key_frame"
  | .work .loop .. => "loop_frame"
  | .stop .. => "stop_frame"
  | .jump .. => "jump_frame"
  | .story .. => "story_frame"

/-- The condition under which a frame is taken; a frame without one always is. -/
def condition? : Frame σ → Option (Condition σ)
  | .work _ _ c _ _ => c
  | .stop _ _ => none
  | .jump _ c => c
  | .story _ c _ => c

def provider? : Frame σ → Option (Provider σ)
  | .work _ _ _ p _ => p
  | .stop _ _ => none
  | .jump _ _ => none
  | .story _ _ p => p

def shownAt (position : Nat) (f : Frame σ) : String :=
  let label := match f with
    | .work .. => "FunctionFrame"
    | .stop .. => "StopAction"
    | .jump .. => "JumpAction"
    | .story .. => "StoryFrameAction"
  label ++ "(name=" ++ Text.quoted (f.nameAt position) ++ ")"

end Frame

namespace Board

variable {σ : Type}

def shown (b : Board σ) : String :=
  "Storyboard(name=" ++ Text.quoted b.name ++ ", frames=" ++
    String.ofList (Json.natChars b.frames.length) ++ ")"

def names (b : Board σ) : List String := b.frames.mapIdx fun i f => f.nameAt i

def stories (b : Board σ) : List (Nat × Board σ) :=
  (b.frames.mapIdx fun i f => (i, f)).filterMap fun
    | (i, .story c _ _) => some (i, c)
    | _ => none

/-! ## Finding frames -/

def lastNamed? (b : Board σ) (name : String) : Option Nat :=
  (b.names.zipIdx.reverse.find? fun p => p.1 == name).map (·.2)

/-- The fault of a jump to a position that the board does not have. Its wording shows the position, so one that is
too long for a numeral is a fault of its own. -/
def outsideFault (b : Board σ) (n : Int) : Fault :=
  if Number.hasNumeral n then .jumpOutside n b.name b.frames.length else .noNumeral

def jumpTarget (b : Board σ) (target : Target) : Except Fault Nat :=
  match target.settle with
  | .error f => .error f
  | .ok (.name s) => match b.lastNamed? s with
    | some i => .ok i
    | none => .error (.jumpUnknown s b.name)
  | .ok (.position n) =>
    if 0 ≤ n ∧ n < b.frames.length then .ok n.toNat
    else .error (b.outsideFault n)

end Board

/-- A frame that a cursor points at. Negative cursors count from the end. -/
structure Spot (σ : Type) where
  cursor : Int
  position : Nat
  frame : Frame σ

namespace Spot

variable {σ : Type}

def name (s : Spot σ) : String := s.frame.nameAt s.position

def kind (s : Spot σ) : String := s.frame.kind

end Spot

namespace Board

variable {σ : Type}

def spot? (b : Board σ) (cursor : Int) : Option (Spot σ) :=
  let position := if cursor < 0 then cursor + b.frames.length else cursor
  if position < 0 then none
  else b.frames[position.toNat]?.map fun f => ⟨cursor, position.toNat, f⟩

end Board

end Boardwalk
