import Boardwalk.Board.Basic
/-!
# The course of a run

A run is recorded while it goes on: every event with the boards that run at the time and the world in which it
sets in. The record is kept apart from the world, so the code of a board cannot see it.
-/

namespace Boardwalk

inductive Halt where
  | ended
  | raised (f : Fault)
  | unfinished

inductive Turn where
  | next (cursor : Int)
  | halt (h : Halt)

/-- What the code of a frame is asked for. -/
inductive Role where
  | condition
  | provider
  | predicate
  | action
  deriving DecidableEq

inductive Event where
  /-- The session is loaded, and the walk starts at a cursor. -/
  | started (cursor : Int)
  /-- Code of the frame at a position answers or raises a fault. -/
  | evaluated (position : Nat) (role : Role) (answer : Except Fault Value)
  | entered (position : Nat)
  | saved (answer : Session.Answer Unit)
  | turned (cursor : Int) (turn : Turn)
  /-- The walk is over, and the journal is reduced to the outcome. -/
  | finished

/-- A board that runs, and the world as the loading of its session left it. -/
structure Level (σ : Type) where
  board : Board σ
  address : Address
  start : World σ

/-- An event with the boards that run, the innermost first, and the world before it. -/
structure Moment (σ : Type) where
  levels : List (Level σ)
  event : Event
  world : World σ

structure Stage (σ : Type) where
  world : World σ
  /-- The latest first. -/
  trace : List (Moment σ)

namespace Stage

variable {σ : Type}

def withWorld (g : Stage σ) (w : World σ) : Stage σ := { g with world := w }

def record (g : Stage σ) (m : Moment σ) : Stage σ := { g with trace := m :: g.trace }

def note (g : Stage σ) (ls : List (Level σ)) (e : Event) : Stage σ := g.record ⟨ls, e, g.world⟩

def call (g : Stage σ) (ls : List (Level σ)) (position : Nat) (role : Role)
    (code : Code σ Value) : Except Fault Value × Stage σ :=
  let (r, w) := g.world.call code
  (r, (g.note ls (.evaluated position role r)).withWorld w)

@[simp] theorem withWorld_world (g : Stage σ) (w : World σ) : (g.withWorld w).world = w := rfl

@[simp] theorem withWorld_trace (g : Stage σ) (w : World σ) : (g.withWorld w).trace = g.trace := rfl

@[simp] theorem record_world (g : Stage σ) (m : Moment σ) : (g.record m).world = g.world := rfl

@[simp] theorem record_trace (g : Stage σ) (m : Moment σ) : (g.record m).trace = m :: g.trace := rfl

@[simp] theorem note_world (g : Stage σ) (ls : List (Level σ)) (e : Event) :
    (g.note ls e).world = g.world := rfl

@[simp] theorem note_trace (g : Stage σ) (ls : List (Level σ)) (e : Event) :
    (g.note ls e).trace = ⟨ls, e, g.world⟩ :: g.trace := rfl

end Stage

end Boardwalk
