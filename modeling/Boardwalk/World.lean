import Boardwalk.Disk.StateFile
import Boardwalk.Log.Entry
import Boardwalk.Record.Timeline
/-!
# The world of a run

What a run reads and changes: the disk, the locks that others hold, the journals in memory, the log, and
whatever the code of the boards keeps for itself.
-/

namespace Boardwalk

/-- A journal in memory, with the name that its file gives for the board. -/
structure Model where
  board : String
  timeline : Timeline
  deriving Inhabited

/-- A session's place in a tree of boards: the positions of the story frames that lead to it. -/
abbrev Address := List Nat

structure World (σ : Type) where
  base : String
  disk : Disk
  /-- The files that stand for the locks that others hold. -/
  held : List Place
  memory : List (Address × Model)
  log : List Log.Entry
  user : σ

/-- What the code of a board may change. -/
structure Scene (σ : Type) where
  disk : Disk
  user : σ

/-- Code of a board: it sees the world and may raise a fault. -/
abbrev Code (σ α : Type) := World σ → Except Fault α × Scene σ

namespace World

variable {σ : Type}

def scene (w : World σ) : Scene σ := ⟨w.disk, w.user⟩

def withScene (w : World σ) (s : Scene σ) : World σ := { w with disk := s.disk, user := s.user }

def withDisk (w : World σ) (d : Disk) : World σ := { w with disk := d }

def report (w : World σ) (e : Log.Entry) : World σ := { w with log := w.log ++ [e] }

/-- The journal that a session has in memory; none if it is not loaded. -/
def model? (w : World σ) (a : Address) : Option Model := w.memory.lookup a

def remember (w : World σ) (a : Address) (m : Model) : World σ :=
  { w with memory := (a, m) :: w.memory.filter (·.1 != a) }

def forget (w : World σ) (a : Address) : World σ :=
  { w with memory := w.memory.filter (·.1 != a) }

def journal (w : World σ) (a : Address) : Timeline := ((w.model? a).map Model.timeline).getD []

def withJournal (w : World σ) (a : Address) (t : Timeline) : World σ :=
  match w.model? a with
  | some m => w.remember a { m with timeline := t }
  | none => w

def append (w : World σ) (a : Address) (r : Record) : World σ :=
  (w.withJournal a (w.journal a ++ [r])).report (Log.entry Log.debug Log.Logger.timeline
    "Timeline record added" [("index", r.index), ("frame", .str r.name), ("type", .str r.kind)])

def call {α : Type} (w : World σ) (code : Code σ α) : Except Fault α × World σ :=
  let (r, s) := code w
  (r, w.withScene s)

@[simp] theorem report_disk (w : World σ) (e : Log.Entry) : (w.report e).disk = w.disk := rfl

@[simp] theorem report_user (w : World σ) (e : Log.Entry) : (w.report e).user = w.user := rfl

@[simp] theorem report_memory (w : World σ) (e : Log.Entry) : (w.report e).memory = w.memory := rfl

theorem lookup_filter_self (a : Address) (ms : List (Address × Model)) :
    (ms.filter (·.1 != a)).lookup a = none := by
  induction ms with
  | nil => rfl
  | cons m ms ih =>
    obtain ⟨b, x⟩ := m
    by_cases hb : b = a
    · simp [hb, ih]
    · have h₁ : (b != a) = true := by simpa using hb
      have h₂ : (a == b) = false := by simpa using fun e : a = b => hb e.symm
      simp only [List.filter, h₁, List.lookup_cons, h₂, ih]

theorem lookup_filter_ne {a b : Address} (h : b ≠ a) (ms : List (Address × Model)) :
    (ms.filter (·.1 != a)).lookup b = ms.lookup b := by
  induction ms with
  | nil => rfl
  | cons m ms ih =>
    obtain ⟨c, x⟩ := m
    by_cases hc : c = a
    · have : (b == c) = false := by simpa [hc] using h
      have h₁ : (c != a) = false := by simpa using hc
      simp only [List.filter, h₁, List.lookup_cons, this, ih]
    · have h₁ : (c != a) = true := by simpa using hc
      simp only [List.filter, h₁, List.lookup_cons, ih]

@[simp] theorem model?_remember_self (w : World σ) (a : Address) (m : Model) :
    (w.remember a m).model? a = some m := by simp [model?, remember]

@[simp] theorem model?_remember_ne (w : World σ) (m : Model) {a b : Address} (h : b ≠ a) :
    (w.remember a m).model? b = w.model? b := by
  have : (b == a) = false := by simpa using h
  simp [model?, remember, List.lookup_cons, this, lookup_filter_ne h]

@[simp] theorem model?_forget_self (w : World σ) (a : Address) : (w.forget a).model? a = none := by
  simp [model?, forget, lookup_filter_self]

@[simp] theorem model?_forget_ne (w : World σ) {a b : Address} (h : b ≠ a) :
    (w.forget a).model? b = w.model? b := by
  simp [model?, forget, lookup_filter_ne h]

end World

end Boardwalk
