import Boardwalk.Fault
/-!
# Queues of operations

Operations on one file take turns: they are begun in the order in which they were put into the queue, each
after the one before it is finished. An operation may yield any number of times on its way; in between, others may
be put into the queue. Who put an operation in gets its result, unless he has cancelled it; then the
operation runs all the same, and nobody hears of its result.

The operations are carried out by a worker. Who puts one in sends for a worker unless the queue is marked as being
drained; a worker who finds nothing more to do takes the mark away and leaves.
-/

namespace Boardwalk

structure Job (σ : Type) where
  yields : Nat
  begin : σ → σ
  /-- What it does when it is resumed to yield again, by the number of times that it yields after that. -/
  between : Nat → σ → σ := fun _ s => s
  finish : σ → Except Fault Value × σ

/-- A job in the queue, with the number under which its result is handed out. -/
structure Ticket (σ : Type) where
  number : Nat
  job : Job σ

/-- A worker is at the job that he has begun, with the number of times that it still yields, or at none yet. -/
abbrev Worker (σ : Type) := Option (Ticket σ × Nat)

def Worker.effort {σ : Type} : Worker σ → Nat
  | none => 1
  | some (_, n) => n + 2

structure Queue (σ : Type) where
  issued : Nat
  waiting : List (Ticket σ)
  workers : List (Worker σ)
  isDraining : Bool
  cancelled : List Nat
  settled : List (Nat × Except Fault Value)

namespace Queue

variable {σ : Type}

def empty : Queue σ := ⟨0, [], [], false, [], []⟩

def enqueue (q : Queue σ) (j : Job σ) : Queue σ :=
  let q := { q with issued := q.issued + 1, waiting := q.waiting ++ [⟨q.issued, j⟩] }
  if q.isDraining then q else { q with isDraining := true, workers := q.workers ++ [none] }

def cancel (q : Queue σ) (number : Nat) : Queue σ :=
  { q with cancelled := number :: q.cancelled }

def settle (q : Queue σ) (t : Ticket σ) (r : Except Fault Value) : Queue σ :=
  if q.cancelled.contains t.number then q else { q with settled := q.settled ++ [(t.number, r)] }

/-- Begins the waiting jobs one after the other, until one yields or none is left. -/
def takeUp : List (Ticket σ) → Queue σ → σ → Worker σ × Queue σ × σ
  -- nobody comes in between, so the next job that is put in sends for a worker again
  | [], q, s => (none, { q with waiting := [], isDraining := false }, s)
  | t :: ts, q, s =>
    match t.job.yields with
    | n + 1 => (some (t, n), { q with waiting := ts }, t.job.begin s)
    | 0 =>
      let (r, s) := t.job.finish (t.job.begin s)
      takeUp ts (q.settle t r) s

/-- Lets a worker who is done with his job go on with the waiting ones; he leaves when none is left. -/
def goOn (q : Queue σ) (k : Nat) (s : σ) : Queue σ × σ :=
  match takeUp q.waiting q s with
  | (some b, q, s) => ({ q with workers := q.workers.set k (some b) }, s)
  | (none, q, s) => ({ q with workers := q.workers.eraseIdx k }, s)

/-- Resumes a worker until his job yields or he leaves. -/
def tick (q : Queue σ) (k : Nat) (s : σ) : Queue σ × σ :=
  match q.workers[k]? with
  | none => (q, s)
  | some none => q.goOn k s
  | some (some (t, n + 1)) =>
    ({ q with workers := q.workers.set k (some (t, n)) }, t.job.between n s)
  | some (some (t, 0)) =>
    let (r, s) := t.job.finish s
    (q.settle t r).goOn k s

def isIdle (q : Queue σ) : Bool := q.waiting.isEmpty && !q.isDraining

def load : List (Ticket σ) → Nat
  | [] => 0
  | t :: ts => t.job.yields + 1 + load ts

def effort (q : Queue σ) : Nat := load q.waiting + q.workers.foldr (fun w n => Worker.effort w + n) 0

end Queue

end Boardwalk
