import Boardwalk.Proofs.Queue.Debts
import Boardwalk.Proofs.Queue.Register
/-!
# Batches of operations

Operations that are started on a manager while others are still pending answer and leave on the disk what they would if
each of them was started only when the one before it was over (`batch_in_turn`). They may be started all at once or
while the manager is at work.

An operation that makes a file and writes a value is the exception: the value goes into the queue as a job of its own
when the file is made. As long as nothing is started after it, this makes no difference (`inTurn_of_resting`).
-/

namespace Boardwalk.Registry

variable {σ : Type}

/-- What happens while a batch is served: an operation is started, or the manager takes a step. -/
inductive Move where
  | start (call : Nat) (o : Operation)
  | step

def play (r : Registry σ) (m : Nat) : List Move → Registry σ
  | [] => r
  | .start call o :: moves => play (r.start m call o.call) m moves
  | .step :: moves => play (r.hop m) m moves

def started : List Move → List (Nat × Operation)
  | [] => []
  | .start call o :: moves => (call, o) :: started moves
  | .step :: moves => started moves

/-- The operations one after the other, each when the one before it is over. -/
def performAll (r : Registry σ) (m : Nat) (os : List (Nat × Operation)) : Registry σ :=
  os.foldl (fun r a => r.perform m a.1 a.2.call) r

variable {r : Registry σ} {m : Nat} {x : Manager σ} {held : List Place} {l : Location} {isOpen : Prop}
  {answers : List (Nat × Except Fault Value)} {d : Disk}

theorem Owes.play (moves : List Move) (h : Owes r m held l (started moves ≠ []) answers d)
    (hlast : ∀ a ∈ (started moves).dropLast, a.2.hasMore = false) :
    Owes (play r m moves) m held l False (answers ++ (Operation.runAll held l (started moves) d).1)
      (Operation.runAll held l (started moves) d).2 := by
  induction moves generalizing r answers d with
  | nil => exact h.mono False.elim (List.Perm.of_eq (List.append_nil _).symm)
  | cons move moves ih =>
    cases move with
    | step => exact ih h.hop hlast
    | start call o =>
      have hopen : Owes r m held l True answers d := h.mono (fun _ => List.cons_ne_nil _ _) (List.Perm.refl _)
      -- only who is started last may have a value to write
      have hno : started moves ≠ [] → o.hasMore = false := by
        intro hne
        refine hlast (call, o) ?_
        rw [started, List.dropLast_cons_of_ne_nil hne]
        exact List.mem_cons_self
      have hrest : ∀ a ∈ (started moves).dropLast, a.2.hasMore = false := by
        intro a ha
        refine hlast a ?_
        have hne : started moves ≠ [] := by
          rintro he
          simp [he] at ha
        rw [started, List.dropLast_cons_of_ne_nil hne]
        exact List.mem_cons_of_mem _ ha
      refine (ih ((hopen.start call o).mono hno (List.Perm.refl _)) hrest).mono id (List.Perm.of_eq ?_)
      exact List.append_assoc _ _ _

theorem play_settles (h : Resting r m x) (moves : List Move)
    (hlast : ∀ a ∈ (started moves).dropLast, a.2.hasMore = false) :
    ∃ y, Resting ((play r m moves).settle m) m y ∧ y.location = x.location ∧
      ((play r m moves).settle m).world.held = r.world.held ∧
      ((play r m moves).settle m).answers.Perm
        (r.answers ++ (Operation.runAll r.world.held x.location (started moves) r.world.disk).1) ∧
      ((play r m moves).settle m).world.disk =
        (Operation.runAll r.world.held x.location (started moves) r.world.disk).2 :=
  ((h.owes.mono (fun _ => trivial) (List.Perm.refl _)).play moves hlast).paid

theorem performAll_settles (h : Resting r m x) (os : List (Nat × Operation)) :
    ∃ y, Resting (performAll r m os) m y ∧ y.location = x.location ∧
      (performAll r m os).world.held = r.world.held ∧
      (performAll r m os).answers.Perm (r.answers ++ (Operation.runAll r.world.held x.location os r.world.disk).1) ∧
      (performAll r m os).world.disk = (Operation.runAll r.world.held x.location os r.world.disk).2 := by
  induction os generalizing r x with
  | nil => exact ⟨x, h, rfl, rfl, List.Perm.of_eq (List.append_nil _).symm, rfl⟩
  | cons a os ih =>
    obtain ⟨call, o⟩ := a
    obtain ⟨y, hy, hly, hh, hans, hd⟩ := play_settles h [.start call o] (by simp [started])
    obtain ⟨z, hz, hlz, hh', hans', hd'⟩ := ih hy
    rw [hh, hly, hd] at hans' hd'
    refine ⟨z, hz, hlz.trans hly, hh'.trans hh, hans'.trans ?_, hd'⟩
    refine (hans.append_right _).trans (List.Perm.of_eq ?_)
    exact List.append_assoc _ _ _

/-- The batch and the operations one after the other give the same answers and leave the same disk. -/
structure InTurn (r : Registry σ) (m : Nat) (moves : List Move) : Prop where
  answers : ((play r m moves).settle m).answers.Perm (performAll r m (started moves)).answers
  disk : ((play r m moves).settle m).world.disk = (performAll r m (started moves)).world.disk
  /-- Then the manager has nothing more to do, so that the next batch can be started. -/
  rests : ∃ y, Resting ((play r m moves).settle m) m y

theorem inTurn_of_resting (h : Resting r m x) (moves : List Move)
    (hlast : ∀ a ∈ (started moves).dropLast, a.2.hasMore = false) : InTurn r m moves := by
  obtain ⟨y, hy, -, -, hans, hd⟩ := play_settles h moves hlast
  obtain ⟨z, hz, -, -, hans', hd'⟩ := performAll_settles h (started moves)
  exact ⟨hans.trans hans'.symm, hd.trans hd'.symm, y, hy⟩

/-- **A batch is served in turn, and the file is a register**: what is read is what the last change has left, and before
any change what is found in the file's place (`StateFile.found?_cases`). -/
theorem batch_in_turn (h : Resting r m x) (moves : List Move) (hno : ∀ a ∈ started moves, a.2.hasMore = false) :
    InTurn r m moves ∧ ∃ results : List (Except Fault Value),
      results.length = (started moves).length ∧
      ((play r m moves).settle m).answers.Perm (r.answers ++ ((started moves).map Prod.fst).zip results) ∧
      (StateFile.CanLock r.world.held x.location r.world.disk →
        ∀ before call after, started moves = before ++ (call, Operation.read) :: after →
          results[before.length]? = some (latest
            (StateFile.answerOf (StateFile.found? x.location r.world.disk)) ((before.map Prod.snd).zip results))) := by
  have hlast : ∀ a ∈ (started moves).dropLast, a.2.hasMore = false := fun a ha => hno a (List.dropLast_subset _ ha)
  obtain ⟨y, hy, -, -, hans, hd⟩ := play_settles h moves hlast
  have hcalls := Operation.runAll_calls r.world.held x.location (started moves) r.world.disk
  refine ⟨inTurn_of_resting h moves hlast,
    (Operation.runAll r.world.held x.location (started moves) r.world.disk).1.map Prod.snd, ?_, ?_, ?_⟩
  · have := congrArg List.length hcalls
    simpa using this
  · rw [← List.zip_of_prod hcalls rfl]
    exact hans
  · intro hlock before call after he
    rw [he]
    refine runAll_read hlock.finds before after call fun a ha => hno a ?_
    rw [he]
    exact List.mem_append_left _ ha

def drawer : Manager Unit := ⟨"s.json", Location.ofText "s.json", .empty, []⟩

def desk : Registry Unit := ((ofWorld ⟨"/", Disk.empty, [], [], [], ()⟩).manager drawer.text drawer.location).2

theorem resting_desk : Resting desk 0 drawer := resting_manager _ _ _

def errands : List Move :=
  [.start 0 (.update (.bool true)), .start 1 .read, .step, .start 2 (.init none), .step, .step, .start 3 .read]

theorem desk_batch_in_turn : Resting desk 0 drawer ∧ InTurn desk 0 errands ∧
    ∃ results : List (Except Fault Value), ((play desk 0 errands).settle 0).answers.Perm ([0, 1, 2, 3].zip results) ∧
      results[1]? = some (latest (.ok .null) ([.update (.bool true)].zip results)) ∧
      results[3]? = some (latest (.ok .null) ([.update (.bool true), .read, .init none].zip results)) := by
  obtain ⟨hturn, results, -, hans, hread⟩ := batch_in_turn resting_desk errands (by decide)
  have hread := hread rfl
  exact ⟨resting_desk, hturn, results, hans, hread [(0, .update (.bool true))] 1 _ rfl,
    hread [(0, .update (.bool true)), (1, .read), (2, .init none)] 3 _ rfl⟩

end Boardwalk.Registry
