import Boardwalk.Proofs.Queue.Batch
/-!
# Files that are made with a value

An operation that makes a file and writes a value puts the value into the queue when the file is made. In a batch that is
started all at once the first jobs of all operations are done one after the other, and after these the values are
written (`Operation.runBatch`). So others may find the file empty, and what they write may be lost (`init_overtaken`).
Nothing of the kind happens to an operation that is started last.
-/

namespace Boardwalk.Registry

variable {σ : Type} {r : Registry σ} {m : Nat} {x : Manager σ}

def allAtOnce (os : List (Nat × Operation)) : List Move := os.map fun a => .start a.1 a.2

theorem Serves.startAll {as : List (Order σ)} (h : Serves r m x [] as) (os : List (Nat × Operation))
    (held : List Place) (l : Location) (d : Disk) :
    ∃ y bs, Serves (play r m (allAtOnce os)) m y [] bs ∧ y.location = x.location ∧
      (play r m (allAtOnce os)).world.disk = r.world.disk ∧ (play r m (allAtOnce os)).world.held = r.world.held ∧
      ((play r m (allAtOnce os)).answers ++ (Operation.opening held l (bs.map Order.asked) d).1).Perm
        (r.answers ++ (Operation.opening held l (as.map Order.asked ++ os) d).1) ∧
      (Operation.opening held l (bs.map Order.asked) d).2 =
        (Operation.opening held l (as.map Order.asked ++ os) d).2 := by
  induction os generalizing r x as with
  | nil =>
    rw [List.append_nil]
    exact ⟨x, as, h, rfl, rfl, rfl, List.Perm.refl _, rfl⟩
  | cons a os ih =>
    obtain ⟨call, o⟩ := a
    have hplay : play r m (allAtOnce ((call, o) :: os)) = play (r.start m call o.call) m (allAtOnce os) := rfl
    rw [hplay]
    cases hj : o.job? x with
    | none =>
      obtain ⟨f, hf⟩ := Operation.refused_of_none hj
      obtain ⟨w, hwd, hwh, he⟩ := start_refused h.manager hf call
      rw [he]
      obtain ⟨y, bs, hy, hl, hd, hh, hans, hrest⟩ :=
        ih (r := { r with world := w, answers := r.answers ++ [(call, refused f)] }) (h.of_manager h.manager)
      refine ⟨y, bs, hy, hl, hd.trans hwd, hh.trans hwh, hans.trans ?_, hrest.trans ?_⟩
      all_goals rw [Operation.opening_append, Operation.opening_append, Operation.opening_refused hf]
      show (r.answers ++ [_] ++ (_ ++ _)).Perm (r.answers ++ (_ ++ _ :: _))
      rw [List.append_assoc, List.singleton_append]
      exact List.Perm.append_left _ List.perm_middle.symm
    | some j =>
      rw [start_eq h.manager hj]
      obtain ⟨z, hz, hlz⟩ := h.enqueue hj call
      obtain ⟨y, bs, hy, hl, hd, hh, hans, hrest⟩ := ih hz
      have hasked : (as ++ [(⟨call, x.queue.issued, o, j⟩ : Order σ)]).map Order.asked ++ os =
          as.map Order.asked ++ (call, o) :: os := by
        simp [Order.asked]
      rw [hasked] at hans hrest
      exact ⟨y, bs, hy, hl.trans hlz, hd, hh, hans, hrest⟩

theorem allAtOnce_settles (h : Resting r m x) (os : List (Nat × Operation)) :
    ((play r m (allAtOnce os)).settle m).answers.Perm
        (r.answers ++ (Operation.runBatch r.world.held x.location os r.world.disk).1) ∧
      ((play r m (allAtOnce os)).settle m).world.disk =
        (Operation.runBatch r.world.held x.location os r.world.disk).2 := by
  obtain ⟨y, bs, hs, hl, hd, hh, hans, hrest⟩ := h.serves.startAll os r.world.held x.location r.world.disk
  have howes : Owes (play r m (allAtOnce os)) m r.world.held x.location False
      (r.answers ++ (Operation.runBatch r.world.held x.location os r.world.disk).1)
      (Operation.runBatch r.world.held x.location os r.world.disk).2 := by
    refine ⟨y, [], bs, hs, hl, hh, False.elim, ?_, ?_⟩
    all_goals rw [hd, promised, due, Operation.follow, hrest]
    · rw [← List.append_assoc]
      exact (hans.append_right _).trans (List.Perm.of_eq (List.append_assoc _ _ _))
    · rfl
  obtain ⟨z, -, -, -, hans, hd⟩ := howes.paid
  exact ⟨hans, hd⟩

/-- **What comes after an operation that makes a file with a value**: in a batch that is started all at once the values
are written after the first jobs of all operations. If nothing is started after such an operation, the batch is served in
turn. -/
theorem init_in_batch (h : Resting r m x) :
    (∀ os, ((play r m (allAtOnce os)).settle m).answers.Perm
        (r.answers ++ (Operation.runBatch r.world.held x.location os r.world.disk).1) ∧
      ((play r m (allAtOnce os)).settle m).world.disk =
        (Operation.runBatch r.world.held x.location os r.world.disk).2) ∧
    ∀ moves, (∀ a ∈ (started moves).dropLast, a.2.hasMore = false) → InTurn r m moves :=
  ⟨allAtOnce_settles h, inTurn_of_resting h⟩

theorem desk_init_in_batch : Resting desk 0 drawer ∧
    InTurn desk 0 (allAtOnce [(0, .delete), (1, .read), (2, .init (some (.bool true)))]) :=
  ⟨resting_desk, (init_in_batch resting_desk).2 _ (by decide)⟩

def overtaking : List (Nat × Operation) := [(0, .init (some (.bool true))), (1, .read), (2, .update (.bool true))]

def overwriting : List (Nat × Operation) := [(0, .init (some (.bool true))), (1, .update (.bool false))]

/-- The read is answered with none and not with the value, and the value is written over the one that was given last. -/
theorem init_overtaken : ¬ InTurn desk 0 (allAtOnce overtaking) ∧ ¬ InTurn desk 0 (allAtOnce overwriting) := by
  constructor
  · intro h
    have ha : ((play desk 0 (allAtOnce overtaking)).settle 0).answers =
        [(1, .ok .null), (2, .ok (.bool true)), (0, .ok (.bool true))] := by
      rfl
    have hb : (performAll desk 0 (started (allAtOnce overtaking))).answers =
        [(0, .ok (.bool true)), (1, .ok (.bool true)), (2, .ok (.bool true))] := by
      rfl
    have hmem := (ha ▸ hb ▸ h.answers).mem_iff (a := ((1, .ok .null) : Nat × Except Fault Value))
    simp at hmem
  · intro h
    have ha : ((play desk 0 (allAtOnce overwriting)).settle 0).world.disk.file? ["s.json"] = some "true\n".toUTF8 := by
      rfl
    have hb : (performAll desk 0 (started (allAtOnce overwriting))).world.disk.file? ["s.json"] =
        some "false\n".toUTF8 := by
      rfl
    rw [h.disk, hb] at ha
    exact absurd ha (by decide)

end Boardwalk.Registry
