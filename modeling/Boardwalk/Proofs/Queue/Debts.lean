import Boardwalk.Proofs.Queue.Service
/-!
# What a manager owes

A manager at work owes answers to his callers and a disk to the world: those that the first jobs of the pending orders
lead to, one after the other, and then the writes of those who have a value to write (`promised`). No step of the manager
changes what he owes (`Owes.hop`); when he is at rest all is paid (`Owes.paid`). An operation that is started adds
what it does alone, unless somebody has still a value to write, who would come after it (`Owes.start`).
-/

namespace Boardwalk.Registry

variable {σ : Type}

/-- What pending orders lead to by their first jobs, and the writes that follow. -/
def due (held : List Place) (l : Location) :
    List (Order σ × Except Fault Value) → List (Order σ) → Disk →
      List (Nat × Except Fault Value) × List (Nat × Operation) × Disk
  | [], as, d => Operation.opening held l (as.map Order.asked) d
  | (a, res) :: told, as, d =>
    let y := due held l told as d
    match a.op.rest res with
    | none => ((a.call, res) :: y.1, y.2.1, y.2.2)
    | some v => (y.1, (a.call, .update v) :: y.2.1, y.2.2)

def promised (held : List Place) (l : Location) (told : List (Order σ × Except Fault Value)) (as : List (Order σ))
    (d : Disk) : List (Nat × Except Fault Value) × Disk :=
  Operation.follow held l (due held l told as d)

def pending (told : List (Order σ × Except Fault Value)) (as : List (Order σ)) : List Operation :=
  (told.map Prod.fst ++ as).map Order.op

/-- A manager owes answers, those that were given included, and a disk. If it is open, nobody has a value to write when
his file is made. -/
inductive Owes (r : Registry σ) (m : Nat) (held : List Place) (l : Location) (isOpen : Prop)
    (answers : List (Nat × Except Fault Value)) (d : Disk) : Prop where
  | mk (x : Manager σ) (told : List (Order σ × Except Fault Value)) (as : List (Order σ)) :
      Serves r m x told as → x.location = l → r.world.held = held →
      (isOpen → ∀ o ∈ pending told as, o.hasMore = false) →
      (r.answers ++ (promised held l told as r.world.disk).1).Perm answers →
      (promised held l told as r.world.disk).2 = d → Owes r m held l isOpen answers d

variable {r : Registry σ} {m : Nat} {held : List Place} {l : Location} {isOpen : Prop}
  {answers : List (Nat × Except Fault Value)} {d : Disk}

theorem due_append (held : List Place) (l : Location) (told : List (Order σ × Except Fault Value))
    (as bs : List (Order σ)) (d : Disk) : due held l told (as ++ bs) d =
      ((due held l told as d).1 ++ (Operation.opening held l (bs.map Order.asked) (due held l told as d).2.2).1,
        (due held l told as d).2.1 ++ (Operation.opening held l (bs.map Order.asked) (due held l told as d).2.2).2.1,
        (Operation.opening held l (bs.map Order.asked) (due held l told as d).2.2).2.2) := by
  induction told with
  | nil => rw [due, List.map_append, Operation.opening_append, due]
  | cons t told ih =>
    obtain ⟨b, res⟩ := t
    simp only [due, ih]
    cases b.op.rest res with
    | none => rfl
    | some v => rfl

theorem opening_writes {os : List (Nat × Operation)} (h : ∀ a ∈ os, a.2.hasMore = false) (held : List Place)
    (l : Location) (d : Disk) : (Operation.opening held l os d).2.1 = [] := by
  induction os generalizing d with
  | nil => rfl
  | cons a os ih =>
    obtain ⟨call, o⟩ := a
    simp only [Operation.opening, Operation.rest_of_not_hasMore (h _ List.mem_cons_self)]
    exact ih (fun b hb => h b (List.mem_cons_of_mem _ hb)) _

theorem due_writes {told : List (Order σ × Except Fault Value)} {as : List (Order σ)}
    (h : ∀ o ∈ pending told as, o.hasMore = false) (held : List Place) (l : Location) (d : Disk) :
    (due held l told as d).2.1 = [] := by
  induction told with
  | nil =>
    refine opening_writes (fun a ha => ?_) held l d
    obtain ⟨b, hb, rfl⟩ := List.mem_map.mp ha
    exact h _ (List.mem_map_of_mem hb)
  | cons t told ih =>
    obtain ⟨b, res⟩ := t
    simp only [due, Operation.rest_of_not_hasMore (h b.op List.mem_cons_self)]
    exact ih fun o ho => h o (List.mem_cons_of_mem _ ho)

theorem Owes.mono (h : Owes r m held l isOpen answers d) {isOpen' : Prop} (ho : isOpen' → isOpen)
    {answers' : List (Nat × Except Fault Value)} (ha : answers.Perm answers') : Owes r m held l isOpen' answers' d := by
  obtain ⟨x, told, as, hs, hl, hh, hopen, hans, hd⟩ := h
  exact ⟨x, told, as, hs, hl, hh, fun h => hopen (ho h), hans.trans ha, hd⟩

theorem promised_concat {told : List (Order σ × Except Fault Value)} {as : List (Order σ)}
    (h : ∀ o ∈ pending told as, o.hasMore = false) (held : List Place) (l : Location) (a : Order σ) (d : Disk) :
    promised held l told (as ++ [a]) d =
      ((promised held l told as d).1 ++ [(a.call, (a.op.run held l (promised held l told as d).2).1)],
        (a.op.run held l (promised held l told as d).2).2) := by
  have hwrites := due_writes h held l d
  have hone := Operation.runBatch_one held l a.call a.op (due held l told as d).2.2
  have hnow : promised held l told as d = ((due held l told as d).1, (due held l told as d).2.2) := by
    rw [promised, Operation.follow, hwrites, Operation.runAll, List.append_nil]
  rw [hnow, promised, due_append, hwrites, List.nil_append]
  refine (Operation.follow_append held l _ (Operation.opening held l [a.asked] (due held l told as d).2.2)).trans ?_
  rw [← Operation.runBatch, Order.asked, hone]

theorem Owes.start (h : Owes r m held l True answers d) (call : Nat) (o : Operation) :
    Owes (r.start m call o.call) m held l (o.hasMore = false) (answers ++ [(call, (o.run held l d).1)])
      (o.run held l d).2 := by
  obtain ⟨x, told, as, hs, hl, hh, hopen, hans, hd⟩ := h
  have hopen := hopen trivial
  cases hj : o.job? x with
  | none =>
    obtain ⟨f, hf⟩ := Operation.refused_of_none hj
    obtain ⟨w, hwd, hwh, he⟩ := start_refused hs.manager hf call
    rw [he, Operation.run_refused hf]
    -- the answer is given before those of the pending orders
    refine ⟨x, told, as, hs.of_manager hs.manager, hl, hwh.trans hh, fun _ => hopen, ?_, hwd ▸ hd⟩
    rw [hwd]
    refine List.Perm.trans ?_ (hans.append_right _)
    show (r.answers ++ [_] ++ _).Perm _
    rw [List.append_assoc, List.append_assoc]
    exact List.perm_append_comm.append_left _
  | some j =>
    rw [start_eq hs.manager hj]
    obtain ⟨y, hy, hly⟩ := hs.enqueue hj call
    have hp := promised_concat hopen held l ⟨call, x.queue.issued, o, j⟩ r.world.disk
    rw [hd] at hp
    refine ⟨y, told, _, hy, hly.trans hl, hh, ?_, ?_, ?_⟩
    · intro ho p hp
      have hpend : pending told (as ++ [⟨call, x.queue.issued, o, j⟩]) = pending told as ++ [o] := by simp [pending]
      rw [hpend] at hp
      rcases List.mem_append.mp hp with hp | hp
      · exact hopen p hp
      · rw [List.mem_singleton.mp hp]
        exact ho
    · show (r.answers ++ (promised held l told _ r.world.disk).1).Perm _
      rw [hp, ← List.append_assoc]
      exact hans.append_right _
    · show (promised held l told _ r.world.disk).2 = _
      rw [hp]

/-- A write that is put into the queue comes after the first jobs of all others and before their writes. -/
theorem promised_write (held : List Place) (l : Location) (told : List (Order σ × Except Fault Value))
    (as : List (Order σ)) (call ticket : Nat) (v : Value) (j : Job (World σ)) (d : Disk) :
    promised held l told (as ++ [⟨call, ticket, .update v, j⟩]) d = Operation.follow held l
      ((due held l told as d).1, (call, .update v) :: (due held l told as d).2.1, (due held l told as d).2.2) := by
  rw [promised, due_append]
  simp only [Operation.follow, Operation.runAll, Operation.run_of_not_hasMore (o := .update v) rfl, List.map_cons,
    List.map_nil, Order.asked, Operation.opening, Operation.rest, List.append_nil, List.append_assoc,
    List.cons_append, List.nil_append]

/-- **A step changes nothing of what is owed.** -/
theorem Owes.hop (h : Owes r m held l isOpen answers d) : Owes (r.hop m) m held l isOpen answers d := by
  obtain ⟨x, told, as, hs, hl, hh, hopen, hans, hd⟩ := h
  cases told with
  | cons t told =>
    obtain ⟨a, res⟩ := t
    obtain ⟨y, he, hy, hly⟩ := hs.tell
    have hopen' : isOpen → ∀ o ∈ pending told as, o.hasMore = false :=
      fun ho o hmem => hopen ho o (List.mem_cons_of_mem _ hmem)
    rw [he]
    have hrest : a.caller.sequel.rest res = a.op.rest res := a.op.sequel_rest res
    cases hr : a.op.rest res with
    | none =>
      obtain ⟨places, he, -⟩ := resume_done (r := r.withManager m y) (m := m) (x := y) (hrest.trans hr)
      rw [he]
      simp only [promised, due, hr] at hans hd
      refine ⟨y, told, as, hy.of_manager hy.manager, hly.trans hl, hh, hopen', ?_, hd⟩
      refine List.Perm.trans (List.Perm.of_eq ?_) hans
      exact List.append_assoc _ _ _
    | some v =>
      -- who is told has a value to write, so the manager was not open
      have hno : ¬ isOpen := by
        intro ho
        have := Operation.rest_of_not_hasMore (hopen ho a.op List.mem_cons_self) res
        rw [hr] at this
        cases this
      rw [resume_more hy.manager (hrest.trans hr)]
      simp only [promised, due, hr] at hans hd
      cases hj : (Operation.update v).job? y with
      | none =>
        obtain ⟨f, hf⟩ := Operation.refused_of_none hj
        have hwrite := Operation.run_refused hf held l (due held l told as r.world.disk).2.2
        simp only [Operation.follow, Operation.runAll, hwrite] at hans hd
        obtain ⟨w, hwd, hwh, he⟩ := start_refused hy.manager hf a.caller.call
        rw [he]
        refine ⟨y, told, as, hy.of_manager hy.manager, hly.trans hl, hwh.trans hh, fun ho => absurd ho hno, ?_, ?_⟩
        all_goals dsimp only; rw [hwd]
        rotate_left
        · exact hd
        refine List.Perm.trans ?_ hans
        show (r.answers ++ [_] ++ (_ ++ _)).Perm _
        rw [List.append_assoc, List.singleton_append]
        exact List.Perm.append_left _ List.perm_middle.symm
      | some j =>
        -- the write is now an order, behind all first jobs and ahead of the writes of those who are told later
        rw [start_eq hy.manager hj]
        obtain ⟨z, hz, hlz⟩ := hy.enqueue hj a.call
        rw [← promised_write held l told as a.call y.queue.issued v j] at hans hd
        exact ⟨z, told, _, hz, (hlz.trans hly).trans hl, hh, fun ho => absurd ho hno, hans, hd⟩
  | nil =>
    by_cases hb : ∃ a bs, as = a :: bs ∧ x.queue.workers = [some (a.inQueue, 0)]
    · -- the order that ends is the first of those that were pending, so its job finds the disk that was reckoned with
      obtain ⟨a, bs, rfl, hw⟩ := hb
      obtain ⟨y, hy, hly, ha, hworld⟩ := hs.ends hw
      have hf := Operation.job?_finishes (hs.jobs a List.mem_cons_self)
      have hp : promised held l [(a, (a.job.finish r.world).1)] bs (a.job.finish r.world).2.disk =
          promised held l [] (a :: bs) r.world.disk := by
        rw [hf.result, hf.disk, hh, hl]
        rfl
      rw [← hp] at hans hd
      refine ⟨y, _, bs, hy, hly.trans hl, ?_, hopen, ?_, ?_⟩
      · rw [hworld, hf.held, hh]
      · rw [ha, hworld]
        exact hans
      · rw [hworld]
        exact hd
    · obtain ⟨y, hy, hly, ha, hworld⟩ := hs.goes_on fun a bs he hw => hb ⟨a, bs, he, hw⟩
      refine ⟨y, [], as, hy, hly.trans hl, ?_, hopen, ?_, ?_⟩
      · rw [hworld, hh]
      · rw [ha, hworld]
        exact hans
      · rw [hworld]
        exact hd

/-! ## At rest -/

/-- A manager that has nothing to do, as one that was just made. -/
structure Resting (r : Registry σ) (m : Nat) (x : Manager σ) : Prop where
  manager : r.managers[m]? = some x
  isDraining : x.queue.isDraining = false
  workers : x.queue.workers = []
  waiting : x.queue.waiting = []
  settled : x.queue.settled = []
  callers : x.callers = []
  cancelled : ∀ n ∈ x.queue.cancelled, n < x.queue.issued

variable {x : Manager σ}

theorem resting_manager (r : Registry σ) (text : String) (l : Location) :
    Resting (r.manager text l).2 (r.manager text l).1 ⟨text, l, .empty, []⟩ :=
  ⟨List.getElem?_concat_length, rfl, rfl, rfl, rfl, rfl, fun _ hn => nomatch hn⟩

theorem Resting.serves (h : Resting r m x) : Serves r m x [] [] :=
  ⟨h.manager, .idle h.isDraining h.workers h.waiting, h.settled, h.callers, by simp, by simp, by simp, by simp,
    h.cancelled⟩

theorem Resting.owes (h : Resting r m x) : Owes r m r.world.held x.location True r.answers r.world.disk :=
  ⟨x, [], [], h.serves, rfl, rfl, by simp [pending], List.Perm.of_eq (List.append_nil _), rfl⟩

/-- **A manager pays what he owes.** -/
theorem Owes.paid (h : Owes r m held l isOpen answers d) :
    ∃ x, Resting (r.settle m) m x ∧ x.location = l ∧ (r.settle m).world.held = held ∧
      (r.settle m).answers.Perm answers ∧ (r.settle m).world.disk = d := by
  have hstaffed : ∃ y, r.managers[m]? = some y ∧ y.queue.IsStaffed := by
    obtain ⟨y, told, as, hs, -⟩ := h
    exact ⟨y, hs.manager, hs.work.isStaffed⟩
  obtain ⟨y, hy, hstaff⟩ := hstaffed
  obtain ⟨z, hz, hrest⟩ := settle_atRest hy hstaff
  obtain ⟨x, told, as, hs, hl, hh, -, hans, hd⟩ :=
    settle_keeps (P := fun r => Owes r m held l isOpen answers d) (fun _ h => h.hop) h
  cases hz.symm.trans hs.manager
  have hidle : z.queue.isIdle = true ∧ z.queue.settled.isEmpty = true := Bool.and_eq_true_iff.mp hrest
  have hdraining := hs.work.isStaffed.isIdle_iff.mp hidle.1
  have htold : told = [] := by
    have hset := List.isEmpty_iff.mp hidle.2
    rw [hs.settled] at hset
    exact List.map_eq_nil_iff.mp hset
  subst htold
  cases hs.work with
  | idle hd' hw hq =>
    rw [show promised held l [] [] _ = ([], _) from rfl, List.append_nil] at hans
    exact ⟨z, ⟨hz, hd', hw, hq, hs.settled, hs.callers, hs.cancelled⟩, hl, hh, hans, hd⟩
  | free hd' _ _ => cases hdraining.symm.trans hd'
  | busy hd' _ _ => cases hdraining.symm.trans hd'

end Boardwalk.Registry
