import Boardwalk.Queue.Basic
/-!
# The worker of a queue

A queue has one worker while it is marked as being drained, and otherwise none and nothing to do (`IsStaffed`). What
a worker does when he is resumed is told by `Takes` for the jobs that he takes up and by `Ticks` for the whole queue;
every resumption brings the end of his work nearer (`tick_effort`).
-/

namespace Boardwalk.Queue

variable {σ : Type} {q : Queue σ} {t : Ticket σ}

/-- The mark tells whether there is a worker, and there is never more than one. -/
inductive IsStaffed (q : Queue σ) : Prop where
  | idle : q.isDraining = false → q.workers = [] → q.waiting = [] → IsStaffed q
  | manned (w : Worker σ) : q.isDraining = true → q.workers = [w] → IsStaffed q

theorem IsStaffed.workers_le (h : q.IsStaffed) : q.workers.length ≤ 1 := by
  cases h with
  | idle _ hw _ => simp [hw]
  | manned _ _ hw => simp [hw]

theorem IsStaffed.isIdle_iff (h : q.IsStaffed) : q.isIdle = true ↔ q.isDraining = false := by
  cases h with
  | idle hd _ hq => simp [isIdle, hd, hq]
  | manned _ hd _ => simp [isIdle, hd]

theorem isStaffed_empty : (empty : Queue σ).IsStaffed := .idle rfl rfl rfl

/-! ## Putting jobs in -/

theorem enqueue_eq (q : Queue σ) (j : Job σ) : q.enqueue j =
    { q with issued := q.issued + 1, waiting := q.waiting ++ [⟨q.issued, j⟩], isDraining := true,
             workers := if q.isDraining then q.workers else q.workers ++ [none] } := by
  unfold enqueue
  cases q.isDraining <;> simp

theorem IsStaffed.enqueue (h : q.IsStaffed) (j : Job σ) : (q.enqueue j).IsStaffed := by
  rw [enqueue_eq]
  cases h with
  | idle hd hw _ => exact .manned none rfl (by simp [hd, hw])
  | manned w hd hw => exact .manned w rfl (by simp [hd, hw])

theorem IsStaffed.cancel (h : q.IsStaffed) (n : Nat) : (q.cancel n).IsStaffed := by
  cases h with
  | idle hd hw hq => exact .idle hd hw hq
  | manned w hd hw => exact .manned w hd hw

theorem IsStaffed.settledBy (h : q.IsStaffed) (es : List (Nat × Except Fault Value)) :
    IsStaffed { q with settled := es } := by
  cases h with
  | idle hd hw hq => exact .idle hd hw hq
  | manned w hd hw => exact .manned w hd hw

/-! ## Taking up jobs -/

theorem settle_eq (q : Queue σ) (t : Ticket σ) (r : Except Fault Value) : q.settle t r =
    { q with settled := q.settled ++ if q.cancelled.contains t.number then [] else [(t.number, r)] } := by
  unfold settle
  split <;> simp

@[simp] theorem settle_workers (q : Queue σ) (t : Ticket σ) (r : Except Fault Value) :
    (q.settle t r).workers = q.workers := by
  rw [settle_eq]

@[simp] theorem settle_waiting (q : Queue σ) (t : Ticket σ) (r : Except Fault Value) :
    (q.settle t r).waiting = q.waiting := by
  rw [settle_eq]

@[simp] theorem settle_isDraining (q : Queue σ) (t : Ticket σ) (r : Except Fault Value) :
    (q.settle t r).isDraining = q.isDraining := by
  rw [settle_eq]

theorem takeUp_begins {n : Nat} (h : t.job.yields = n + 1) (ts : List (Ticket σ)) (q : Queue σ) (s : σ) :
    takeUp (t :: ts) q s = (some (t, n), { q with waiting := ts }, t.job.begin s) := by
  simp only [takeUp, h]

theorem takeUp_over (h : t.job.yields = 0) (ts : List (Ticket σ)) (q : Queue σ) (s : σ) :
    takeUp (t :: ts) q s = takeUp ts (q.settle t (t.job.finish (t.job.begin s)).1)
      (t.job.finish (t.job.begin s)).2 := by
  simp only [takeUp, h]

/-- A worker takes jobs from the front of the queue: all that do not yield are over, and one that does is begun. -/
structure Takes (ts : List (Ticket σ)) (q : Queue σ) (w : Worker σ) (q' : Queue σ) : Prop where
  workers : q'.workers = q.workers
  issued : q'.issued = q.issued
  cancelled : q'.cancelled = q.cancelled
  waiting : ∃ gone, ts = gone ++ (w.map Prod.fst).toList ++ q'.waiting
  settled : ∃ new, q'.settled = q.settled ++ new ∧ ∀ e ∈ new, ∃ t ∈ ts, t.job.yields = 0 ∧ t.number = e.1
  begun : ∀ b, w = some b → q'.isDraining = q.isDraining
  left : w = none → q'.isDraining = false ∧ q'.waiting = []

theorem takeUp_takes (ts : List (Ticket σ)) (q : Queue σ) (s : σ) :
    Takes ts q (takeUp ts q s).1 (takeUp ts q s).2.1 := by
  induction ts generalizing q s with
  | nil => exact ⟨rfl, rfl, rfl, ⟨[], rfl⟩, ⟨[], by simp [takeUp], by simp⟩, by simp [takeUp], fun _ => ⟨rfl, rfl⟩⟩
  | cons t ts ih =>
    cases hy : t.job.yields with
    | succ n =>
      rw [takeUp_begins hy]
      exact ⟨rfl, rfl, rfl, ⟨[], rfl⟩, ⟨[], by simp, by simp⟩, fun _ _ => rfl, by simp⟩
    | zero =>
      rw [takeUp_over hy, settle_eq]
      have h := ih { q with settled := q.settled ++ if q.cancelled.contains t.number then [] else
        [(t.number, (t.job.finish (t.job.begin s)).1)] } (t.job.finish (t.job.begin s)).2
      obtain ⟨gone, ho⟩ := h.waiting
      obtain ⟨new, hn, hz⟩ := h.settled
      refine ⟨h.workers, h.issued, h.cancelled, ⟨t :: gone, congrArg (t :: ·) ho⟩,
        ⟨_, hn.trans (List.append_assoc _ _ _), ?_⟩, h.begun, h.left⟩
      intro e he
      rcases List.mem_append.mp he with he | he
      · refine ⟨t, List.mem_cons_self, hy, ?_⟩
        split at he
        · cases he
        · rw [List.mem_singleton.mp he]
      · -- handed out after the first job
        obtain ⟨t', ht', hz⟩ := hz e he
        exact ⟨t', List.mem_cons_of_mem _ ht', hz⟩

/-! ## Resuming the worker -/

theorem tick_none {k : Nat} (h : q.workers[k]? = none) (s : σ) : q.tick k s = (q, s) := by
  simp only [tick, h]

theorem tick_free {k : Nat} (h : q.workers[k]? = some none) (s : σ) : q.tick k s = q.goOn k s := by
  simp only [tick, h]

theorem tick_between {k n : Nat} (h : q.workers[k]? = some (some (t, n + 1))) (s : σ) :
    q.tick k s = ({ q with workers := q.workers.set k (some (t, n)) }, t.job.between n s) := by
  simp only [tick, h]

theorem tick_last {k : Nat} (h : q.workers[k]? = some (some (t, 0))) (s : σ) :
    q.tick k s = (q.settle t (t.job.finish s).1).goOn k (t.job.finish s).2 := by
  simp only [tick, h]

/-- What a worker leaves when he is resumed: of what he hands out, only the result of the job that he was at can be
that of a job that yields. -/
structure Ticks (q q' : Queue σ) : Prop where
  staffed : q'.IsStaffed
  issued : q'.issued = q.issued
  cancelled : q'.cancelled = q.cancelled
  waiting : ∀ t ∈ q'.waiting, t ∈ q.waiting
  workers : ∀ t n, some (t, n) ∈ q'.workers → t ∈ q.waiting ∨ ∃ n, some (t, n) ∈ q.workers
  settled : ∃ own new, q'.settled = q.settled ++ (own ++ new) ∧ own.length ≤ 1 ∧
    (∀ e ∈ own, ∃ t n, some (t, n) ∈ q.workers ∧ t.number = e.1) ∧
    ∀ e ∈ new, ∃ t ∈ q.waiting, t.job.yields = 0 ∧ t.number = e.1

theorem IsStaffed.ticks (h : q.IsStaffed) : Ticks q q :=
  ⟨h, rfl, rfl, fun _ ht => ht, fun _ n ht => .inr ⟨n, ht⟩, [], [], by simp, by simp, by simp, by simp⟩

theorem goOn_ticks {w : Worker σ} (hd : q.isDraining = true) (hw : q.workers = [w])
    (own : List (Nat × Except Fault Value)) (hl : own.length ≤ 1)
    (ho : ∀ e ∈ own, ∃ t n, some (t, n) ∈ q.workers ∧ t.number = e.1) (s : σ) :
    Ticks q (goOn { q with settled := q.settled ++ own } 0 s).1 := by
  have ht := takeUp_takes q.waiting { q with settled := q.settled ++ own } s
  unfold goOn
  dsimp only
  rcases hx : takeUp q.waiting { q with settled := q.settled ++ own } s with ⟨b, q', s'⟩
  rw [hx] at ht
  obtain ⟨gone, hov⟩ := ht.waiting
  obtain ⟨new, hn, hz⟩ := ht.settled
  have hworkers : q'.workers = [w] := ht.workers.trans hw
  have hsettled : q'.settled = q.settled ++ (own ++ new) := hn.trans (List.append_assoc _ _ _)
  have hmem : ∀ t ∈ q'.waiting, t ∈ q.waiting := fun t h => by
    rw [hov]
    exact List.mem_append_right _ h
  cases b with
  | none =>
    have hw' : q'.workers.eraseIdx 0 = [] := by simp [hworkers]
    refine ⟨.idle (ht.left rfl).1 hw' (ht.left rfl).2, ht.issued, ht.cancelled, hmem, ?_, own, new, hsettled, hl, ho, hz⟩
    intro t n hm
    dsimp only at hm
    rw [hw'] at hm
    cases hm
  | some b =>
    have hw' : q'.workers.set 0 (some b) = [some b] := by simp [hworkers]
    refine ⟨.manned (some b) ((ht.begun b rfl).trans hd) hw', ht.issued, ht.cancelled, hmem, ?_, own, new, hsettled,
      hl, ho, hz⟩
    intro t n hm
    dsimp only at hm
    rw [hw'] at hm
    obtain rfl : (t, n) = b := Option.some.inj (List.mem_singleton.mp hm)
    refine .inl ?_
    rw [hov]
    simp

/-- **A worker who is resumed leaves a queue with one worker or none**, and what it holds was in it before. -/
theorem tick_ticks (h : q.IsStaffed) (k : Nat) (s : σ) : Ticks q (q.tick k s).1 := by
  cases h with
  | idle hd hw hq =>
    rw [tick_none (by simp [hw])]
    exact (IsStaffed.idle hd hw hq).ticks
  | manned w hd hw =>
    match k, w with
    | k + 1, w =>
      -- nobody else is there to be resumed
      rw [tick_none (by simp [hw])]
      exact (IsStaffed.manned w hd hw).ticks
    | 0, none =>
      rw [tick_free (by simp [hw])]
      simpa using goOn_ticks hd hw [] (by simp) (by simp) s
    | 0, some (t, n + 1) =>
      have hk : q.workers[0]? = some (some (t, n + 1)) := by simp [hw]
      rw [tick_between hk]
      have hw' : q.workers.set 0 (some (t, n)) = [some (t, n)] := by simp [hw]
      refine ⟨.manned (some (t, n)) hd hw', rfl, rfl, fun _ ht => ht, ?_, [], [], by simp, by simp, by simp, by simp⟩
      intro t' n' hm
      dsimp only at hm
      rw [hw'] at hm
      cases List.mem_singleton.mp hm
      exact .inr ⟨n + 1, by simp [hw]⟩
    | 0, some (t, 0) =>
      have hk : q.workers[0]? = some (some (t, 0)) := by simp [hw]
      rw [tick_last hk, settle_eq]
      refine goOn_ticks hd hw _ ?_ ?_ _
      · split <;> simp
      · intro e he
        split at he
        · cases he
        · rw [List.mem_singleton.mp he]
          exact ⟨t, 0, by simp [hw], rfl⟩

/-! ## The end of the work -/

theorem settle_length (q : Queue σ) (t : Ticket σ) (r : Except Fault Value) :
    (q.settle t r).settled.length ≤ q.settled.length + 1 := by
  rw [settle_eq]
  split <;> simp

theorem takeUp_load (ts : List (Ticket σ)) (q : Queue σ) (s : σ) :
    load (takeUp ts q s).2.1.waiting + ((takeUp ts q s).1.map (·.2 + 2)).getD 0 +
      (takeUp ts q s).2.1.settled.length ≤ load ts + q.settled.length := by
  induction ts generalizing q s with
  | nil => simp [takeUp, load]
  | cons t ts ih =>
    cases hy : t.job.yields with
    | succ n =>
      rw [takeUp_begins hy]
      simp only [load, hy, Option.map_some, Option.getD_some]
      omega
    | zero =>
      rw [takeUp_over hy]
      have h := ih (q.settle t (t.job.finish (t.job.begin s)).1) (t.job.finish (t.job.begin s)).2
      have hs := settle_length q t (t.job.finish (t.job.begin s)).1
      simp only [load, hy]
      omega

theorem goOn_effort {w : Worker σ} (hw : q.workers = [w]) (s : σ) :
    (q.goOn 0 s).1.effort + (q.goOn 0 s).1.settled.length ≤ load q.waiting + q.settled.length := by
  have hl := takeUp_load q.waiting q s
  have ht := takeUp_takes q.waiting q s
  unfold goOn
  rcases hx : takeUp q.waiting q s with ⟨b, q', s'⟩
  rw [hx] at hl ht
  have hworkers : q'.workers = [w] := ht.workers.trans hw
  cases b with
  | none =>
    simp only [Option.map_none, Option.getD_none] at hl
    simp only [effort, hworkers, List.eraseIdx_cons_zero, List.foldr_nil]
    omega
  | some b =>
    simp only [Option.map_some, Option.getD_some] at hl
    simp only [effort, hworkers, List.set_cons_zero, List.foldr_cons, List.foldr_nil, Worker.effort]
    omega

/-- **Whenever the worker is resumed the end comes nearer.** -/
theorem tick_effort (h : q.IsStaffed) (hd : q.isDraining = true) (s : σ) :
    (q.tick 0 s).1.effort + (q.tick 0 s).1.settled.length < q.effort + q.settled.length := by
  cases h with
  | idle hd' => simp [hd] at hd'
  | manned w hd hw =>
    match w with
    | none =>
      rw [tick_free (by simp [hw])]
      have hg := goOn_effort hw s
      simp only [effort, hw, List.foldr_cons, List.foldr_nil, Worker.effort] at hg ⊢
      omega
    | some (t, n + 1) =>
      have hk : q.workers[0]? = some (some (t, n + 1)) := by simp [hw]
      rw [tick_between hk]
      simp only [effort, hw, List.set_cons_zero, List.foldr_cons, List.foldr_nil, Worker.effort]
      omega
    | some (t, 0) =>
      have hk : q.workers[0]? = some (some (t, 0)) := by simp [hw]
      rw [tick_last hk]
      have hs := settle_length q t (t.job.finish s).1
      have hg := goOn_effort (q := q.settle t (t.job.finish s).1) ((settle_workers ..).trans hw) (t.job.finish s).2
      simp only [effort, hw, settle_waiting, List.foldr_cons, List.foldr_nil, Worker.effort] at hg ⊢
      omega

end Boardwalk.Queue
