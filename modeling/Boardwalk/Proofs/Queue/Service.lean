import Boardwalk.Proofs.Queue.Effects
import Boardwalk.Proofs.Queue.Settling
/-!
# A manager at work

The state of a manager is told by the orders that are pending with him (`Serves`). A step of his tells the next
caller (`Serves.tell`), lets the worker take up an order (`Serves.goes_on`) or ends one (`Serves.ends`).
-/

namespace Boardwalk.Registry

variable {σ : Type}

/-- An operation that was put into the queue. -/
structure Order (σ : Type) where
  call : Nat
  ticket : Nat
  op : Operation
  job : Job (World σ)

namespace Order

def inQueue (a : Order σ) : Ticket (World σ) := ⟨a.ticket, a.job⟩

def caller (a : Order σ) : Caller := ⟨a.call, a.ticket, a.op.sequel⟩

def asked (a : Order σ) : Nat × Operation := (a.call, a.op)

end Order

/-- The orders that are not settled yet: the worker is at the first one, or will take it up next. -/
inductive AtWork (q : Queue (World σ)) : List (Order σ) → Prop where
  | idle : q.isDraining = false → q.workers = [] → q.waiting = [] → AtWork q []
  | free {as} : q.isDraining = true → q.workers = [none] → q.waiting = as.map Order.inQueue → AtWork q as
  | busy {a as} : q.isDraining = true → q.workers = [some (a.inQueue, 0)] → q.waiting = as.map Order.inQueue →
      AtWork q (a :: as)

section

variable {q : Queue (World σ)} {as : List (Order σ)}

theorem AtWork.of_eq (h : AtWork q as) {p : Queue (World σ)} (hd : p.isDraining = q.isDraining)
    (hw : p.workers = q.workers) (hq : p.waiting = q.waiting) : AtWork p as := by
  cases h with
  | idle hd' hw' hq' => exact .idle (hd.trans hd') (hw.trans hw') (hq.trans hq')
  | free hd' hw' hq' => exact .free (hd.trans hd') (hw.trans hw') (hq.trans hq')
  | busy hd' hw' hq' => exact .busy (hd.trans hd') (hw.trans hw') (hq.trans hq')

theorem AtWork.isStaffed (h : AtWork q as) : q.IsStaffed := by
  cases h with
  | idle hd hw hq => exact .idle hd hw hq
  | free hd hw _ => exact .manned _ hd hw
  | busy hd hw _ => exact .manned _ hd hw

theorem AtWork.enqueue (h : AtWork q as) {a : Order σ} (ha : a.ticket = q.issued) :
    AtWork (q.enqueue a.job) (as ++ [a]) := by
  have hq : ∀ bs : List (Order σ), q.waiting = bs.map Order.inQueue →
      (q.enqueue a.job).waiting = (bs ++ [a]).map Order.inQueue := by
    intro bs hb
    rw [Queue.enqueue_eq, List.map_append, ← hb, ← ha]
    rfl
  have hd : (q.enqueue a.job).isDraining = true := by rw [Queue.enqueue_eq]
  cases h with
  | idle hd' hw' hq' => exact .free hd (by simp [Queue.enqueue_eq, hd', hw']) (hq [] hq')
  | free hd' hw' hq' => exact .free hd (by simp [Queue.enqueue_eq, hd', hw']) (hq _ hq')
  | busy hd' hw' hq' => exact .busy hd (by simp [Queue.enqueue_eq, hd', hw']) (hq _ hq')

theorem goOn_atWork (hd : q.isDraining = true) {b : Worker (World σ)} (hw : q.workers = [b])
    (hq : q.waiting = as.map Order.inQueue) (hy : ∀ a ∈ as, a.job.yields = 1) (hb : ∀ a ∈ as, ∀ w, a.job.begin w = w)
    (w : World σ) : ∃ p, q.goOn 0 w = (p, w) ∧ AtWork p as ∧ p.issued = q.issued ∧ p.cancelled = q.cancelled ∧
      p.settled = q.settled := by
  unfold Queue.goOn
  cases as with
  | nil =>
    rw [hq, List.map_nil]
    exact ⟨_, rfl, .idle rfl (by simp [hw]) rfl, rfl, rfl, rfl⟩
  | cons a as =>
    have hya : a.inQueue.job.yields = 0 + 1 := hy a List.mem_cons_self
    rw [hq, List.map_cons, Queue.takeUp_begins hya]
    have hba : a.inQueue.job.begin w = w := hb a List.mem_cons_self w
    rw [hba]
    exact ⟨_, rfl, .busy hd (by simp [hw]) rfl, rfl, rfl, rfl⟩

end

/-- The orders of a manager: those whose results are there but not told yet, and those that are not settled. -/
structure Serves (r : Registry σ) (m : Nat) (x : Manager σ) (told : List (Order σ × Except Fault Value))
    (as : List (Order σ)) : Prop where
  manager : r.managers[m]? = some x
  work : AtWork x.queue as
  settled : x.queue.settled = told.map fun t => (t.1.ticket, t.2)
  callers : x.callers = (told.map Prod.fst ++ as).map Order.caller
  jobs : ∀ a ∈ as, a.op.job? x = some a.job
  tickets : ((told.map Prod.fst ++ as).map Order.ticket).Nodup
  issued : ∀ a ∈ told.map Prod.fst ++ as, a.ticket < x.queue.issued
  heard : ∀ a ∈ as, a.ticket ∉ x.queue.cancelled
  cancelled : ∀ n ∈ x.queue.cancelled, n < x.queue.issued

section

variable {r : Registry σ} {m : Nat} {x : Manager σ} {told : List (Order σ × Except Fault Value)} {as : List (Order σ)}

theorem Serves.of_manager (h : Serves r m x told as) {r' : Registry σ} (hm : r'.managers[m]? = some x) :
    Serves r' m x told as := { h with manager := hm }

theorem Serves.enqueue (h : Serves r m x told as) {o : Operation} {j : Job (World σ)} (hj : o.job? x = some j)
    (call : Nat) : ∃ y, Serves (r.enqueue m x call j o.sequel) m y told (as ++ [⟨call, x.queue.issued, o, j⟩]) ∧
      y.location = x.location := by
  have hi : (x.queue.enqueue j).issued = x.queue.issued + 1 := by rw [Queue.enqueue_eq]
  have hc : (x.queue.enqueue j).cancelled = x.queue.cancelled := by rw [Queue.enqueue_eq]
  have hs : (x.queue.enqueue j).settled = x.queue.settled := by rw [Queue.enqueue_eq]
  refine ⟨_, ⟨getElem?_withManager h.manager _, ?_, hs.trans h.settled, ?_, ?_, ?_, ?_, ?_, ?_⟩, rfl⟩
  · exact h.work.enqueue (a := ⟨call, x.queue.issued, o, j⟩) rfl
  · simp [h.callers, Order.caller]
  · intro a ha
    rcases List.mem_append.mp ha with ha | ha
    · exact h.jobs a ha
    · rw [List.mem_singleton.mp ha]
      exact hj
  · rw [← List.append_assoc, List.map_append, List.nodup_append]
    refine ⟨h.tickets, by simp, ?_⟩
    rintro n hn k hk rfl
    obtain ⟨a, ha, rfl⟩ := List.mem_map.mp hn
    have := h.issued a ha
    simp at hk
    omega
  · intro a ha
    dsimp only
    rw [hi]
    rw [← List.append_assoc] at ha
    rcases List.mem_append.mp ha with ha | ha
    · have := h.issued a ha
      omega
    · rw [List.mem_singleton.mp ha]
      exact Nat.lt_succ_self _
  · intro a ha hm
    dsimp only at hm
    rw [hc] at hm
    rcases List.mem_append.mp ha with ha | ha
    · exact h.heard a ha hm
    · have := h.cancelled _ hm
      rw [List.mem_singleton.mp ha] at this
      exact Nat.lt_irrefl _ this
  · intro n hn
    dsimp only at hn ⊢
    rw [hc] at hn
    have := h.cancelled n hn
    omega

theorem Serves.tell {a : Order σ} {res : Except Fault Value} (h : Serves r m x ((a, res) :: told) as) :
    ∃ y, r.hop m = (r.withManager m y).resume m y a.caller res ∧ Serves (r.withManager m y) m y told as ∧
      y.location = x.location := by
  have hset : x.queue.settled = (a.ticket, res) :: told.map fun t => (t.1.ticket, t.2) := h.settled
  have hcallers : x.callers = a.caller :: (told.map Prod.fst ++ as).map Order.caller := h.callers
  have hfind : x.callers.find? (·.ticket == a.ticket) = some a.caller := by
    rw [hcallers, List.find?_cons_of_pos (by simp [Order.caller])]
  have hticket := h.tickets
  rw [List.map_cons, List.cons_append, List.map_cons, List.nodup_cons] at hticket
  have hfilter : x.callers.filter (·.ticket != a.ticket) = (told.map Prod.fst ++ as).map Order.caller := by
    rw [hcallers, List.filter_cons_of_neg (by simp [Order.caller])]
    refine List.filter_eq_self.mpr fun c hc => ?_
    obtain ⟨b, hb, rfl⟩ := List.mem_map.mp hc
    have hne : b.ticket ≠ a.ticket := fun e => hticket.1 (List.mem_map.mpr ⟨b, hb, e⟩)
    simpa [Order.caller] using hne
  refine ⟨_, hop_told h.manager hset hfind rfl, ⟨getElem?_withManager h.manager _, ?_, rfl, hfilter, h.jobs, hticket.2,
    fun b hb => h.issued b (List.mem_cons_of_mem _ hb), h.heard, h.cancelled⟩, rfl⟩
  exact h.work.of_eq rfl rfl rfl

/-- A step in which nobody is told and the worker ends no order. -/
theorem Serves.goes_on (h : Serves r m x [] as) (hb : ∀ a bs, as = a :: bs → x.queue.workers ≠ [some (a.inQueue, 0)]) :
    ∃ y, Serves (r.hop m) m y [] as ∧ y.location = x.location ∧ (r.hop m).answers = r.answers ∧
      (r.hop m).world = r.world := by
  have ⟨p, hp, hwork, hi, hc, hs⟩ : ∃ p, x.queue.tick 0 r.world = (p, r.world) ∧ AtWork p as ∧
      p.issued = x.queue.issued ∧ p.cancelled = x.queue.cancelled ∧ p.settled = x.queue.settled := by
    cases h.work with
    | idle hd hw hq => exact ⟨_, Queue.tick_none (by simp [hw]) _, h.work, rfl, rfl, rfl⟩
    | free hd hw hq =>
      rw [Queue.tick_free (by simp [hw])]
      exact goOn_atWork hd hw hq (fun a ha => Operation.job?_yields (h.jobs a ha))
        (fun a ha => Operation.job?_begin (h.jobs a ha)) _
    | busy hd hw hq => exact absurd hw (hb _ _ rfl)
  rw [hop_works h.manager h.settled, hp]
  refine ⟨_, ⟨getElem?_withManager h.manager _, hwork, hs.trans h.settled, h.callers, h.jobs, h.tickets, ?_, ?_, ?_⟩, rfl,
    rfl, rfl⟩
  · dsimp only
    rw [hi]
    exact h.issued
  · dsimp only
    rw [hc]
    exact h.heard
  · dsimp only
    rw [hi, hc]
    exact h.cancelled

/-- A step in which the worker ends an order. -/
theorem Serves.ends {a : Order σ} (h : Serves r m x [] (a :: as)) (hw : x.queue.workers = [some (a.inQueue, 0)]) :
    ∃ y, Serves (r.hop m) m y [(a, (a.job.finish r.world).1)] as ∧ y.location = x.location ∧
      (r.hop m).answers = r.answers ∧ (r.hop m).world = (a.job.finish r.world).2 := by
  have hd : x.queue.isDraining = true := by
    cases h.work with
    | free hd _ _ => exact hd
    | busy hd _ _ => exact hd
  have hq : x.queue.waiting = as.map Order.inQueue := by
    cases h.work with
    | free _ hw' _ => simp [hw] at hw'
    | busy _ _ hq => exact hq
  -- the result is kept for the caller, since nobody cancelled the order
  have hheard : x.queue.settle a.inQueue (a.job.finish r.world).1 =
      { x.queue with settled := [(a.ticket, (a.job.finish r.world).1)] } := by
    have hs : x.queue.settled = [] := h.settled
    have hc : x.queue.cancelled.contains a.inQueue.number = false := by
      simpa [Order.inQueue] using h.heard a List.mem_cons_self
    rw [Queue.settle_eq, hs, hc]
    rfl
  obtain ⟨p, hp, hwork, hi, hc, hs⟩ := goOn_atWork
    (q := { x.queue with settled := [(a.ticket, (a.job.finish r.world).1)] }) hd hw hq
    (fun b hb => Operation.job?_yields (h.jobs b (List.mem_cons_of_mem _ hb)))
    (fun b hb => Operation.job?_begin (h.jobs b (List.mem_cons_of_mem _ hb))) (a.job.finish r.world).2
  rw [hop_works h.manager h.settled, Queue.tick_last (t := a.inQueue) (by simp [hw])]
  have hgo : (x.queue.settle a.inQueue (a.inQueue.job.finish r.world).1).goOn 0 (a.inQueue.job.finish r.world).2 =
      (p, (a.job.finish r.world).2) := by
    rw [← hp, ← hheard]
    rfl
  rw [hgo]
  refine ⟨_, ⟨getElem?_withManager h.manager _, hwork, hs, h.callers,
    fun b hb => h.jobs b (List.mem_cons_of_mem _ hb), h.tickets, ?_, ?_, ?_⟩, rfl, rfl, rfl⟩
  · dsimp only
    rw [hi]
    exact h.issued
  · dsimp only
    rw [hc]
    exact fun b hb => h.heard b (List.mem_cons_of_mem _ hb)
  · dsimp only
    rw [hi, hc]
    exact h.cancelled

end

end Boardwalk.Registry
