import Boardwalk.Proofs.Queue.Operations
/-!
# Managers come to rest

With every step a manager comes nearer to rest (`hop_left`), also in those that let a caller write a value now that his
file is made. So `settle` never stops before a manager is at rest (`settle_atRest`).
-/

namespace Boardwalk

namespace Queue

variable {σ : Type}

theorem load_append (ts us : List (Ticket σ)) : load (ts ++ us) = load ts + load us := by
  induction ts with
  | nil => simp [load]
  | cons t ts ih =>
    simp only [List.cons_append, load, ih]
    omega

theorem foldr_effort (ws : List (Worker σ)) (k : Nat) :
    ws.foldr (fun w n => Worker.effort w + n) k = ws.foldr (fun w n => Worker.effort w + n) 0 + k := by
  induction ws with
  | nil => simp
  | cons w ws ih =>
    simp only [List.foldr_cons, ih]
    omega

theorem enqueue_effort (q : Queue σ) (j : Job σ) : (q.enqueue j).effort ≤ q.effort + j.yields + 2 := by
  rw [enqueue_eq]
  simp only [effort, load_append, load]
  split
  · omega
  · rw [List.foldr_append, foldr_effort]
    simp only [List.foldr_cons, List.foldr_nil, Worker.effort]
    omega

end Queue

def Caller.hasMore (c : Caller) : Bool :=
  match c.sequel with
  | .write _ => true
  | _ => false

theorem Caller.hasMore_of_rest {c : Caller} {result : Except Fault Value} {v : Value}
    (h : c.sequel.rest result = some v) : c.hasMore = true := by
  obtain ⟨call, ticket, sequel⟩ := c
  cases sequel with
  | answer | forget => cases h
  | write u => rfl

namespace Registry

variable {σ : Type} {r : Registry σ} {m : Nat} {x : Manager σ}

/-- A bound on the number of steps that a manager still takes. -/
def left (x : Manager σ) : Nat :=
  x.queue.effort + x.queue.settled.length + 3 * x.callers.countP Caller.hasMore

theorem left_le_effort (x : Manager σ) : left x ≤ effort x := by
  have : x.callers.countP Caller.hasMore ≤ x.callers.length := List.countP_le_length
  unfold left effort
  omega

theorem enqueue_left (x : Manager σ) {j : Job (World σ)} (hj : j.yields = 1) {c : Caller} (hc : c.hasMore = false) :
    left { x with queue := x.queue.enqueue j, callers := x.callers ++ [c] } ≤ left x + 3 := by
  have he := x.queue.enqueue_effort j
  have hs : (x.queue.enqueue j).settled = x.queue.settled := by rw [Queue.enqueue_eq]
  have hn : (x.callers ++ [c]).countP Caller.hasMore = x.callers.countP Caller.hasMore := by
    rw [List.countP_append, List.countP_cons_of_neg (by simp [hc]), List.countP_nil, Nat.add_zero]
  simp only [left, hs, hn]
  omega

theorem told_left {cs : List Caller} {ticket : Nat} {c : Caller} (hc : cs.find? (·.ticket == ticket) = some c) :
    (cs.filter (·.ticket != ticket)).countP Caller.hasMore + (if c.hasMore then 1 else 0) ≤
      cs.countP Caller.hasMore := by
  induction cs with
  | nil => cases hc
  | cons d cs ih =>
    by_cases hd : d.ticket = ticket
    · rw [List.find?_cons_of_pos (by simpa using hd)] at hc
      cases hc
      rw [List.filter_cons_of_neg (by simp [hd]), List.countP_cons]
      have : (cs.filter (·.ticket != ticket)).countP Caller.hasMore ≤ cs.countP Caller.hasMore :=
        List.filter_sublist.countP_le
      omega
    · rw [List.find?_cons_of_neg (by simpa using hd)] at hc
      rw [List.filter_cons_of_pos (by simpa using hd), List.countP_cons, List.countP_cons]
      have := ih hc
      omega

theorem resume_left (hm : r.managers[m]? = some x) (hs : x.queue.IsStaffed) (c : Caller) (result : Except Fault Value) :
    ∃ y, (r.resume m x c result).managers[m]? = some y ∧ y.queue.IsStaffed ∧
      left y ≤ left x + if c.hasMore then 3 else 0 := by
  cases hr : c.sequel.rest result with
  | none =>
    obtain ⟨places, he, -⟩ := resume_done (r := r) (m := m) (x := x) hr
    rw [he]
    exact ⟨x, hm, hs, Nat.le_add_right _ _⟩
  | some v =>
    rw [resume_more hm hr, Caller.hasMore_of_rest hr, if_pos rfl]
    cases hj : (Operation.update v).job? x with
    | none =>
      obtain ⟨f, hf⟩ := Operation.refused_of_none hj
      obtain ⟨w, -, -, he⟩ := start_refused hm hf c.call
      rw [he]
      exact ⟨x, hm, hs, Nat.le_add_right _ _⟩
    | some j =>
      rw [start_eq hm hj]
      refine ⟨_, getElem?_withManager hm _, hs.enqueue j, ?_⟩
      exact enqueue_left x (Operation.job?_yields hj) rfl

/-- **Every step brings a manager nearer to rest.** -/
theorem hop_left (hm : r.managers[m]? = some x) (hs : x.queue.IsStaffed) (hx : isAtRest x = false) :
    ∃ y, (r.hop m).managers[m]? = some y ∧ y.queue.IsStaffed ∧ left y < left x := by
  cases hset : x.queue.settled with
  | nil =>
    rw [hop_works hm hset]
    have hd : x.queue.isDraining = true := by
      cases hd : x.queue.isDraining with
      | true => rfl
      | false => simp [isAtRest, hset, hs.isIdle_iff.mpr hd] at hx
    have ht := Queue.tick_effort hs hd r.world
    refine ⟨_, getElem?_withManager hm _, (Queue.tick_ticks hs 0 r.world).staffed, ?_⟩
    unfold left
    dsimp only
    omega
  | cons e rest =>
    obtain ⟨ticket, result⟩ := e
    cases hc : x.callers.find? (·.ticket == ticket) with
    | none =>
      rw [hop_unheard hm hset hc]
      refine ⟨_, getElem?_withManager hm _, hs.settledBy rest, ?_⟩
      simp only [left, hset, List.length_cons, Queue.effort]
      omega
    | some c =>
      obtain ⟨y, hy⟩ : ∃ y : Manager σ, y = { x with
        queue := { x.queue with settled := rest }
        callers := x.callers.filter (·.ticket != ticket) } := ⟨_, rfl⟩
      rw [hop_told hm hset hc hy]
      -- what was counted for the caller pays for the value that he writes
      have hl : left y + 1 + (if c.hasMore then 3 else 0) ≤ left x := by
        have ht := told_left hc
        simp only [hy, left, hset, List.length_cons, Queue.effort]
        split at ht
        · rw [if_pos ‹_›]
          omega
        · rw [if_neg ‹_›]
          omega
      obtain ⟨z, hz, hsz, hlz⟩ := resume_left (getElem?_withManager hm y) (by rw [hy]; exact hs.settledBy rest) c result
      exact ⟨z, hz, hsz, by omega⟩

theorem settleFor_atRest {n : Nat} (hm : r.managers[m]? = some x) (hs : x.queue.IsStaffed) (hn : left x ≤ n) :
    ∃ y, (settleFor n m r).managers[m]? = some y ∧ isAtRest y = true := by
  induction n generalizing r x with
  | zero =>
    refine ⟨x, hm, ?_⟩
    cases hx : isAtRest x with
    | true => rfl
    | false =>
      obtain ⟨_, _, _, hl⟩ := hop_left hm hs hx
      omega
  | succ n ih =>
    unfold settleFor
    rw [hm]
    cases hx : isAtRest x with
    | true => exact ⟨x, by simpa [hx] using hm, hx⟩
    | false =>
      obtain ⟨y, hy, hsy, hl⟩ := hop_left hm hs hx
      simpa [hx] using ih hy hsy (by omega)

/-- **Every manager comes to rest** when it is let work. -/
theorem settle_atRest (hm : r.managers[m]? = some x) (hs : x.queue.IsStaffed) :
    ∃ y, (r.settle m).managers[m]? = some y ∧ isAtRest y = true := by
  unfold settle
  rw [hm]
  exact settleFor_atRest hm hs (left_le_effort x)

theorem settleFor_keeps {P : Registry σ → Prop} (hop : ∀ r, P r → P (r.hop m)) (n : Nat) (h : P r) :
    P (settleFor n m r) := by
  induction n generalizing r with
  | zero => exact h
  | succ n ih =>
    unfold settleFor
    split
    · exact h
    · split
      · exact h
      · exact ih (hop r h)

theorem settle_keeps {P : Registry σ → Prop} (hop : ∀ r, P r → P (r.hop m)) (h : P r) : P (r.settle m) := by
  unfold settle
  split
  · exact h
  · exact settleFor_keeps hop _ h

end Registry

end Boardwalk
