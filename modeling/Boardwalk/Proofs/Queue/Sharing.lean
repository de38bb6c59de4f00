import Boardwalk.Proofs.Queue.Operations
/-!
# One live queue for every file

Tasks look up the manager of a file and start an operation on it at once; in between, any manager takes a step, tasks
are cancelled and others change the world. A task whose operation is over goes on in a step of its own, and the next
operation may have been begun by then. In all of these histories the managers that have anything to do are registered
at their places (`Live`), so there is only one of them for each file; a manager leaves the registry in a step of its
own, with nothing queued and nothing running (`one_live_queue`).
-/

namespace Boardwalk.Registry

variable {σ : Type}

inductive Event (σ : Type) where
  /-- Looks a file up and starts an operation on the manager found. -/
  | ask (l : Location) (call : Nat) (o : Operation)
  | cancel (m call : Nat)
  | step (m : Nat)
  | change (f : World σ → World σ)

def next (r : Registry σ) : Event σ → Registry σ
  | .ask l call o =>
    match r.shared l with
    | .error _ => r
    | .ok (m, r) => r.start m call o.call
  | .cancel m call => r.cancel m call
  | .step m => r.hop m
  | .change f => { r with world := f r.world }

def after (r : Registry σ) (es : List (Event σ)) : Registry σ := es.foldl next r

/-- Whether an operation is queued or running. -/
def HasWork (x : Manager σ) : Prop := x.queue.waiting ≠ [] ∨ ∃ b, some b ∈ x.queue.workers

/-- All that a manager's callers wait for takes a while, so that they are told one by one. -/
structure Orderly (x : Manager σ) : Prop where
  staffed : x.queue.IsStaffed
  yielding : ∀ t ∈ x.queue.waiting, t.job.yields ≠ 0
  settled : x.queue.settled.length ≤ 1

/-- Every manager that is not at rest is the one that is registered at its place. -/
structure Live (r : Registry σ) : Prop where
  orderly : ∀ (m : Nat) (x : Manager σ), r.managers[m]? = some x → Orderly x
  known : ∀ (m : Nat) (x : Manager σ), r.managers[m]? = some x → isAtRest x = false →
    r.registered.lookup x.location.place = some m
  placed : ∀ (p : Place) (m : Nat), r.registered.lookup p = some m →
    ∃ x, r.managers[m]? = some x ∧ x.location.place = p
  once : (r.registered.map Prod.fst).Nodup

variable {r : Registry σ} {m : Nat} {x y : Manager σ}

theorem HasWork.not_idle (h : HasWork x) (hs : x.queue.IsStaffed) : x.queue.isIdle = false := by
  cases hs with
  | idle hd hw hq =>
    rcases h with h | ⟨b, hb⟩
    · exact absurd hq h
    · rw [hw] at hb
      cases hb
  | manned w hd hw => simp [Queue.isIdle, hd]

/-! ## The registry -/

theorem lookup_filter_value (ms : List (Place × Nat)) (hn : (ms.map Prod.fst).Nodup) (m : Nat) (p : Place) :
    (ms.filter (·.2 != m)).lookup p = if ms.lookup p = some m then none else ms.lookup p := by
  induction ms with
  | nil => rfl
  | cons a ms ih =>
    obtain ⟨q, n⟩ := a
    rw [List.map_cons, List.nodup_cons] at hn
    have ih := ih hn.2
    by_cases hq : p = q
    · subst hq
      have hp : ms.lookup p = none := by
        refine List.lookup_eq_none_iff.mpr fun a ha => ?_
        have hne : p ≠ a.1 := fun e => hn.1 (List.mem_map.mpr ⟨a, ha, e.symm⟩)
        simpa using hne
      by_cases hm : n = m
      · simp [hm, ih, hp]
      · have h₁ : (n != m) = true := by simpa using hm
        simp [h₁, hm]
    · have h₂ : (p == q) = false := by simpa using hq
      by_cases hm : n = m
      · simp [hm, List.lookup_cons, h₂, ih]
      · have h₁ : (n != m) = true := by simpa using hm
        simp [h₁, List.lookup_cons, h₂, ih]

theorem Live.of_eq (h : Live r) {r' : Registry σ} (hm : r'.managers = r.managers) (hr : r'.registered = r.registered) :
    Live r' := by
  obtain ⟨ho, hk, hp, hn⟩ := h
  constructor
  · rwa [hm]
  · rwa [hm, hr]
  · rwa [hm, hr]
  · rwa [hr]

theorem Live.withManager (h : Live r) (hm : r.managers[m]? = some x) (ho : Orderly y) (hl : y.location = x.location)
    (hk : isAtRest y = false → r.registered.lookup x.location.place = some m) : Live (r.withManager m y) := by
  have hy := getElem?_withManager hm y
  have hne : ∀ {n}, n ≠ m → (r.withManager m y).managers[n]? = r.managers[n]? := fun hn =>
    List.getElem?_set_ne (Ne.symm hn)
  constructor
  · intro n z hz
    by_cases hn : n = m
    · rw [hn, hy] at hz
      cases hz
      exact ho
    · rw [hne hn] at hz
      exact h.orderly n z hz
  · intro n z hz hw
    by_cases hn : n = m
    · rw [hn, hy] at hz
      cases hz
      rw [hn, hl]
      exact hk hw
    · rw [hne hn] at hz
      exact h.known n z hz hw
  · intro p n hp
    by_cases hn : n = m
    · rw [hn] at hp
      obtain ⟨z, hz, he⟩ := h.placed p m hp
      rw [hm] at hz
      cases hz
      rw [hn]
      exact ⟨y, hy, by rw [hl, he]⟩
    · rw [hne hn]
      exact h.placed p n hp
  · exact h.once

theorem Live.forget (h : Live r) (hm : r.managers[m]? = some x) (hx : isAtRest x = true) : Live (r.forget m) := by
  have hlook := lookup_filter_value r.registered h.once m
  constructor
  · exact h.orderly
  · intro n z hz hw
    have hk := h.known n z hz hw
    have hn : n ≠ m := by
      rintro rfl
      cases hm.symm.trans hz
      rw [hx] at hw
      cases hw
    refine (hlook _).trans ?_
    rw [hk, if_neg fun e => hn (Option.some.inj e)]
  · intro p n hp
    have hp' := (hlook p).symm.trans hp
    split at hp'
    · cases hp'
    · exact h.placed p n hp'
  · exact h.once.sublist (List.filter_sublist.map _)

theorem lookup_cons_free {ms : List (Place × Nat)} {p q : Place} {n : Nat} (hq : ms.lookup q = none) (m : Nat)
    (hp : ms.lookup p = some n) : ((q, m) :: ms).lookup p = some n := by
  have hne : (p == q) = false := by
    refine beq_false_of_ne ?_
    rintro rfl
    rw [hq] at hp
    cases hp
  rw [List.lookup_cons, hne]
  exact hp

theorem not_mem_keys {ms : List (Place × Nat)} {p : Place} (h : ms.lookup p = none) : p ∉ ms.map Prod.fst := by
  rintro hp
  obtain ⟨a, ha, rfl⟩ := List.mem_map.mp hp
  have := List.lookup_eq_none_iff.mp h a ha
  simp at this

theorem Live.register (h : Live r) {l : Location} (text : String) (hl : r.registered.lookup l.place = none) :
    Live { r with managers := r.managers ++ [⟨text, l, .empty, []⟩],
                  registered := (l.place, r.managers.length) :: r.registered } := by
  have hmem : ∀ {n : Nat} {z : Manager σ}, (r.managers ++ [⟨text, l, .empty, []⟩])[n]? = some z →
      r.managers[n]? = some z ∨ n = r.managers.length ∧ z = ⟨text, l, .empty, []⟩ := by
    intro n z hz
    rcases Nat.lt_or_ge n r.managers.length with hn | hn
    · rw [List.getElem?_append_left hn] at hz
      exact .inl hz
    · rw [List.getElem?_append_right hn, List.getElem?_singleton] at hz
      split at hz
      · cases hz
        exact .inr ⟨by omega, rfl⟩
      · cases hz
  constructor
  · intro n z hz
    rcases hmem hz with hz | ⟨-, rfl⟩
    · exact h.orderly n z hz
    · exact ⟨Queue.isStaffed_empty, by simp [Queue.empty], by simp [Queue.empty]⟩
  · intro n z hz hw
    rcases hmem hz with hz | ⟨-, rfl⟩
    · exact lookup_cons_free hl _ (h.known n z hz hw)
    · cases hw
  · intro p n hp
    dsimp only at hp ⊢
    rw [List.lookup_cons] at hp
    split at hp
    · rename_i he
      cases hp
      exact ⟨_, List.getElem?_concat_length, (eq_of_beq he).symm⟩
    · obtain ⟨z, hz, he⟩ := h.placed p n hp
      exact ⟨z, by rw [List.getElem?_append_left (List.getElem?_eq_some_iff.mp hz).1, hz], he⟩
  · exact List.nodup_cons.mpr ⟨not_mem_keys hl, h.once⟩

theorem Live.shared (h : Live r) {l : Location} {r' : Registry σ} (hs : r.shared l = .ok (m, r')) :
    Live r' ∧ (∀ p n, r.registered.lookup p = some n → r'.registered.lookup p = some n) ∧
      ∃ x, r'.managers[m]? = some x ∧ r'.registered.lookup x.location.place = some m := by
  unfold Registry.shared at hs
  cases hl : l.resolve with
  | error f =>
    rw [hl] at hs
    cases hs
  | ok l =>
    simp only [hl, bind, Except.bind, pure, Except.pure] at hs
    split at hs
    · rename_i n hn
      cases hs
      obtain ⟨x, hx, he⟩ := h.placed _ _ hn
      exact ⟨h, fun _ _ hp => hp, x, hx, by rw [he, hn]⟩
    · rename_i hn
      cases hs
      exact ⟨h.register _ hn, fun p n hp => lookup_cons_free hn _ hp, _, List.getElem?_concat_length,
        List.lookup_cons_self⟩

/-! ## Starting and cancelling -/

theorem Orderly.enqueue (h : Orderly x) {j : Job (World σ)} (hj : j.yields ≠ 0) (c : Caller) :
    Orderly { x with queue := x.queue.enqueue j, callers := x.callers ++ [c] } where
  staffed := h.staffed.enqueue j
  yielding := by
    simp only [Queue.enqueue_eq, List.mem_append, List.mem_singleton]
    rintro t (ht | rfl)
    · exact h.yielding t ht
    · exact hj
  settled := by
    simp only [Queue.enqueue_eq]
    exact h.settled

theorem Live.start (h : Live r) (hm : r.managers[m]? = some x) (hk : r.registered.lookup x.location.place = some m)
    (call : Nat) (o : Operation) : Live (r.start m call o.call) := by
  cases hj : o.job? x with
  | none =>
    obtain ⟨f, hf⟩ := Operation.refused_of_none hj
    obtain ⟨w, -, -, he⟩ := start_refused hm hf call
    rw [he]
    exact h.of_eq rfl rfl
  | some j =>
    rw [start_eq hm hj]
    have hy : j.yields ≠ 0 := by simp [Operation.job?_yields hj]
    exact h.withManager hm ((h.orderly m x hm).enqueue hy _) rfl fun _ => hk

theorem start_registered (r : Registry σ) (m call : Nat) (o : Operation) :
    (r.start m call o.call).registered = r.registered := by
  cases hm : r.managers[m]? with
  | none => simp only [start, hm]
  | some x =>
    cases hj : o.job? x with
    | none =>
      obtain ⟨f, hf⟩ := Operation.refused_of_none hj
      obtain ⟨w, -, -, he⟩ := start_refused hm hf call
      rw [he]
    | some j =>
      rw [start_eq hm hj]
      rfl

theorem Live.cancel (h : Live r) (m call : Nat) :
    Live (r.cancel m call) ∧ (r.cancel m call).registered = r.registered := by
  unfold Registry.cancel
  split
  · exact ⟨h, rfl⟩
  · rename_i x hm
    split
    · exact ⟨h, rfl⟩
    · rename_i c _
      have ho := h.orderly m x hm
      have hc : Orderly { x with
          queue := x.queue.cancel c.ticket
          callers := x.callers.filter (·.call != call) } :=
        ⟨ho.staffed.cancel _, ho.yielding, ho.settled⟩
      exact ⟨(h.withManager hm hc rfl (h.known m x hm)).of_eq rfl rfl, rfl⟩

/-! ## One step -/

theorem Orderly.tick (h : Orderly x) (hs : x.queue.settled = []) (w : World σ) :
    Orderly { x with queue := (x.queue.tick 0 w).1 } := by
  have ht := Queue.tick_ticks h.staffed 0 w
  obtain ⟨own, new, he, hl, -, hz⟩ := ht.settled
  refine ⟨ht.staffed, fun t hm => h.yielding t (ht.waiting t hm), ?_⟩
  have hnew : new = [] := by
    refine List.eq_nil_iff_forall_not_mem.mpr fun e hm => ?_
    obtain ⟨t, ht, hy, -⟩ := hz e hm
    exact h.yielding t ht hy
  dsimp only
  rw [he, hs, hnew]
  simpa using hl

theorem tick_atRest (h : Orderly x) (hx : isAtRest x = true) (w : World σ) : (x.queue.tick 0 w).1 = x.queue := by
  have hi : x.queue.isIdle = true := (Bool.and_eq_true_iff.mp hx).1
  cases h.staffed with
  | idle hd hw hq => rw [Queue.tick_none (by simp [hw])]
  | manned w hd hw => simp [Queue.isIdle, hd] at hi

/-- Who tells a caller takes a manager at rest out of the registry, or leaves the registry as it is. -/
theorem Live.resume (h : Live r) (hm : r.managers[m]? = some y) (hs : y.queue.settled = [])
    (hk : r.registered.lookup y.location.place = some m) (c : Caller) (result : Except Fault Value) :
    Live (r.resume m y c result) ∧ ((r.resume m y c result).registered = r.registered ∨
      (r.resume m y c result).registered = (r.forget m).registered ∧ y.queue.isIdle = true) := by
  cases hrest : c.sequel.rest result with
  | none =>
    obtain ⟨places, he, hp⟩ := resume_done (r := r) (m := m) (x := y) hrest
    rw [he]
    rcases hp with rfl | ⟨rfl, hi⟩
    · exact ⟨h.of_eq rfl rfl, .inl rfl⟩
    · have hr : isAtRest y = true := by simp [isAtRest, hi, hs]
      exact ⟨(h.forget hm hr).of_eq rfl rfl, .inr ⟨rfl, hi⟩⟩
  | some v =>
    rw [resume_more hm hrest]
    exact ⟨h.start hm hk _ _, .inl (start_registered _ _ _ _)⟩

theorem Live.hop (h : Live r) (m : Nat) : Live (r.hop m) ∧ ((r.hop m).registered = r.registered ∨
    (r.hop m).registered = (r.forget m).registered ∧ ∃ x, r.managers[m]? = some x ∧ x.queue.isIdle = true) := by
  cases hm : r.managers[m]? with
  | none =>
    have hr : r.hop m = r := by simp only [Registry.hop, hm]
    rw [hr]
    exact ⟨h, .inl rfl⟩
  | some x =>
    have ho := h.orderly m x hm
    cases hs : x.queue.settled with
    | nil =>
      rw [hop_works hm hs]
      have hk : isAtRest { x with queue := (x.queue.tick 0 r.world).1 } = false →
          r.registered.lookup x.location.place = some m := by
        intro hw
        -- a manager at rest does nothing, so he was at work before
        refine h.known m x hm ?_
        cases hx : isAtRest x with
        | false => rfl
        | true =>
          rw [tick_atRest ho hx, hx] at hw
          exact hw
      exact ⟨(h.withManager hm (ho.tick hs r.world) rfl hk).of_eq rfl rfl, .inl rfl⟩
    | cons e rest =>
      obtain ⟨ticket, result⟩ := e
      -- nobody else is waiting to be told
      have hrest : rest = [] := by
        have := ho.settled
        rw [hs, List.length_cons] at this
        exact List.eq_nil_of_length_eq_zero (by omega)
      subst hrest
      have hk : r.registered.lookup x.location.place = some m := h.known m x hm (by simp [isAtRest, hs])
      cases hc : x.callers.find? (·.ticket == ticket) with
      | none =>
        rw [hop_unheard hm hs hc]
        exact ⟨h.withManager hm ⟨ho.staffed.settledBy [], ho.yielding, by simp⟩ rfl fun _ => hk, .inl rfl⟩
      | some c =>
        rw [hop_told hm hs hc rfl]
        have hy := h.withManager hm (y := { x with
          queue := { x.queue with settled := [] }
          callers := x.callers.filter (·.ticket != ticket) })
          ⟨ho.staffed.settledBy [], ho.yielding, by simp⟩ rfl fun _ => hk
        obtain ⟨hl, hr⟩ := hy.resume (m := m) (getElem?_withManager hm _) rfl hk c result
        refine ⟨hl, hr.imp_right fun h => ⟨h.1, x, rfl, h.2⟩⟩

/-! ## Whole histories -/

theorem live_next (h : Live r) (e : Event σ) : Live (next r e) := by
  cases e with
  | ask l call o =>
    unfold next
    dsimp only
    split
    · exact h
    · rename_i m r' hs
      obtain ⟨hl, -, x, hx, hk⟩ := h.shared hs
      exact hl.start hx hk call o
  | cancel m call => exact (h.cancel m call).1
  | step m => exact (h.hop m).1
  | change f => exact h.of_eq rfl rfl

theorem live_after (h : Live r) (es : List (Event σ)) : Live (after r es) := by
  induction es generalizing r with
  | nil => exact h
  | cons e es ih => exact ih (live_next h e)

theorem live_ofWorld (w : World σ) : Live (ofWorld w) where
  orderly := by simp [ofWorld]
  known := by simp [ofWorld]
  placed := by simp [ofWorld]
  once := List.nodup_nil

/-- A manager leaves the registry only in a step of its own, when nothing is queued and nothing runs, and its place is
free then. -/
theorem Live.leaves (h : Live r) (e : Event σ) {p : Place} (hp : r.registered.lookup p = some m)
    (hn : (next r e).registered.lookup p ≠ some m) :
    ∃ x, e = .step m ∧ r.managers[m]? = some x ∧ ¬ HasWork x ∧ (next r e).registered.lookup p = none := by
  cases e with
  | ask l call o =>
    refine absurd ?_ hn
    unfold next
    dsimp only
    split
    · exact hp
    · rename_i n r' hs
      rw [start_registered]
      exact (h.shared hs).2.1 p m hp
  | cancel n call =>
    refine absurd ?_ hn
    show (r.cancel n call).registered.lookup p = some m
    rw [(h.cancel n call).2]
    exact hp
  | step n =>
    rcases (h.hop n).2 with hr | ⟨hr, x, hx, hi⟩
    · refine absurd ?_ hn
      show (r.hop n).registered.lookup p = some m
      rw [hr]
      exact hp
    · have hlook := lookup_filter_value r.registered h.once n p
      have hnext : (next r (.step n)).registered.lookup p =
          if r.registered.lookup p = some n then none else r.registered.lookup p :=
        (congrArg (List.lookup p) hr).trans hlook
      rw [hnext] at hn ⊢
      -- a step takes at most the manager itself out of the registry
      by_cases hnm : n = m
      · subst hnm
        refine ⟨x, rfl, hx, fun hw => ?_, if_pos hp⟩
        rw [hw.not_idle (h.orderly n x hx).staffed] at hi
        cases hi
      · refine absurd ?_ hn
        rw [hp, if_neg fun e => hnm (Option.some.inj e).symm]
  | change f => exact absurd hp hn

/-- **There is one live queue for every file**, and it is forgotten only when it is empty. -/
theorem one_live_queue (w : World σ) (es : List (Event σ)) :
    (∀ (m : Nat) (x : Manager σ), (after (ofWorld w) es).managers[m]? = some x → HasWork x →
      (after (ofWorld w) es).registered.lookup x.location.place = some m) ∧
    ∀ (e : Event σ) (p : Place) (m : Nat), (after (ofWorld w) es).registered.lookup p = some m →
      (next (after (ofWorld w) es) e).registered.lookup p ≠ some m →
      ∃ x, e = .step m ∧ (after (ofWorld w) es).managers[m]? = some x ∧ ¬ HasWork x ∧
        (next (after (ofWorld w) es) e).registered.lookup p = none := by
  have h := live_after (live_ofWorld w) es
  refine ⟨fun m x hm hw => h.known m x hm ?_, fun e p m hp hn => h.leaves e hp hn⟩
  have hi := hw.not_idle (h.orderly m x hm).staffed
  simp [isAtRest, hi]

end Boardwalk.Registry
