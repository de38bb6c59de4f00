import Boardwalk.Proofs.Queue.Workers
import Boardwalk.Queue.Registry
/-!
# Operations on a state file

What starting an operation does to a manager (`start_eq`, `start_refused`), and the three things that a step of a
manager can be: a caller is told (`hop_told`), a result finds no caller (`hop_unheard`), or the work goes on
(`hop_works`). A caller who is told is answered (`resume_done`) or writes a value (`resume_more`).
-/

namespace Boardwalk

/-- The value that is still to be written by a caller who is told a result. -/
def Sequel.rest : Sequel → Except Fault Value → Option Value
  | .write v, .ok made => if made.truth then some v else none
  | _, _ => none

namespace Registry

variable {σ : Type}

inductive Operation where
  | update (v : Value)
  | read
  | delete
  | init (v : Option Value)

namespace Operation

def call : Operation → Call σ
  | .update v => .update v
  | .read => .read
  | .delete => .delete
  | .init v => .init v

/-- A value that cannot be written is refused before anything is done. -/
def Refused (o : Operation) (f : Fault) : Prop := ∃ v, o = .update v ∧ document v = .error f

/-- What an operation puts into the queue at first; none if it is refused. -/
def job? (x : Manager σ) : Operation → Option (Job (World σ))
  | .update v => (document v).toOption.map (writeJob x)
  | .read => some (readJob x)
  | .delete => some (deleteJob x)
  | .init _ => some (truncateJob x)

def sequel : Operation → Sequel
  | .update _ | .read => .answer
  | .delete => .forget
  | .init v => (v.map Sequel.write).getD .answer

theorem document_of_some {v : Value} {j : Json} (h : (document v).toOption = some j) : document v = .ok j := by
  cases hd : document v with
  | error f => simp [hd, Except.toOption] at h
  | ok k =>
    rw [hd] at h
    cases h
    rfl

theorem refused_of_none {x : Manager σ} {o : Operation} (h : o.job? x = none) : ∃ f, o.Refused f := by
  cases o with
  | update v =>
    cases hd : document v with
    | error f => exact ⟨f, v, rfl, hd⟩
    | ok j => simp [job?, hd, Except.toOption] at h
  | read | delete | init _ => cases h

theorem job?_yields {x : Manager σ} {o : Operation} {j : Job (World σ)} (h : o.job? x = some j) : j.yields = 1 := by
  cases o with
  | update v =>
    obtain ⟨k, -, rfl⟩ := Option.map_eq_some_iff.mp h
    rfl
  | read | delete | init _ =>
    cases h
    rfl

end Operation

variable {r : Registry σ} {m : Nat} {x : Manager σ}

theorem getElem?_withManager (hm : r.managers[m]? = some x) (y : Manager σ) :
    (r.withManager m y).managers[m]? = some y :=
  List.getElem?_set_self (List.getElem?_eq_some_iff.mp hm).1

/-! ## Starting -/

theorem start_eq (hm : r.managers[m]? = some x) {o : Operation} {j : Job (World σ)} (hj : o.job? x = some j)
    (call : Nat) : r.start m call o.call = r.enqueue m x call j o.sequel := by
  cases o with
  | update v =>
    obtain ⟨k, ht, rfl⟩ := Option.map_eq_some_iff.mp hj
    simp only [start, hm, Operation.call, startUpdate, Operation.document_of_some ht, Operation.sequel]
  | read | delete | init _ =>
    cases hj
    simp only [start, hm, Operation.call, Operation.sequel]

/-- A refusal is answered at once, and told of in the log at most. -/
theorem start_refused (hm : r.managers[m]? = some x) {o : Operation} {f : Fault} (h : o.Refused f) (call : Nat) :
    ∃ w : World σ, w.disk = r.world.disk ∧ w.held = r.world.held ∧
      r.start m call o.call = { r with world := w, answers := r.answers ++ [(call, refused f)] } := by
  obtain ⟨v, rfl, hf⟩ := h
  simp only [start, hm, Operation.call, startUpdate, hf, reportRefused]
  split
  · exact ⟨(r.report x "State is not JSON serializable").world, rfl, rfl, rfl⟩
  · exact ⟨r.world, rfl, rfl, rfl⟩

theorem startUpdate_eq (hm : r.managers[m]? = some x) (call : Nat) (v : Value) :
    r.startUpdate m x call v = r.start m call (Operation.update v).call := by
  simp only [start, hm, Operation.call]

/-! ## One step -/

theorem hop_works (hm : r.managers[m]? = some x) (hs : x.queue.settled = []) :
    r.hop m = { r.withManager m { x with queue := (x.queue.tick 0 r.world).1 } with
      world := (x.queue.tick 0 r.world).2 } := by
  simp only [hop, hm, hs]

theorem hop_unheard (hm : r.managers[m]? = some x) {ticket : Nat} {result : Except Fault Value}
    {rest : List (Nat × Except Fault Value)} (hs : x.queue.settled = (ticket, result) :: rest)
    (hc : x.callers.find? (·.ticket == ticket) = none) :
    r.hop m = r.withManager m { x with queue := { x.queue with settled := rest } } := by
  simp only [hop, hm, hs, hc]

theorem hop_told (hm : r.managers[m]? = some x) {ticket : Nat} {result : Except Fault Value}
    {rest : List (Nat × Except Fault Value)} (hs : x.queue.settled = (ticket, result) :: rest) {c : Caller}
    (hc : x.callers.find? (·.ticket == ticket) = some c) {y : Manager σ}
    (hy : y = { x with queue := { x.queue with settled := rest },
                       callers := x.callers.filter (·.ticket != ticket) }) :
    r.hop m = (r.withManager m y).resume m y c result := by
  subst hy
  simp only [hop, hm, hs, hc]

/-! ## Telling a caller -/

theorem resume_done {c : Caller} {result : Except Fault Value} (h : c.sequel.rest result = none) :
    ∃ places, r.resume m x c result = { r with registered := places, answers := r.answers ++ [(c.call, result)] } ∧
      (places = r.registered ∨ places = (r.forget m).registered ∧ x.queue.isIdle = true) := by
  obtain ⟨call, ticket, sequel⟩ := c
  cases sequel with
  | answer => exact ⟨_, rfl, .inl rfl⟩
  | forget =>
    cases result with
    | error f => exact ⟨_, rfl, .inl rfl⟩
    | ok v =>
      cases hi : x.queue.isIdle with
      | true => exact ⟨_, by simp only [resume, hi, if_true]; rfl, .inr ⟨rfl, rfl⟩⟩
      | false => exact ⟨_, by simp only [resume, hi, Bool.false_eq_true, if_false]; rfl, .inl rfl⟩
  | write v =>
    cases result with
    | error f => exact ⟨_, rfl, .inl rfl⟩
    | ok made =>
      cases ht : made.truth with
      | true => simp [Sequel.rest, ht] at h
      | false => exact ⟨_, by simp only [resume, ht, Bool.false_eq_true, if_false]; rfl, .inl rfl⟩

theorem resume_more (hm : r.managers[m]? = some x) {c : Caller} {result : Except Fault Value} {v : Value}
    (h : c.sequel.rest result = some v) : r.resume m x c result = r.start m c.call (Operation.update v).call := by
  obtain ⟨call, ticket, sequel⟩ := c
  cases sequel with
  | answer | forget => cases h
  | write u =>
    cases result with
    | error f => cases h
    | ok made =>
      cases ht : made.truth with
      | false => simp [Sequel.rest, ht] at h
      | true =>
        obtain rfl : u = v := by simpa [Sequel.rest, ht] using h
        rw [← startUpdate_eq hm]
        simp only [resume, ht, if_true]

end Registry

end Boardwalk
