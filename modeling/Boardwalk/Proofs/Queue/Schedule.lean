import Boardwalk.Proofs.Queue.Workers
import Mathlib.Data.List.Forall2
/-!
# Schedules of a queue

A schedule is a list of what happens around a queue, in any order: jobs are put in and cancelled, others change the
state, the worker is resumed. A job that is put in by another one while this runs stands in the schedule right before
the resumption; it comes to the end of the queue in any case.

To see when a job is begun and ended, it is made to note it (`Job.noted`), with the state that it finds; the notes of a
whole schedule are its course (`course`). Two schedules whose jobs act alike leave the same state and the same notes
(`Alike.run`), and noting changes nothing (`noted_alike`).
-/

namespace Boardwalk

namespace Queue

inductive Event (σ : Type) where
  | enqueue (j : Job σ)
  | cancel (number : Nat)
  | change (f : σ → σ)
  | work (k : Nat)

def Event.isWork {σ : Type} : Event σ → Bool
  | .work 0 => true
  | _ => false

section

variable {σ : Type}

def next (x : Queue σ × σ) : Event σ → Queue σ × σ
  | .enqueue j => (x.1.enqueue j, x.2)
  | .cancel n => (x.1.cancel n, x.2)
  | .change f => (x.1, f x.2)
  | .work k => x.1.tick k x.2

def run (x : Queue σ × σ) (es : List (Event σ)) : Queue σ × σ := es.foldl next x

def after (es : List (Event σ)) (s : σ) : Queue σ × σ := run (empty, s) es

theorem after_append (es fs : List (Event σ)) (s : σ) : after (es ++ fs) s = run (after es s) fs := List.foldl_append

/-- **There is one worker at most**, whatever happens. -/
theorem run_isStaffed {x : Queue σ × σ} (h : x.1.IsStaffed) (es : List (Event σ)) : (run x es).1.IsStaffed := by
  induction es generalizing x with
  | nil => exact h
  | cons e es ih =>
    cases e with
    | enqueue j => exact ih (x := (x.1.enqueue j, x.2)) (h.enqueue j)
    | cancel n => exact ih (x := (x.1.cancel n, x.2)) (h.cancel n)
    | change f => exact ih (x := (x.1, f x.2)) h
    | work k => exact ih (x := x.1.tick k x.2) (tick_ticks h k x.2).staffed

theorem run_settled {x : Queue σ × σ} (h : x.1.IsStaffed) (es : List (Event σ)) :
    x.1.settled <+: (run x es).1.settled := by
  induction es generalizing x with
  | nil => exact List.prefix_refl _
  | cons e es ih =>
    cases e with
    | enqueue j =>
      refine List.IsPrefix.trans ?_ (ih (x := (x.1.enqueue j, x.2)) (h.enqueue j))
      simp [enqueue_eq]
    | cancel n => exact ih (x := (x.1.cancel n, x.2)) (h.cancel n)
    | change f => exact ih (x := (x.1, f x.2)) h
    | work k =>
      have ht := tick_ticks h k x.2
      obtain ⟨own, new, hs, -⟩ := ht.settled
      exact List.IsPrefix.trans ⟨own ++ new, hs.symm⟩ (ih (x := x.1.tick k x.2) ht.staffed)

def jobs : List (Event σ) → List (Job σ)
  | [] => []
  | .enqueue j :: es => j :: jobs es
  | _ :: es => jobs es

end

/-! ## Notes -/

inductive Deed where
  | began
  | ended
  deriving DecidableEq

/-- That a job was begun or ended, by its number, and the state that it found. -/
structure Mark (σ : Type) where
  number : Nat
  deed : Deed
  found : σ

end Queue

open Queue

variable {σ τ : Type}

/-- The job that also notes when it is begun and when it is ended. -/
def Job.noted (n : Nat) (j : Job σ) : Job (σ × List (Mark σ)) where
  yields := j.yields
  begin x := (j.begin x.1, x.2 ++ [⟨n, .began, x.1⟩])
  between k x := (j.between k x.1, x.2)
  finish x := ((j.finish x.1).1, (j.finish x.1).2, x.2 ++ [⟨n, .ended, x.1⟩])

def Job.silent (j : Job σ) : Job σ := { j with finish := fun s => (.ok .null, (j.finish s).2) }

namespace Queue

/-- The schedule in which every job notes what it does, under the numbers from `n` on. -/
def noted : Nat → List (Event σ) → List (Event (σ × List (Mark σ)))
  | _, [] => []
  | n, .enqueue j :: es => .enqueue (j.noted n) :: noted (n + 1) es
  | n, .cancel k :: es => .cancel k :: noted n es
  | n, .change f :: es => .change (fun x => (f x.1, x.2)) :: noted n es
  | n, .work k :: es => .work k :: noted n es

theorem noted_append (n : Nat) (es fs : List (Event σ)) :
    noted n (es ++ fs) = noted n es ++ noted (n + (jobs es).length) fs := by
  induction es generalizing n with
  | nil => rfl
  | cons e es ih =>
    cases e with
    | enqueue j => simp [noted, jobs, ih, Nat.add_assoc, Nat.add_comm 1]
    | cancel k => exact congrArg (_ :: ·) (ih n)
    | change f => exact congrArg (_ :: ·) (ih n)
    | work k => exact congrArg (_ :: ·) (ih n)

def course (es : List (Event σ)) (s : σ) : List (Mark σ) := (after (noted 0 es) (s, [])).2.2

/-- What is left of a schedule when nobody cancels a job and no job answers anything. -/
def skeleton : List (Event σ) → List (Event σ)
  | [] => []
  | .enqueue j :: es => .enqueue j.silent :: skeleton es
  | .cancel _ :: es => skeleton es
  | .change f :: es => .change f :: skeleton es
  | .work k :: es => .work k :: skeleton es

/-! ## Schedules that act alike

Two queues are compared whose states are related by `R`. If `H` holds, the results that are handed out are compared
too.
-/

section

variable {R : σ → τ → Prop} {H : Prop}

variable (R H) in
structure ActsAs (j : Job σ) (k : Job τ) : Prop where
  yields : j.yields = k.yields
  begin : ∀ {s t}, R s t → R (j.begin s) (k.begin t)
  between : ∀ {n s t}, R s t → R (j.between n s) (k.between n t)
  finish : ∀ {s t}, R s t → R (j.finish s).2 (k.finish t).2
  result : H → ∀ {s t}, R s t → (j.finish s).1 = (k.finish t).1

variable (R H) in
inductive SameTicket : Ticket σ → Ticket τ → Prop where
  | mk {n : Nat} {j : Job σ} {k : Job τ} : ActsAs R H j k → SameTicket ⟨n, j⟩ ⟨n, k⟩

variable (R H) in
inductive SameWorker : Worker σ → Worker τ → Prop where
  | free : SameWorker none none
  | busy {t : Ticket σ} {u : Ticket τ} {n : Nat} : SameTicket R H t u → SameWorker (some (t, n)) (some (u, n))

variable (R H) in
structure Same (q : Queue σ) (p : Queue τ) : Prop where
  issued : q.issued = p.issued
  waiting : List.Forall₂ (SameTicket R H) q.waiting p.waiting
  workers : List.Forall₂ (SameWorker R H) q.workers p.workers
  isDraining : q.isDraining = p.isDraining
  cancelled : H → q.cancelled = p.cancelled
  settled : H → q.settled = p.settled

variable (R H) in
/-- The same happens around both queues, except that nobody has to cancel the same jobs if `H` does not hold. -/
inductive Alike : List (Event σ) → List (Event τ) → Prop where
  | nil : Alike [] []
  | enqueue {j k es fs} : ActsAs R H j k → Alike es fs → Alike (.enqueue j :: es) (.enqueue k :: fs)
  | cancel {es fs} (n : Nat) : Alike es fs → Alike (.cancel n :: es) (.cancel n :: fs)
  | dropped {n es fs} : ¬ H → Alike es fs → Alike (.cancel n :: es) fs
  | change {f g es fs} : (∀ {s t}, R s t → R (f s) (g t)) → Alike es fs → Alike (.change f :: es) (.change g :: fs)
  | work {es fs} (k : Nat) : Alike es fs → Alike (.work k :: es) (.work k :: fs)

variable {q : Queue σ} {p : Queue τ} {s : σ} {t : τ}

theorem same_empty : Same R H empty empty := ⟨rfl, .nil, .nil, rfl, fun _ => rfl, fun _ => rfl⟩

theorem Same.enqueue (h : Same R H q p) {j : Job σ} {k : Job τ} (hj : ActsAs R H j k) :
    Same R H (q.enqueue j) (p.enqueue k) := by
  rw [enqueue_eq, enqueue_eq, h.issued, h.isDraining]
  refine ⟨rfl, List.rel_append h.waiting (.cons ⟨hj⟩ .nil), ?_, rfl, h.cancelled, h.settled⟩
  dsimp only
  split
  · exact h.workers
  · exact List.rel_append h.workers (.cons .free .nil)

theorem Same.cancel (h : Same R H q p) (n : Nat) : Same R H (q.cancel n) (p.cancel n) :=
  { h with cancelled := fun hh => congrArg (n :: ·) (h.cancelled hh) }

theorem Same.cancel_left (h : Same R H q p) (hh : ¬ H) (n : Nat) : Same R H (q.cancel n) p :=
  { h with cancelled := fun h' => absurd h' hh }

theorem Same.settle (h : Same R H q p) {t : Ticket σ} {u : Ticket τ} (ht : SameTicket R H t u)
    {r r' : Except Fault Value} (hr : H → r = r') : Same R H (q.settle t r) (p.settle u r') := by
  obtain ⟨_⟩ := ht
  rw [settle_eq, settle_eq]
  refine { h with settled := fun hh => ?_ }
  rw [h.cancelled hh, h.settled hh, hr hh]

theorem Same.takeUp (h : Same R H q p) {ts : List (Ticket σ)} {us : List (Ticket τ)}
    (ht : List.Forall₂ (SameTicket R H) ts us) (hs : R s t) :
    SameWorker R H (takeUp ts q s).1 (takeUp us p t).1 ∧
      Same R H (takeUp ts q s).2.1 (takeUp us p t).2.1 ∧ R (takeUp ts q s).2.2 (takeUp us p t).2.2 := by
  induction ht generalizing q p s t with
  | nil => exact ⟨.free, { h with waiting := .nil, isDraining := rfl }, hs⟩
  | @cons a b ts us hab hrest ih =>
    obtain @⟨n, j, k, hj⟩ := hab
    cases hy : k.yields with
    | succ m =>
      rw [takeUp_begins (hj.yields.trans hy), takeUp_begins hy]
      exact ⟨.busy ⟨hj⟩, { h with waiting := hrest }, hj.begin hs⟩
    | zero =>
      rw [takeUp_over (hj.yields.trans hy), takeUp_over hy]
      exact ih (h.settle ⟨hj⟩ fun hh => hj.result hh (hj.begin hs)) (hj.finish (hj.begin hs))

/-- `List.Forall₂` has no lemmas about single positions in the library. -/
theorem SameWorker.set {ws : List (Worker σ)} {vs : List (Worker τ)} (h : List.Forall₂ (SameWorker R H) ws vs)
    {w : Worker σ} {v : Worker τ} (hw : SameWorker R H w v) (k : Nat) :
    List.Forall₂ (SameWorker R H) (ws.set k w) (vs.set k v) := by
  induction h generalizing k with
  | nil => exact .nil
  | cons ha hr ih =>
    cases k with
    | zero => exact .cons hw hr
    | succ k => exact .cons ha (ih k)

theorem SameWorker.eraseIdx {ws : List (Worker σ)} {vs : List (Worker τ)}
    (h : List.Forall₂ (SameWorker R H) ws vs) (k : Nat) :
    List.Forall₂ (SameWorker R H) (ws.eraseIdx k) (vs.eraseIdx k) := by
  induction h generalizing k with
  | nil => exact .nil
  | cons ha hr ih =>
    cases k with
    | zero => exact hr
    | succ k => exact .cons ha (ih k)

theorem SameWorker.getElem? {ws : List (Worker σ)} {vs : List (Worker τ)}
    (h : List.Forall₂ (SameWorker R H) ws vs) (k : Nat) : Option.Rel (SameWorker R H) ws[k]? vs[k]? := by
  induction h generalizing k with
  | nil => exact .none
  | cons ha _ ih =>
    cases k with
    | zero => exact .some ha
    | succ k => simpa using ih k

theorem Same.goOn (h : Same R H q p) (k : Nat) (hs : R s t) :
    Same R H (q.goOn k s).1 (p.goOn k t).1 ∧ R (q.goOn k s).2 (p.goOn k t).2 := by
  have ht := h.takeUp h.waiting hs
  unfold Queue.goOn
  generalize Queue.takeUp q.waiting q s = x at ht ⊢
  generalize Queue.takeUp p.waiting p t = y at ht ⊢
  obtain ⟨b, q', s'⟩ := x
  obtain ⟨c, p', t'⟩ := y
  obtain ⟨hb, hq, hs⟩ := ht
  cases hb with
  | free => exact ⟨{ hq with workers := SameWorker.eraseIdx hq.workers k }, hs⟩
  | busy ht => exact ⟨{ hq with workers := SameWorker.set hq.workers (.busy ht) k }, hs⟩

theorem Same.tick (h : Same R H q p) (k : Nat) (hs : R s t) :
    Same R H (q.tick k s).1 (p.tick k t).1 ∧ R (q.tick k s).2 (p.tick k t).2 := by
  have hk := SameWorker.getElem? h.workers k
  generalize hq : q.workers[k]? = w at hk
  generalize hp : p.workers[k]? = v at hk
  cases hk with
  | none =>
    rw [tick_none hq, tick_none hp]
    exact ⟨h, hs⟩
  | some hw =>
    cases hw with
    | free =>
      rw [tick_free hq, tick_free hp]
      exact h.goOn k hs
    | @busy a b n ht =>
      obtain @⟨_, _, _, hj⟩ := ht
      cases n with
      | succ n =>
        rw [tick_between hq, tick_between hp]
        exact ⟨{ h with workers := SameWorker.set h.workers (.busy ⟨hj⟩) k }, hj.between hs⟩
      | zero =>
        rw [tick_last hq, tick_last hp]
        exact (h.settle ⟨hj⟩ fun hh => hj.result hh hs).goOn k (hj.finish hs)

/-- **Schedules that act alike leave the same**: queues that stay the same, and related states. -/
theorem Alike.run {es : List (Event σ)} {fs : List (Event τ)} (he : Alike R H es fs) (h : Same R H q p) (hs : R s t) :
    Same R H (run (q, s) es).1 (run (p, t) fs).1 ∧ R (run (q, s) es).2 (run (p, t) fs).2 := by
  induction he generalizing q p s t with
  | nil => exact ⟨h, hs⟩
  | enqueue hj _ ih => exact ih (h.enqueue hj) hs
  | cancel n _ ih => exact ih (h.cancel n) hs
  | dropped hh _ ih => exact ih (h.cancel_left hh _) hs
  | change hf _ ih => exact ih h (hf hs)
  | work k _ ih =>
    obtain ⟨h, hs⟩ := h.tick k hs
    exact ih h hs

end

/-! ## Noting changes nothing -/

theorem noted_alike (n : Nat) (es : List (Event σ)) : Alike (fun x s => x.1 = s) True (noted n es) es := by
  induction es generalizing n with
  | nil => exact .nil
  | cons e es ih =>
    cases e with
    | enqueue j =>
      exact .enqueue ⟨rfl, fun h => congrArg j.begin h, fun h => congrArg (j.between _) h,
        fun h => congrArg (fun s => (j.finish s).2) h, fun _ _ _ h => congrArg (fun s => (j.finish s).1) h⟩ (ih (n + 1))
    | cancel k => exact .cancel k (ih n)
    | change f => exact .change (fun h => congrArg f h) (ih n)
    | work k => exact .work k (ih n)

theorem after_noted (es : List (Event σ)) (s : σ) :
    Same (fun x s => x.1 = s) True (after (noted 0 es) (s, [])).1 (after es s).1 ∧
      (after (noted 0 es) (s, [])).2.1 = (after es s).2 :=
  (noted_alike 0 es).run same_empty rfl

theorem noted_skeleton (n : Nat) (es : List (Event σ)) : Alike Eq False (noted n es) (noted n (skeleton es)) := by
  induction es generalizing n with
  | nil => exact .nil
  | cons e es ih =>
    cases e with
    | enqueue j => exact .enqueue ⟨rfl, by rintro _ _ rfl; rfl, by rintro _ _ _ rfl; rfl, by rintro _ _ rfl; rfl,
        False.elim⟩ (ih (n + 1))
    | cancel k => exact .dropped id (ih n)
    | change f => exact .change (by rintro _ _ rfl; rfl) (ih n)
    | work k => exact .work k (ih n)

/-- **What jobs answer and which of them are cancelled has no part in the course**: two schedules with the same
skeleton have the same course and leave the same state. -/
theorem course_skeleton (es : List (Event σ)) (s : σ) : course es s = course (skeleton es) s :=
  congrArg Prod.snd ((noted_skeleton 0 es).run same_empty rfl).2

theorem after_skeleton (es : List (Event σ)) (s : σ) : (after es s).2 = (after (skeleton es) s).2 := by
  have h := congrArg Prod.fst ((noted_skeleton 0 es).run same_empty (rfl : (s, []) = (s, []))).2
  calc (after es s).2 = (after (noted 0 es) (s, [])).2.1 := (after_noted es s).2.symm
    _ = (after (noted 0 (skeleton es)) (s, [])).2.1 := h
    _ = (after (skeleton es) s).2 := (after_noted (skeleton es) s).2

end Queue

end Boardwalk
