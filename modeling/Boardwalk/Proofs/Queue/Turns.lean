import Boardwalk.Proofs.Queue.Schedule
/-!
# Jobs take turns

Whatever happens around a queue, its jobs are begun and ended in the order in which they were put in, each once and
each before the next one (`served_in_turn`). The proof follows the schedule with `Stands`: the jobs put in so far are
those that are over, perhaps one that is under way, and those that wait, and the notes say just that. With it goes a
count of the resumptions that these jobs have used up, which every resumption raises until nothing is left
(`Stands.tick`); so no job is lost.
-/

namespace Boardwalk.Queue

variable {σ : Type}

def Mark.step (m : Mark σ) : Nat × Deed := (m.number, m.deed)

/-- What there is to note of jobs that are served in turn. -/
def turns (n : Nat) : List (Nat × Deed) := (List.range n).flatMap fun i => [(i, .began), (i, .ended)]

/-- What a note says of the result of its job. -/
def outcome? (js : List (Job σ)) (m : Mark σ) : Option (Nat × Except Fault Value) :=
  match m.deed with
  | .began => none
  | .ended => js[m.number]?.map fun j => (m.number, (j.finish m.found).1)

def outcomes (js : List (Job σ)) (ms : List (Mark σ)) : List (Nat × Except Fault Value) := ms.filterMap (outcome? js)

/-- The number of resumptions that jobs take: one for each time that they yield, and one to begin or to end. -/
def cost : List (Job σ) → Nat
  | [] => 0
  | j :: js => j.yields + 1 + cost js

def tickets : Nat → List (Job σ) → List (Ticket (σ × List (Mark σ)))
  | _, [] => []
  | n, j :: js => ⟨n, j.noted n⟩ :: tickets (n + 1) js

theorem turns_succ (n : Nat) : turns (n + 1) = turns n ++ [(n, .began), (n, .ended)] := by
  simp [turns, List.range_succ]

theorem turns_mono {m n : Nat} (h : m ≤ n) : turns m <+: turns n := by
  induction h with
  | refl => exact List.prefix_refl _
  | step _ ih => exact ih.trans ⟨_, (turns_succ _).symm⟩

@[simp] theorem cost_cons (j : Job σ) (js : List (Job σ)) : cost (j :: js) = j.yields + 1 + cost js := rfl

@[simp] theorem cost_append (js ks : List (Job σ)) : cost (js ++ ks) = cost js + cost ks := by
  induction js with
  | nil => simp [cost]
  | cons j js ih =>
    rw [List.cons_append, cost_cons, cost_cons, ih]
    omega

theorem cost_take_le (js : List (Job σ)) {m n : Nat} (h : m ≤ n) : cost (js.take m) ≤ cost (js.take n) := by
  rw [← List.take_append_drop m (js.take n), List.take_take, Nat.min_eq_left h, cost_append]
  exact Nat.le_add_right _ _

theorem lt_cost_take {past : List (Job σ)} {n : Nat} (h : past.length < n) (j : Job σ) (rest : List (Job σ)) :
    cost past + j.yields < cost ((past ++ j :: rest).take n) := by
  have ht : (past ++ j :: rest).take (past.length + 1) = past ++ [j] := by
    rw [List.append_cons, List.take_append_of_le_length (by simp), List.take_of_length_le (by simp)]
  have hc := cost_take_le (past ++ j :: rest) h
  rw [ht, cost_append] at hc
  simp only [cost_cons] at hc
  omega

theorem tickets_append (n : Nat) (js : List (Job σ)) (j : Job σ) :
    tickets n (js ++ [j]) = tickets n js ++ [⟨n + js.length, j.noted (n + js.length)⟩] := by
  induction js generalizing n with
  | nil => rfl
  | cons k js ih => simp [tickets, ih, Nat.add_assoc, Nat.add_comm 1]

/-! ## What the notes say -/

/-- The notes say that the first `done` jobs of `js` are over, and besides that what stands in `begun`; the results
that were handed out are those of the noted jobs. `all` holds the jobs to come too. -/
structure Kept (all js : List (Job σ)) (done : Nat) (begun : List (Nat × Deed))
    (q : Queue (σ × List (Mark σ))) (ms : List (Mark σ)) : Prop where
  within : js <+: all
  issued : q.issued = js.length
  deeds : ms.map Mark.step = turns done ++ begun
  own : q.settled.Sublist (outcomes all ms)
  heard : ∀ e ∈ outcomes all ms, e.1 ∉ q.cancelled → e ∈ q.settled

section

variable {all js : List (Job σ)} {done : Nat} {begun : List (Nat × Deed)} {q : Queue (σ × List (Mark σ))}
  {ms : List (Mark σ)}

theorem Kept.cancel (h : Kept all js done begun q ms) (n : Nat) : Kept all js done begun (q.cancel n) ms :=
  { h with heard := fun e he hc => h.heard e he fun hm => hc (List.mem_cons_of_mem _ hm) }

theorem Kept.enqueue (h : Kept all js done begun q ms) {j : Job σ} (hj : js ++ [j] <+: all) :
    Kept all (js ++ [j]) done begun (q.enqueue (j.noted js.length)) ms := by
  rw [enqueue_eq]
  exact { h with within := hj, issued := by simp [h.issued] }

theorem Kept.begins (h : Kept all js done [] q ms) (s : σ) :
    Kept all js done [(done, .began)] q (ms ++ [⟨done, .began, s⟩]) := by
  have ho : outcomes all (ms ++ [⟨done, .began, s⟩]) = outcomes all ms := by
    rw [outcomes, List.filterMap_append, List.filterMap_cons_none rfl, List.filterMap_nil, List.append_nil, outcomes]
  exact { h with
    deeds := by simp [h.deeds, Mark.step]
    own := by rw [ho]; exact h.own
    heard := by rw [ho]; exact h.heard }

theorem Kept.ends (h : Kept all js done [(done, .began)] q ms) {j : Job σ} (hj : all[done]? = some j) (s : σ)
    (k : Job (σ × List (Mark σ))) :
    Kept all js (done + 1) [] (q.settle ⟨done, k⟩ (j.finish s).1) (ms ++ [⟨done, .ended, s⟩]) := by
  have ho : outcomes all (ms ++ [⟨done, .ended, s⟩]) = outcomes all ms ++ [(done, (j.finish s).1)] := by
    simp [outcomes, outcome?, hj]
  rw [settle_eq]
  refine ⟨h.within, h.issued, by simp [h.deeds, Mark.step, turns_succ], ?_, ?_⟩
  · rw [ho]
    refine h.own.append ?_
    split
    · exact List.nil_sublist _
    · exact List.Sublist.refl _
  · intro e he hc
    rw [ho, List.mem_append] at he
    refine List.mem_append.mpr ?_
    rcases he with he | he
    · exact .inl (h.heard e he hc)
    · refine .inr ?_
      obtain rfl := List.mem_singleton.mp he
      rw [if_neg (by simpa using hc)]
      exact he

end

/-! ## One resumption -/

/-- Where the jobs `js` stand when they have used up `spent` resumptions. -/
inductive Stands (all : List (Job σ)) : List (Job σ) → Nat → Queue (σ × List (Mark σ)) → List (Mark σ) → Prop where
  | idle {js q ms} : Kept all js js.length [] q ms → q.isDraining = false → q.workers = [] → q.waiting = [] →
      Stands all js (cost js) q ms
  | free {past rest q ms} : Kept all (past ++ rest) past.length [] q ms → q.isDraining = true → q.workers = [none] →
      q.waiting = tickets past.length rest → Stands all (past ++ rest) (cost past) q ms
  | busy {past rest j n q ms} : Kept all (past ++ j :: rest) past.length [(past.length, .began)] q ms →
      q.isDraining = true → q.workers = [some (⟨past.length, j.noted past.length⟩, n)] → n < j.yields →
      q.waiting = tickets (past.length + 1) rest → Stands all (past ++ j :: rest) (cost past + (j.yields - n)) q ms

/-- What a worker leaves who has taken up the jobs after `past`. -/
inductive TookUp (all js : List (Job σ)) (spent : Nat) :
    Worker (σ × List (Mark σ)) × Queue (σ × List (Mark σ)) × σ × List (Mark σ) → Prop where
  | none {q s ms} : Kept all js js.length [] q ms → TookUp all js spent (none, q, s, ms)
  | some {past rest j n q s ms} : js = past ++ j :: rest → Kept all js past.length [(past.length, .began)] q ms →
      n < j.yields → spent < cost past + (j.yields - n) → q.waiting = tickets (past.length + 1) rest →
      TookUp all js spent (some (⟨past.length, j.noted past.length⟩, n), q, s, ms)

section

variable {all js : List (Job σ)} {q : Queue (σ × List (Mark σ))} {ms : List (Mark σ)} {spent : Nat}

theorem Kept.getElem? {past rest : List (Job σ)} {j : Job σ} {begun : List (Nat × Deed)}
    (h : Kept all (past ++ j :: rest) past.length begun q ms) : all[past.length]? = some j := by
  obtain ⟨more, rfl⟩ := h.within
  simp

theorem Kept.takeUp {past rest : List (Job σ)} (h : Kept all (past ++ rest) past.length [] q ms)
    (hs : spent ≤ cost past) (s : σ) :
    TookUp all (past ++ rest) spent (takeUp (tickets past.length rest) q (s, ms)) := by
  induction rest generalizing past q ms s with
  | nil => exact .none { h with deeds := by simpa using h.deeds }
  | cons j rest ih =>
    rw [tickets]
    cases hy : j.yields with
    | succ n =>
      rw [takeUp_begins (n := n) hy]
      exact .some rfl { h.begins s with } (by omega) (by omega) rfl
    | zero =>
      rw [takeUp_over hy]
      have he := (h.begins s).ends h.getElem? (j.begin s) (j.noted past.length)
      have hp : past ++ j :: rest = (past ++ [j]) ++ rest := by simp
      have hl : past.length + 1 = (past ++ [j]).length := by simp
      rw [hp, hl] at he ⊢
      exact ih he (by simp; omega) _

theorem Kept.goOn {past rest : List (Job σ)} (h : Kept all (past ++ rest) past.length [] q ms)
    (hd : q.isDraining = true) {w : Worker (σ × List (Mark σ))} (hw : q.workers = [w])
    (hq : q.waiting = tickets past.length rest) (hs : spent ≤ cost past) (s : σ) :
    ∃ spent', Stands all (past ++ rest) spent' (q.goOn 0 (s, ms)).1 (q.goOn 0 (s, ms)).2.2 ∧
      min (spent + 1) (cost (past ++ rest)) ≤ spent' := by
  have ht := h.takeUp hs s
  have htk := takeUp_takes q.waiting q (s, ms)
  rw [← hq] at ht
  unfold Queue.goOn
  generalize Queue.takeUp q.waiting q (s, ms) = x at ht htk ⊢
  cases ht with
  | none hk =>
    obtain ⟨hd', hq'⟩ := htk.left rfl
    have hw' := congrArg (List.eraseIdx · 0) (htk.workers.trans hw)
    exact ⟨_, .idle { hk with } hd' hw' hq', Nat.min_le_right _ _⟩
  | some hj hk hn hsp hq' =>
    rw [hj] at hk ⊢
    refine ⟨_, .busy { hk with } ((htk.begun _ rfl).trans hd) ?_ hn hq', Nat.le_trans (Nat.min_le_left _ _) hsp⟩
    exact congrArg (List.set · 0 _) (htk.workers.trans hw)

theorem Stands.tick (h : Stands all js spent q ms) (s : σ) :
    ∃ spent', Stands all js spent' (q.tick 0 (s, ms)).1 (q.tick 0 (s, ms)).2.2 ∧
      min (spent + 1) (cost js) ≤ spent' := by
  cases h with
  | idle hk hd hw hq =>
    rw [tick_none (by simp [hw])]
    exact ⟨_, .idle hk hd hw hq, Nat.min_le_right _ _⟩
  | free hk hd hw hq =>
    rw [tick_free (by simp [hw])]
    exact hk.goOn hd hw hq (Nat.le_refl _) s
  | @busy past rest j n _ _ hk hd hw hn hq =>
    cases n with
    | succ n =>
      rw [tick_between (t := ⟨past.length, j.noted past.length⟩) (n := n) (by simp [hw])]
      refine ⟨_, .busy { hk with } hd (by simp [hw]) (Nat.lt_of_succ_lt hn) hq, ?_⟩
      omega
    | zero =>
      -- the job is over, and with it `past` grows by one
      rw [tick_last (t := ⟨past.length, j.noted past.length⟩) (by simp [hw])]
      have he := hk.ends hk.getElem? s (j.noted past.length)
      have hp : past ++ j :: rest = (past ++ [j]) ++ rest := by simp
      have hl : past.length + 1 = (past ++ [j]).length := by simp
      rw [hp, hl] at he
      have hle : cost past + j.yields ≤ cost (past ++ [j]) := by simp [cost]
      obtain ⟨spent', hst, hle⟩ := he.goOn ((settle_isDraining ..).trans hd) ((settle_workers ..).trans hw)
        (by rw [settle_waiting, hq, hl]) hle (j.finish s).2
      rw [hp]
      exact ⟨spent', hst, hle⟩

end

/-! ## Whole schedules -/

variable {all js : List (Job σ)} {q : Queue (σ × List (Mark σ))} {ms : List (Mark σ)} {spent : Nat}

theorem Stands.isStaffed (h : Stands all js spent q ms) : q.IsStaffed := by
  cases h with
  | idle _ hd hw hq => exact .idle hd hw hq
  | free _ hd hw _ => exact .manned _ hd hw
  | busy _ hd hw _ _ => exact .manned _ hd hw

theorem Stands.enqueue (h : Stands all js spent q ms) {j : Job σ} (hj : js ++ [j] <+: all) :
    Stands all (js ++ [j]) spent (q.enqueue (j.noted js.length)) ms := by
  cases h with
  | idle hk hd hw hq =>
    refine .free (hk.enqueue hj) ?_ ?_ ?_
    all_goals simp [enqueue_eq, hd, hw, hq, hk.issued, tickets]
  | @free past rest _ _ hk hd hw hq =>
    have hi := hk.issued
    have hk := hk.enqueue hj
    rw [List.append_assoc] at hk ⊢
    refine .free hk ?_ ?_ ?_
    all_goals simp [enqueue_eq, hd, hw, hq, hi, tickets_append]
  | @busy past rest k n _ _ hk hd hw hn hq =>
    have hi := hk.issued
    have hk := hk.enqueue hj
    rw [List.append_assoc] at hk ⊢
    refine .busy hk ?_ ?_ hn ?_
    · simp [enqueue_eq]
    · simp [enqueue_eq, hd, hw]
    · have hn : past.length + (rest.length + 1) = past.length + 1 + rest.length := by omega
      simp [enqueue_eq, hq, hi, tickets_append, hn]

theorem Stands.cancel (h : Stands all js spent q ms) (n : Nat) : Stands all js spent (q.cancel n) ms := by
  cases h with
  | idle hk hd hw hq => exact .idle (hk.cancel n) hd hw hq
  | free hk hd hw hq => exact .free (hk.cancel n) hd hw hq
  | busy hk hd hw hn hq => exact .busy (hk.cancel n) hd hw hn hq

/-- **A schedule leads the jobs from one such point to another**, and with every resumption nearer to the end of
those that were there at first. -/
theorem Stands.run (h : Stands all js spent q ms) (es : List (Event σ)) (hall : js ++ jobs es <+: all) (s : σ) :
    ∃ spent', Stands all (js ++ jobs es) spent' (run (q, s, ms) (noted js.length es)).1
        (run (q, s, ms) (noted js.length es)).2.2 ∧
      min (spent + es.countP Event.isWork) (cost js) ≤ spent' := by
  induction es generalizing js spent q ms s with
  | nil =>
    rw [jobs, List.append_nil]
    exact ⟨spent, h, Nat.min_le_left _ _⟩
  | cons e es ih =>
    cases e with
    | enqueue j =>
      -- the resumptions go on counting for the jobs that were there at first
      rw [jobs, List.append_cons] at hall ⊢
      obtain ⟨spent', hst, hle⟩ := ih (h.enqueue ((List.prefix_append _ _).trans hall)) hall s
      rw [List.length_append, List.length_singleton] at hst
      refine ⟨spent', hst, ?_⟩
      rw [List.countP_cons_of_neg (by simp [Event.isWork])]
      rw [cost_append] at hle
      omega
    | cancel k =>
      obtain ⟨spent', hst, hle⟩ := ih (h.cancel k) hall s
      exact ⟨spent', hst, by rwa [List.countP_cons_of_neg (by simp [Event.isWork])]⟩
    | change f =>
      obtain ⟨spent', hst, hle⟩ := ih h hall (f s)
      exact ⟨spent', hst, by rwa [List.countP_cons_of_neg (by simp [Event.isWork])]⟩
    | work k =>
      cases k with
      | zero =>
        obtain ⟨spent₁, hst₁, hle₁⟩ := h.tick s
        obtain ⟨spent', hst, hle⟩ := ih hst₁ hall _
        refine ⟨spent', hst, ?_⟩
        rw [List.countP_cons_of_pos rfl]
        omega
      | succ k =>
        -- there is no second worker
        obtain ⟨spent', hst, hle⟩ := ih h hall s
        have hk := h.isStaffed.workers_le
        have ht : q.tick (k + 1) (s, ms) = (q, s, ms) := tick_none (List.getElem?_eq_none (by omega)) _
        have hr : run (q, s, ms) (noted js.length (.work (k + 1) :: es)) = run (q, s, ms) (noted js.length es) := by
          rw [noted, run, List.foldl_cons, next, ht, run]
        have hj : jobs (.work (k + 1) :: es) = jobs es := rfl
        rw [hr, hj]
        exact ⟨spent', hst, by rwa [List.countP_cons_of_neg (by simp [Event.isWork])]⟩

/-- What the notes tell of the jobs when so many resumptions have been used up. -/
theorem Stands.tells (h : Stands all js spent q ms) :
    ms.map Mark.step <+: turns js.length ∧ q.settled.Sublist (outcomes all ms) ∧
      (∀ e ∈ outcomes all ms, e.1 ∉ q.cancelled → e ∈ q.settled) ∧
      ∀ n ≤ js.length, cost (js.take n) ≤ spent → turns n <+: ms.map Mark.step := by
  cases h with
  | idle hk _ _ _ =>
    refine ⟨by simp [hk.deeds], hk.own, hk.heard, fun n hn _ => ?_⟩
    rw [hk.deeds, List.append_nil]
    exact turns_mono hn
  | @free past rest _ _ hk _ _ _ =>
    rw [hk.deeds, List.append_nil]
    refine ⟨turns_mono (by simp), hk.own, hk.heard, fun n hn hc => turns_mono ?_⟩
    cases rest with
    | nil => simpa using hn
    | cons j rest =>
      -- more of the jobs than `past` cost more than was spent
      refine Nat.le_of_not_lt fun hlt => ?_
      have := lt_cost_take hlt j rest
      omega
  | @busy past rest j m _ _ hk _ _ hm _ =>
    rw [hk.deeds]
    refine ⟨?_, hk.own, hk.heard, fun n hn hc => ?_⟩
    · refine List.IsPrefix.trans ?_ (turns_mono (show past.length + 1 ≤ _ by simp))
      rw [turns_succ]
      exact ⟨[(past.length, .ended)], by simp⟩
    · refine (turns_mono (Nat.le_of_not_lt fun hlt => ?_)).trans (List.prefix_append _ _)
      have := lt_cost_take hlt j rest
      omega

/-! ## What is true of every schedule -/

structure ServedInTurn (es : List (Event σ)) (s : σ) : Prop where
  single : (after es s).1.workers.length ≤ 1
  /-- The jobs are begun and ended in the order in which they were put in, each once and each before the next one. -/
  inTurn : (course es s).map Mark.step <+: turns (jobs es).length
  /-- Whatever is handed out is the result of the job under whose number it is handed out. -/
  own : (after es s).1.settled.Sublist (outcomes (jobs es) (course es s))
  /-- The result of a job that is over is handed out unless it was cancelled, and it stays so. -/
  heard : ∀ e ∈ outcomes (jobs es) (course es s), e.1 ∉ (after es s).1.cancelled →
    ∀ fs, e ∈ (after (es ++ fs) s).1.settled
  /-- All jobs are over when the worker has been resumed often enough, whatever else happens. -/
  served : ∀ fs : List (Event σ), cost (jobs es) ≤ fs.countP Event.isWork →
    turns (jobs es).length <+: (course (es ++ fs) s).map Mark.step
  /-- Neither what jobs answer nor which of them are cancelled makes a difference to when any job is begun and ended
  and to the states that it finds. -/
  apart : ∀ fs, skeleton fs = skeleton es → course fs s = course es s ∧ (after fs s).2 = (after es s).2

theorem stands_empty (all : List (Job σ)) : Stands all [] 0 empty [] :=
  .idle ⟨List.nil_prefix, rfl, rfl, List.nil_sublist _, by simp [outcomes]⟩ rfl rfl rfl

theorem jobs_append (es fs : List (Event σ)) : jobs (es ++ fs) = jobs es ++ jobs fs := by
  induction es with
  | nil => rfl
  | cons e es ih =>
    cases e with
    | enqueue j => exact congrArg (j :: ·) ih
    | cancel _ | change _ | work _ => exact ih

/-- After the jobs of the first part of a schedule were put in, every resumption in the second part counts for them. -/
theorem after_stands (es fs : List (Event σ)) (s : σ) :
    ∃ spent, Stands (jobs (es ++ fs)) (jobs (es ++ fs)) spent (after (noted 0 (es ++ fs)) (s, [])).1
        (course (es ++ fs) s) ∧
      min (fs.countP Event.isWork) (cost (jobs es)) ≤ spent := by
  have hall := List.prefix_append (jobs es) (jobs fs)
  obtain ⟨spent₁, h₁, -⟩ := (stands_empty (jobs es ++ jobs fs)).run es hall s
  obtain ⟨spent₂, h₂, hle⟩ := h₁.run fs (List.prefix_refl _) _
  rw [List.nil_append] at hle
  refine ⟨spent₂, ?_, by omega⟩
  rw [jobs_append, course, noted_append, after_append, Nat.zero_add]
  exact h₂

/-- **Jobs are served strictly in turn**, in every schedule. -/
theorem served_in_turn (es : List (Event σ)) (s : σ) : ServedInTurn es s := by
  obtain ⟨hsame, hstate⟩ := after_noted es s
  obtain ⟨_, hst, -⟩ := after_stands es [] s
  rw [List.append_nil] at hst
  obtain ⟨hturn, hown, hheard, -⟩ := hst.tells
  rw [hsame.settled trivial] at hown hheard
  rw [hsame.cancelled trivial] at hheard
  have hstaffed : (after es s).1.IsStaffed := run_isStaffed isStaffed_empty es
  refine ⟨hstaffed.workers_le, hturn, hown, fun e he hc fs => ?_, fun fs hfs => ?_, fun fs hfs => ?_⟩
  · rw [after_append]
    exact (run_settled hstaffed fs).mem (hheard e he hc)
  · obtain ⟨spent, hst, hle⟩ := after_stands es fs s
    refine hst.tells.2.2.2 _ ?_ ?_
    · simp [jobs_append]
    · rw [jobs_append, List.take_left]
      omega
  · rw [course_skeleton, course_skeleton es, after_skeleton fs, after_skeleton es, hfs]
    exact ⟨rfl, rfl⟩

end Boardwalk.Queue
