import Boardwalk.Proofs.Board.Forward
import Mathlib.Data.Nat.Find
/-!
# Runs that are tried again

A forward board whose code gives the same answers in every world, and leaves the file of its session alone, is run
again after every fault. Each run goes on where the one before it was stopped, so together they take the steps of one
run without faults: the last one ends as such a run does, and no work is done twice (`retried_ends_as_uninterrupted`).
-/

namespace Boardwalk

namespace Board

variable {σ : Type} {b : Board σ}

/-! ## One run -/

theorem acted_notes {acts : List Nat} {g g' : Stage σ} (h : Notes acts g g') :
    acted g'.trace = acts ++ acted g.trace := by
  obtain ⟨ms, hms, -, ha⟩ := h
  rw [hms, ← ha]
  exact List.filterMap_append

theorem acted_cons {m : Moment σ} (h : m.acted? = none) (ms : List (Moment σ)) : acted (m :: ms) = acted ms :=
  List.filterMap_cons_none h

theorem acted_trace (limit : Nat) (x : Value) (w : World σ) :
    acted (b.trace limit x w) = (acted (enterBoard limit [] b [] x ⟨w, []⟩).2.trace).reverse :=
  List.filterMap_reverse

/-- What holds whenever a run that goes on with a journal is about to take a frame: it is on the path of a run
without faults, and the work in its journal was done before it or in it. -/
structure Tracks (b : Board σ) (x : Value) (t : Timeline) (n : Nat) (cursor : Int) (m : Model) (g : Stage σ) :
    Prop where
  path : ∃ k, Path b x k m.timeline cursor
  worked : t.worked ++ (acted g.trace).reverse = m.timeline.worked
  enough : (b.frames.length : Int) ≤ n + cursor

/-- A run that was stopped by a fault left the journal of a path. -/
structure Stopped (b : Board σ) (limit : Nat) (x : Value) (w : World σ) (t t' : Timeline) : Prop where
  ending : (b.run limit x w).1.isRaised = true
  path : ∃ k, Path b (givenContext x) k t' t'.length
  leaves : Leaves b t' (b.run limit x w).2
  worked : t.worked ++ acted (b.trace limit x w) = t'.worked
  moment : ∃ m ∈ b.trace limit x w, ∃ i role f, i < b.frames.length ∧ m.event = .evaluated i role (.error f)

structure Finished (b : Board σ) (limit : Nat) (x : Value) (w : World σ) (t t' : Timeline) : Prop where
  ending : (b.run limit x w).1 = b.endOf t'
  yields : ∃ k, Yields b (givenContext x) k t'
  worked : t.worked ++ acted (b.trace limit x w) = t'.worked
  moment : ∃ m, (b.trace limit x w).getLast? = some m ∧ m.event = .finished ∧ m.world.journal [] = t'

section

variable (hflat : b.IsFlat) (hspares : ∀ {code}, b.Calls code → b.session.Spares code) (hforward : b.GoesForward)
  (hplain : b.IsPlain)
include hflat hspares hforward hplain

theorem run_tracks {k : Nat} {t : Timeline} {w : World σ} {limit : Nat} {x : Value} (h : Resumes b t w)
    (hpath : Path b (givenContext x) k t t.length) (hlimit : b.frames.length ≤ limit) (ha : b.session.Agrees w)
    (hs : SavesSucceed (b.trace limit x w)) :
    RunsTo b (givenContext x) (Tracks b (givenContext x) t) (enterBoard limit [] b [] x ⟨w, []⟩).1
      (enterBoard limit [] b [] x ⟨w, []⟩).2 := by
  have hnonneg : ∀ {n cursor m g}, Tracks b (givenContext x) t n cursor m g → 0 ≤ cursor := by
    rintro n cursor m g ⟨⟨k, hp⟩, -, -⟩
    rw [(path_aligned hforward hplain hp).level]
    exact Int.natCast_nonneg _
  refine run_cases hspares hflat h ha hs ?_ hnonneg ?_
  · rintro m g ls w₁ rfl - htrace
    refine ⟨⟨k, hpath⟩, ?_, by omega⟩
    rw [htrace]
    exact List.append_nil _
  · intro n cursor c m rs act g g' ls hp hlt htake hn
    obtain ⟨k', hpath'⟩ := hp.path
    refine ⟨⟨k' + 1, .step hpath' hlt htake⟩, ?_, ?_⟩
    · rw [Stage.record_trace, acted_cons rfl, acted_notes hn, List.reverse_append, ← List.append_assoc, hp.worked,
        takes_worked htake]
      cases act with
      | none => rfl
      | some i => rfl
    · have := takes_forward htake hforward (hnonneg hp) rfl
      have := hp.enough
      omega

omit hspares hplain in
/-- A step that raises a fault does so by code of a frame, since every jump has a target. -/
theorem raised_moment {enters : List (Enter σ)} {ls : List (Level σ)} {a : Address} {x : Value} {cursor : Int}
    {m : Model} {g g' : Stage σ} {f : Fault} (h : TurnsTo b enters ls a x cursor m g (.halt (.raised f)) g') :
    ∃ m ∈ g'.trace, ∃ i role, i < b.frames.length ∧ m.event = .evaluated i role (.error f) := by
  generalize hturn : Turn.halt (.raised f) = turn at h
  cases h with
  | raised hr =>
    cases hturn
    exact hr.moment
  | lost hspot hf hk =>
    obtain ⟨k, hk', -⟩ := hforward ((spot?_some hspot).1.trans (congrArg some hf))
    cases hk.symm.trans hk'
  | story hspot hf => exact absurd hf (hflat.frame_ne hspot)
  | closed => cases hturn
  | next => cases hturn
  | ended => cases hturn

/-- **A run is stopped by a fault of a frame, or ends as one without faults**; either way it goes on where the one
before it was stopped. -/
theorem run_forward {k : Nat} {t : Timeline} {w : World σ} {limit : Nat} {x : Value} (h : Resumes b t w)
    (hpath : Path b (givenContext x) k t t.length) (hlimit : b.frames.length ≤ limit) (ha : b.session.Agrees w)
    (hs : SavesSucceed (b.trace limit x w)) :
    ∃ t', Stopped b limit x w t t' ∨ Finished b limit x w t t' := by
  have hrun := run_tracks hflat hspares hforward hplain h hpath hlimit ha hs
  have hacted : acted (b.trace limit x w) = _ := acted_trace limit x w
  have htrace : b.trace limit x w = (enterBoard limit [] b [] x ⟨w, []⟩).2.trace.reverse := rfl
  generalize hresult : enterBoard limit [] b [] x ⟨w, []⟩ = result at hrun hacted htrace
  obtain ⟨e, g'⟩ := result
  have hending : b.run limit x w = (e, g'.world) := by
    unfold run
    rw [hresult]
  dsimp only at hrun hacted htrace
  cases hrun with
  | @raised n cursor m g g' enters ls f hp hlt hstands hturn hleaves =>
    obtain ⟨k', hpath'⟩ := hp.path
    have haligned := path_aligned hforward hplain hpath'
    obtain ⟨t', hreads, hl⟩ := hleaves
    have ht' : t' = m.timeline := by
      rcases hreads with rfl | rfl
      · rfl
      · exact haligned.plain.reread_eq
    subst ht'
    refine ⟨m.timeline, .inl ⟨?_, ⟨k', ?_⟩, ?_, ?_, ?_⟩⟩
    · rw [hending]
      rfl
    · rw [← haligned.level]
      exact hpath'
    · rw [hending]
      exact hl
    · rw [hacted, Stage.record_trace, acted_cons rfl, acted_notes (leaves_raised hspares hturn hflat).1]
      exact hp.worked
    · obtain ⟨m', hm', i, role, hi, he⟩ := raised_moment hflat hforward hturn
      refine ⟨m', ?_, i, role, f, hi, he⟩
      rw [htrace]
      exact List.mem_reverse.mpr (List.mem_cons_of_mem _ hm')
  | unfinished hp hlt =>
    have := hp.enough
    omega
  | @past n cursor m g g' ls hp hle hstands hlast hleaves =>
    obtain ⟨k', hpath'⟩ := hp.path
    refine ⟨m.timeline, .inr ⟨?_, ⟨k', .past hpath' hle⟩, ?_, ?_⟩⟩
    · rw [hending]
    · rw [hacted, hlast, acted_cons rfl]
      exact hp.worked
    · refine ⟨⟨ls, .finished, g.world⟩, ?_, rfl, journal_of_model hstands.model⟩
      rw [htrace, hlast, List.reverse_cons, List.getLast?_concat]
  | @stopped n cursor m rs g g₁ g' ls hp hlt htake hnotes hstands hlast hleaves =>
    obtain ⟨k', hpath'⟩ := hp.path
    refine ⟨m.timeline ++ rs, .inr ⟨?_, ⟨k', .stopped hpath' hlt htake⟩, ?_, ?_⟩⟩
    · rw [hending]
    · rw [hacted, hlast, acted_cons rfl, acted_cons rfl, acted_notes hnotes, takes_worked htake]
      exact hp.worked.trans (List.append_nil _).symm
    · refine ⟨⟨ls, .finished, g₁.world⟩, ?_, rfl, journal_of_model hstands.model⟩
      rw [htrace, hlast, List.reverse_cons, List.getLast?_concat]

end

/-! ## Runs one after the other -/

def Reaches (b : Board σ) (limit : Nat) (x : Value) (ws : Nat → World σ) (n : Nat) : Prop :=
  ∀ k < n, (b.run limit x (ws k)).1.isRaised = true

/-- The worlds in which runs of a board in one context set in, one after the other, up to one that is not stopped by
a fault. At first no run is stored. Every resume is agreed to, every save succeeds, and what a run left stays as it
is. The code of each frame raises a fault in finitely many of the runs only. -/
structure Retries (b : Board σ) (limit : Nat) (x : Value) (ws : Nat → World σ) : Prop where
  first : (b.session.readFile (ws 0)).1 = .ok none
  agrees : ∀ {n}, Reaches b limit x ws n → b.session.Agrees (ws n)
  saves : ∀ {n}, Reaches b limit x ws n → SavesSucceed (b.trace limit x (ws n))
  follows : ∀ {n}, Reaches b limit x ws (n + 1) → Follows b (b.run limit x (ws n)).2 (ws (n + 1))
  spent : ∀ i role, ∃ N, ∀ {n}, N ≤ n → Reaches b limit x ws n →
    ∀ m ∈ b.trace limit x (ws n), ∀ f, m.event ≠ .evaluated i role (.error f)

/-- Runs that go straight on from each other, up to one that is not stopped. -/
theorem retries_of_end {limit : Nat} {x : Value} {ws : Nat → World σ} {last : Nat}
    (hfirst : (b.session.readFile (ws 0)).1 = .ok none) (hagrees : ∀ n, b.session.Agrees (ws n))
    (hnext : ∀ n, ws (n + 1) = (b.run limit x (ws n)).2)
    (hsaves : ∀ k ≤ last, SavesSucceed (b.trace limit x (ws k)))
    (hend : (b.run limit x (ws last)).1.isRaised = false) : Retries b limit x ws := by
  have hlast : ∀ {n}, Reaches b limit x ws n → n ≤ last := fun {n} h => by
    apply Nat.le_of_not_lt
    intro hn
    cases hend.symm.trans (h last hn)
  refine ⟨hfirst, fun {n} _ => hagrees n, fun {n} h => hsaves n (hlast h), fun {n} _ => ?_,
    fun _ _ => ⟨last + 1, fun {n} hn h => ?_⟩⟩
  · rw [hnext n]
    exact ⟨.refl _ _, rfl⟩
  · exact absurd (hlast h) (Nat.not_le_of_lt hn)

theorem Finished.not_raised {limit : Nat} {x : Value} {w : World σ} {t t' : Timeline}
    (h : Finished b limit x w t t') : (b.run limit x w).1.isRaised = false := by
  rw [h.ending]
  unfold endOf
  split
  · rfl
  · rfl

theorem exists_bound (N : Nat → Role → Nat) (k : Nat) : ∃ M, ∀ i < k, ∀ role, N i role ≤ M := by
  induction k with
  | zero => exact ⟨0, fun i hi => absurd hi (Nat.not_lt_zero i)⟩
  | succ k ih =>
    obtain ⟨M, hM⟩ := ih
    refine ⟨M + (N k .condition + N k .provider + N k .predicate + N k .action), fun i hi role => ?_⟩
    rcases Nat.lt_succ_iff_lt_or_eq.mp hi with hi | rfl
    · have := hM i hi role
      omega
    · cases role
      all_goals omega

section

variable (hflat : b.IsFlat) (hspares : ∀ {code}, b.Calls code → b.session.Spares code) (hforward : b.GoesForward)
  (hplain : b.IsPlain) {limit : Nat} (hlimit : b.frames.length ≤ limit) {x : Value}
include hflat hspares hforward hplain hlimit

section

variable {ws : Nat → World σ} (h : Retries b limit x ws)
include h

/-- **After runs that were stopped**, the disk stores the journal of a path, and its work is what they did. -/
theorem retries_stopped {n : Nat} (hn : Reaches b limit x ws n) :
    ∃ k t, Resumes b t (ws n) ∧ Path b (givenContext x) k t t.length ∧
      (List.range n).flatMap (fun k => acted (b.trace limit x (ws k))) = t.worked := by
  induction n with
  | zero => exact ⟨0, [], resumes_nothing h.first, .start, rfl⟩
  | succ n ih =>
    have hn' : Reaches b limit x ws n := fun k hk => hn k (Nat.lt_succ_of_lt hk)
    obtain ⟨k, t, hresumes, hpath, hworked⟩ := ih hn'
    obtain ⟨t', hstopped | hfinished⟩ :=
      run_forward hflat hspares hforward hplain hresumes hpath hlimit (h.agrees hn') (h.saves hn')
    · obtain ⟨k', hpath'⟩ := hstopped.path
      refine ⟨k', t', (hstopped.leaves.follows (h.follows hn)).resumes, hpath', ?_⟩
      rw [List.range_succ, List.flatMap_append, hworked, ← hstopped.worked, List.flatMap_singleton]
    · have hraised := hn n (Nat.lt_succ_self n)
      rw [hfinished.not_raised] at hraised
      cases hraised

theorem retries_end : ∃ n, (b.run limit x (ws n)).1.isRaised = false := by
  apply Classical.byContradiction
  intro hnone
  have hreaches : ∀ n, Reaches b limit x ws n := fun _ k _ => Bool.of_not_eq_false fun hk => hnone ⟨k, hk⟩
  obtain ⟨M, hM⟩ := exists_bound (fun i role => (h.spent i role).choose) b.frames.length
  obtain ⟨k, t, hresumes, hpath, -⟩ := retries_stopped hflat hspares hforward hplain hlimit h (hreaches M)
  obtain ⟨t', hstopped | hfinished⟩ := run_forward hflat hspares hforward hplain hresumes hpath hlimit
    (h.agrees (hreaches M)) (h.saves (hreaches M))
  · obtain ⟨m, hm, i, role, f, hi, he⟩ := hstopped.moment
    exact (h.spent i role).choose_spec (hM i hi role) (hreaches M) m hm f he
  · exact hnone ⟨M, hfinished.not_raised⟩

end

end

/-! ### A board that fails once -/

/-- Answers with one number, whenever it answers. -/
def AnswersOnly (code : Code σ Value) (k : Int) : Prop := ∀ y, Answers code y → y = .int k

theorem isPlain_of_answersOnly (h : ∀ f ∈ b.frames, f.AllCode fun code => ∃ k, AnswersOnly code k) : b.IsPlain := by
  intro p kind name condition provider action hf x y hy
  obtain ⟨k, hk⟩ := (h _ (List.mem_of_getElem? hf)).2.2 x
  rw [hk y hy]
  exact Value.isPlain_int k

theorem constant_of_answersOnly (h : ∀ f ∈ b.frames, f.AllCode fun code => ∃ k, AnswersOnly code k) :
    ∀ f ∈ b.frames, f.AllCode Constant := fun f hf =>
  (h f hf).imp fun _ ⟨_, hk⟩ y y' hy hy' => (hk y hy).trans (hk y' hy').symm

theorem answersOnly_pure (k : Int) : AnswersOnly (fun w : World σ => (.ok (.int k), w.scene)) k := by
  rintro y ⟨w, hw⟩
  cases hw
  rfl

def flakyWork : Code Bool Value := fun w =>
  if w.user then (.ok (.int 1), w.scene) else (.error (.raised .other "RuntimeError" "down"), ⟨w.disk, true⟩)

theorem flakyWork_disk (w : World Bool) : (flakyWork w).2.disk = w.disk := by
  unfold flakyWork
  split
  · rfl
  · rfl

theorem flakyWork_answers : AnswersOnly flakyWork 1 := by
  rintro y ⟨w, hw⟩
  unfold flakyWork at hw
  split at hw
  · cases hw
    rfl
  · cases hw

def flaky : Board Bool :=
  ⟨"flaky", .plain none "flaky", none,
    [.work .key "first" none none fun _ => flakyWork,
      .jump (.name "last") none,
      .work .key "between" none none fun _ w => (.ok (.int 2), w.scene),
      .work .loop "last" none none fun _ w => (.ok (.int 3), w.scene)]⟩

def flakyWorlds : Nat → World Bool
  | 0 => .blank false
  | n + 1 => (flaky.run 9 .null (flakyWorlds n)).2

theorem flaky_flat : flaky.IsFlat := by
  simp [IsFlat, flaky]

theorem flaky_spares {code : Code Bool Value} (h : flaky.Calls code) : flaky.session.Spares code := by
  refine Session.spares_of_disk (h.all (P := fun code => ∀ w, (code w).2.disk = w.disk) ?_ ?_)
  · simp [flaky, Frame.AllCode, flakyWork_disk, World.scene]
  · exact fun _ _ => rfl

theorem flaky_forward : flaky.GoesForward := by
  intro p target condition hf
  match p, hf with
  | 0, hf => cases hf
  | 1, hf =>
    cases hf
    exact ⟨3, rfl, by omega⟩
  | 2, hf => cases hf
  | 3, hf => cases hf
  | _ + 4, hf => cases hf

theorem flaky_answers {f : Frame Bool} (hf : f ∈ flaky.frames) : f.AllCode fun code => ∃ k, AnswersOnly code k := by
  simp only [flaky, List.mem_cons, List.not_mem_nil, or_false] at hf
  rcases hf with rfl | rfl | rfl | rfl
  · exact ⟨nofun, nofun, fun _ => ⟨1, flakyWork_answers⟩⟩
  · exact nofun
  · exact ⟨nofun, nofun, fun _ => ⟨2, answersOnly_pure _⟩⟩
  · exact ⟨nofun, nofun, fun _ => ⟨3, answersOnly_pure _⟩⟩

theorem flaky_retries : Retries flaky 9 .null flakyWorlds := by
  have hsaves : ∀ k ≤ 1, SavesSucceed (flaky.trace 9 .null (flakyWorlds k)) := by decide +kernel
  have hend : (flaky.run 9 .null (flakyWorlds 1)).1.isRaised = false := by decide +kernel
  exact retries_of_end rfl (fun _ => Session.agrees_plain _ _ _) (fun _ => rfl) hsaves hend

/-- Takes away the file of the run when it fails. -/
def forgetfulWork : Code Bool Value := fun w =>
  if w.user then (.ok (.int 2), w.scene)
  else (.error (.raised .other "RuntimeError" "down"),
    ⟨w.disk.drop (Session.plain none "forgetful" : Session Bool).file, true⟩)

def forgetful : Board Bool :=
  ⟨"forgetful", .plain none "forgetful", none,
    [.work .key "first" none none fun _ w => (.ok (.int 1), w.scene),
      .work .key "second" none none fun _ => forgetfulWork]⟩

def forgetfulWorlds : Nat → World Bool
  | 0 => .blank false
  | n + 1 => (forgetful.run 9 .null (forgetfulWorlds n)).2

theorem forgetfulWork_answers : AnswersOnly forgetfulWork 2 := by
  rintro y ⟨w, hw⟩
  unfold forgetfulWork at hw
  split at hw
  · cases hw
    rfl
  · cases hw

theorem forgetful_answers {f : Frame Bool} (hf : f ∈ forgetful.frames) :
    f.AllCode fun code => ∃ k, AnswersOnly code k := by
  simp only [forgetful, List.mem_cons, List.not_mem_nil, or_false] at hf
  rcases hf with rfl | rfl
  · exact ⟨nofun, nofun, fun _ => ⟨1, answersOnly_pure _⟩⟩
  · exact ⟨nofun, nofun, fun _ => ⟨2, forgetfulWork_answers⟩⟩

theorem forgetful_forward : forgetful.GoesForward := by
  intro p target condition hf
  match p, hf with
  | 0, hf => cases hf
  | 1, hf => cases hf
  | _ + 2, hf => cases hf

theorem forgetful_retries : Retries forgetful 9 .null forgetfulWorlds := by
  have hsaves : ∀ k ≤ 1, SavesSucceed (forgetful.trace 9 .null (forgetfulWorlds k)) := by decide +kernel
  have hend : (forgetful.run 9 .null (forgetfulWorlds 1)).1.isRaised = false := by decide +kernel
  exact retries_of_end rfl (fun _ => Session.agrees_plain _ _ _) (fun _ => rfl) hsaves hend

end Board

end Boardwalk
