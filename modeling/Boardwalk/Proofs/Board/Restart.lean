import Boardwalk.Proofs.Board.Resume
/-!
# Where a run starts after a fault

A board without story frames journals one record for each frame that it takes or passes over, and a run starts
behind the records that the file stores. As long as no step leads back, the number of records is the cursor, and
the run after a fault starts at the frame that raised it. A step that leads back adds a record and lowers the
cursor: from then on the next run starts behind the frame that raises a fault (`started_after_fault`).
-/

namespace Boardwalk

variable {σ : Type}

def Moment.isBack (m : Moment σ) : Bool :=
  match m.event with
  | .turned c (.next c') => decide (c' ≤ c)
  | _ => false

namespace Board

variable {b : Board σ}

/-! ## The head of the loop -/

def LedBack (ms : List (Moment σ)) : Prop := ∃ m ∈ ms, m.isBack = true

instance (ms : List (Moment σ)) : Decidable (LedBack ms) :=
  inferInstanceAs (Decidable (∃ m ∈ ms, m.isBack = true))

theorem ledBack_append {ms ms' : List (Moment σ)} : LedBack (ms ++ ms') ↔ LedBack ms ∨ LedBack ms' := by
  unfold LedBack
  simp only [List.mem_append, or_and_right, exists_or]

theorem ledBack_cons {m : Moment σ} {ms : List (Moment σ)} :
    LedBack (m :: ms) ↔ m.isBack = true ∨ LedBack ms := by
  unfold LedBack
  simp only [List.mem_cons, or_and_right, exists_or, exists_eq_left]

theorem ledBack_reverse {ms : List (Moment σ)} : LedBack ms.reverse ↔ LedBack ms := by
  unfold LedBack
  simp only [List.mem_reverse]

theorem ledBack_notes {acts : List Nat} {g g' : Stage σ} (h : Notes acts g g') :
    LedBack g'.trace ↔ LedBack g.trace := by
  obtain ⟨ms, hms, hq, -⟩ := h
  rw [hms, ledBack_append]
  apply or_iff_right
  rintro ⟨m, hm, hback⟩
  have hquiet := hq m hm
  unfold Moment.isBack at hback
  unfold Moment.isQuiet at hquiet
  split at hback
  · rename_i he
    rw [he] at hquiet
    cases hquiet
  · cases hback

structure Heads (cursor : Int) (m : Model) (g : Stage σ) : Prop where
  nonneg : 0 ≤ cursor
  behind : cursor ≤ m.timeline.length
  level : cursor = m.timeline.length ↔ ¬ LedBack g.trace

theorem heads_first {m : Model} {g : Stage σ} {ls : List (Level σ)} {w : World σ}
    (h : g.trace = [⟨ls, .started m.timeline.length, w⟩]) : Heads m.timeline.length m g := by
  refine ⟨Int.natCast_nonneg _, Int.le_refl _, fun _ => ?_, fun _ => rfl⟩
  rw [h, ledBack_cons]
  rintro (hback | ⟨m, hm, -⟩)
  · cases hback
  · cases hm

/-- **A step leads from one head of the loop to the next**: it adds a record for each frame up to the next cursor,
and one if it leads back. -/
theorem heads_next {x : Value} {cursor c : Int} {m : Model} {rs : Timeline} {act : Option Nat} {g g' : Stage σ}
    {ls : List (Level σ)} {w : World σ} (h : Heads cursor m g)
    (ht : Takes b x m.timeline cursor (m.timeline ++ rs) (some c) act) (hn : Notes act.toList g g') :
    Heads c ⟨m.board, m.timeline ++ rs⟩ (g'.record ⟨ls, .turned cursor (.next c), w⟩) := by
  have hlength := takes_length ht rfl
  have hbehind := h.behind
  have hlevel := h.level
  refine ⟨takes_nonneg ht h.nonneg rfl, ?_, ?_⟩
  · dsimp only
    omega
  · have hback : (⟨ls, .turned cursor (.next c), w⟩ : Moment σ).isBack = true ↔ c ≤ cursor := decide_eq_true_iff
    rw [Stage.record_trace, ledBack_cons, ledBack_notes hn, hback]
    dsimp only
    by_cases hle : c ≤ cursor
    · refine ⟨fun hc => ?_, fun hnot => absurd (.inl hle) hnot⟩
      omega
    · constructor
      · rintro hc (hle' | hback)
        · exact hle hle'
        · exact hlevel.mp (by omega) hback
      · intro hnot
        have := hlevel.mpr fun hback => hnot (.inr hback)
        omega

/-! ## Runs one after the other -/

/-- The worlds in which runs of a board set in, one after the other: at first no run is stored, every resume is
agreed to, and every save succeeds. -/
inductive Comes (b : Board σ) : World σ → Prop where
  | first {w : World σ} : (b.session.readFile w).1 = .ok none → Comes b w
  | again {limit : Nat} {x : Value} {w w' : World σ} : Comes b w → b.session.Agrees w →
      SavesSucceed (b.trace limit x w) → Follows b (b.run limit x w).2 w' → Comes b w'

section

variable (hflat : b.IsFlat) (hspares : ∀ {code}, b.Calls code → b.session.Spares code)
include hflat hspares

theorem run_heads {t : Timeline} {w : World σ} {limit : Nat} {x : Value} (h : Resumes b t w)
    (ha : b.session.Agrees w) (hs : SavesSucceed (b.trace limit x w)) :
    RunsTo b (givenContext x) (fun _ => Heads) (enterBoard limit [] b [] x ⟨w, []⟩).1
      (enterBoard limit [] b [] x ⟨w, []⟩).2 := by
  refine run_cases hspares hflat h ha hs ?_ Heads.nonneg ?_
  · rintro m g ls w₁ rfl - htrace
    exact heads_first htrace
  · intro n cursor c m rs act g g' ls hp _ htake hn
    exact heads_next hp htake hn

theorem comes_resumes {w : World σ} (h : Comes b w) : ∃ t, Resumes b t w := by
  induction h with
  | first hn => exact ⟨[], resumes_nothing hn⟩
  | again _ ha hs hf ih =>
    obtain ⟨t, ht⟩ := ih
    obtain ⟨t', hl⟩ := (run_heads hflat hspares ht ha hs).leaves
    exact ⟨t', (hl.follows hf).resumes⟩

/-- A run that raises a fault stops at a cursor, and leaves the records that were journaled before it. -/
theorem leaves_fault {limit : Nat} {x : Value} {w : World σ} {f : Fault} (h : Comes b w) (ha : b.session.Agrees w)
    (hs : SavesSucceed (b.trace limit x w)) (hr : (b.run limit x w).1 = .raised f) :
    ∃ i m t, (b.trace limit x w).getLast? = some m ∧ m.event = .turned i (.halt (.raised f)) ∧
      Rereads (m.world.journal []) t ∧ Leaves b t (b.run limit x w).2 ∧ i ≤ (m.world.journal []).length ∧
      (i = (m.world.journal []).length ↔ ¬ LedBack (b.trace limit x w)) := by
  obtain ⟨t, ht⟩ := comes_resumes hflat hspares h
  have hrun := run_heads hflat hspares ht ha hs
  unfold run at hr ⊢
  unfold trace at hs ⊢
  generalize enterBoard limit [] b [] x ⟨w, []⟩ = result at hrun hr ⊢
  obtain ⟨e, g'⟩ := result
  dsimp only at hrun hr ⊢
  subst hr
  generalize he : Ending.raised f = e at hrun
  cases hrun with
  | @raised n cursor m g g' enters ls f' hp hlt hstands hturn hleaves =>
    cases he
    obtain ⟨t', hreads, hl⟩ := hleaves
    have hm := journal_of_model hstands.model
    refine ⟨cursor, ⟨ls, .turned cursor (.halt (.raised f)), g.world⟩, t', ?_, rfl, ?_, hl, ?_, ?_⟩
    · rw [Stage.record_trace, List.reverse_cons, List.getLast?_concat]
    · rw [hm]
      exact hreads
    · rw [hm]
      exact hp.behind
    · rw [hm, hp.level, Stage.record_trace, ledBack_reverse, ledBack_cons]
      have hnotes := (leaves_raised hspares hturn hflat).1
      exact not_congr ((or_iff_right Bool.false_ne_true).trans (ledBack_notes hnotes)).symm
  | unfinished => cases he
  | past => exact absurd he.symm (endOf_ne_raised _ f)
  | stopped => exact absurd he.symm (endOf_ne_raised _ f)

omit hflat in
theorem Leaves.started {t : Timeline} {w w' : World σ} (h : Leaves b t w) (hf : Follows b w w')
    (ha : b.session.Agrees w') (limit : Nat) (x : Value) :
    ∃ m, (b.trace limit x w').head? = some m ∧ m.event = .started t.length ∧ m.world.journal [] = t := by
  have hresumes := (h.follows hf).resumes
  obtain ⟨m, hhead, hevent, hjournal⟩ := run_started hspares hresumes.opens ha limit x
  refine ⟨m, hhead, ?_, hjournal⟩
  rw [hevent, Timeline.cursor_of_isDone hresumes.numbered hresumes.done]

/-- **The run after a fault** starts with the records that were journaled before it, at their number. It enters the
frame that raised the fault exactly if no step of the run led back; else it starts behind that frame. -/
theorem started_after_fault {limit : Nat} {x : Value} {w w' : World σ} {f : Fault} (h : Comes b w)
    (ha : b.session.Agrees w) (hs : SavesSucceed (b.trace limit x w)) (hr : (b.run limit x w).1 = .raised f)
    (hf : Follows b (b.run limit x w).2 w') (ha' : b.session.Agrees w') (limit' : Nat) (x' : Value) :
    ∃ i m m', (b.trace limit x w).getLast? = some m ∧ m.event = .turned i (.halt (.raised f)) ∧
      (b.trace limit' x' w').head? = some m' ∧ m'.event = .started (m.world.journal []).length ∧
      Rereads (m.world.journal []) (m'.world.journal []) ∧ i ≤ (m.world.journal []).length ∧
      (i = (m.world.journal []).length ↔ ¬ LedBack (b.trace limit x w)) := by
  obtain ⟨i, m, t, hlast, hstopped, hreads, hleaves, hle, hlevel⟩ := leaves_fault hflat hspares h ha hs hr
  obtain ⟨m', hhead, hstarted, hjournal⟩ := hleaves.started hspares hf ha' limit' x'
  refine ⟨i, m, m', hlast, hstopped, hhead, ?_, ?_, hle, hlevel⟩
  · rw [hstarted, hreads.length_eq]
  · rw [hjournal]
    exact hreads

end

/-! ### A board that goes back once -/

def backOnce : Code Nat Value := fun w =>
  match w.user with
  | 0 => (.ok (.bool true), ⟨w.disk, 1⟩)
  | _ => (.ok (.bool false), ⟨w.disk, 2⟩)

def downOnce : Code Nat Value := fun w =>
  match w.user with
  | 2 => (.error (.raised .other "RuntimeError" "x failed"), ⟨w.disk, 3⟩)
  | _ => (.ok (.int 1), w.scene)

theorem backOnce_disk (w : World Nat) : (backOnce w).2.disk = w.disk := by
  unfold backOnce
  split
  · rfl
  · rfl

theorem downOnce_disk (w : World Nat) : (downOnce w).2.disk = w.disk := by
  unfold downOnce
  split
  · rfl
  · rfl

def rounds : Board Nat :=
  ⟨"b", .plain none "b", none,
    [.work .key "A" none none fun _ w => (.ok (.str "A"), w.scene), .jump (.position 0) (some fun _ => backOnce),
      .work .key "B" none none fun _ => downOnce]⟩

theorem rounds_spares {code : Code Nat Value} (h : rounds.Calls code) : rounds.session.Spares code := by
  refine Session.spares_of_disk (h.all (P := fun code => ∀ w, (code w).2.disk = w.disk) ?_ ?_)
  · simp [rounds, Frame.AllCode, World.scene, backOnce_disk, downOnce_disk]
  · exact fun _ _ => rfl

/-- Without the jump the next run enters the last frame again. -/
theorem rounds_reentered : ∃ f m m', (rounds.trace 9 .null (.blank 1)).getLast? = some m ∧
    m.event = .turned 2 (.halt (.raised f)) ∧
    (rounds.trace 9 .null (rounds.run 9 .null (.blank 1)).2).head? = some m' ∧ m'.event = .started 2 := by
  obtain ⟨f, hf⟩ : ∃ f, (rounds.run 9 .null (.blank 1)).1 = .raised f := Ending.exists_fault (by decide +kernel)
  have hflat : rounds.IsFlat := by
    simp [IsFlat, rounds]
  have hs : SavesSucceed (rounds.trace 9 .null (.blank 1)) := by decide +kernel
  have hback : ¬ LedBack (rounds.trace 9 .null (.blank 1)) := by decide +kernel
  have hstopped : (rounds.trace 9 .null (.blank 1)).getLast?.bind Moment.stopped? = some 2 := by decide +kernel
  obtain ⟨i, m, m', hlast, hevent, hhead, hstarted, -, -, hlevel⟩ :=
    started_after_fault hflat rounds_spares (.first rfl) (Session.agrees_plain _ _ _) hs hf ⟨.refl _ _, rfl⟩
      (Session.agrees_plain _ _ _) 9 .null
  have hi : i = 2 := by
    rw [hlast, Option.bind_some, Moment.stopped?, hevent] at hstopped
    exact Option.some.inj hstopped
  rw [← hlevel.mpr hback, hi] at hstarted
  rw [hi] at hevent
  exact ⟨f, m, m', hlast, hevent, hhead, hstarted⟩

/-- After the jump the next run starts behind the last frame. -/
theorem rounds_not_reentered : Comes rounds (.blank 0) ∧
    rounds.session.Agrees (.blank 0) ∧ SavesSucceed (rounds.trace 9 .null (.blank 0)) ∧
    (rounds.trace 9 .null (.blank 0)).getLast?.bind Moment.stopped? = some 2 ∧
    rounds.session.Agrees (rounds.run 9 .null (.blank 0)).2 ∧
    (rounds.trace 9 .null (rounds.run 9 .null (.blank 0)).2).head?.bind Moment.started? = some 4 := by
  obtain ⟨f, hf⟩ : ∃ f, (rounds.run 9 .null (.blank 0)).1 = .raised f := Ending.exists_fault (by decide +kernel)
  have hflat : rounds.IsFlat := by
    simp [IsFlat, rounds]
  have hs : SavesSucceed (rounds.trace 9 .null (.blank 0)) := by decide +kernel
  have hcount : (rounds.trace 9 .null (.blank 0)).getLast?.map (fun m => (m.world.journal []).length) = some 4 := by
    decide +kernel
  refine ⟨.first rfl, Session.agrees_plain _ _ _, hs, by decide +kernel, Session.agrees_plain _ _ _, ?_⟩
  -- the text of the file is not read back here: the lemmas on one run and the next say what it stores
  obtain ⟨i, m, t, hlast, -, hreads, hleaves, -⟩ :=
    leaves_fault hflat rounds_spares (.first rfl) (Session.agrees_plain _ _ _) hs hf
  obtain ⟨m', hhead, hstarted, -⟩ :=
    hleaves.started rounds_spares ⟨.refl _ _, rfl⟩ (Session.agrees_plain _ _ _) 9 .null
  have hlength : t.length = 4 := by
    rw [hlast, Option.map_some] at hcount
    rw [hreads.length_eq]
    exact Option.some.inj hcount
  rw [hhead, Option.bind_some, Moment.started?, hstarted, hlength]
  rfl

end Board

end Boardwalk
