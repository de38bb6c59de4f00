import Boardwalk.Proofs.Board.Recount
import Boardwalk.Proofs.Board.Reentry
/-!
# What a fault leaves in the file

A run that raises a fault leaves the journal of the steps that it finished in its file, and nothing of the step that
failed, except for the record in flight of a story frame whose board was entered (`fault_leftover`). A jump without a
target has its record in memory by then, but not in the file.
-/

namespace Boardwalk.Board

variable {σ : Type}

theorem Tells.entered {b : Board σ} {x : Value} {t : Timeline} {c : Int} {es : List Event} {rs : Timeline} {f : Fault}
    (h : Tells b x t c es rs (.halt (.raised f))) {p : Nat} (hp : .entered p ∈ es) :
    ∃ s, b.spot? c = some s ∧ s.kind = "story_frame" ∧ rs = [s.inFlight t] := by
  generalize hturn : Turn.halt (.raised f) = turn at h
  cases h with
  | outside => cases hp
  | undecided _ hd => exact absurd hp (hd.quiet p)
  | unprovided _ hd hq => simp [hd.quiet, hq.quiet] at hp
  | unworked _ _ hd hq => simp [hd.quiet, hq.quiet] at hp
  | unstopped => simp at hp
  | lost _ _ hd => exact absurd hp (hd.quiet p)
  | @story s _ _ _ _ _ _ _ hs hf => exact ⟨s, hs, by simp [Spot.kind, hf, Frame.kind], rfl⟩
  | stop => simp at hp
  | _ => cases hturn

theorem stopped_eq {ls : List (Level σ)} {e : Event} {w : World σ} {i : Int}
    (h : (⟨ls, e, w⟩ : Moment σ).stopped? = some i) : ∃ f, e = .turned i (.halt (.raised f)) := by
  unfold Moment.stopped? at h
  dsimp only at h
  split at h
  · cases h
    exact ⟨_, rfl⟩
  · cases h

theorem stopped?_finish {b : Board σ} {ls : List (Level σ)} {a : Address} {g : Stage σ} {last : Moment σ}
    {ms : List (Moment σ)} (h : (b.finish ls a g).2.trace = last :: ms) : last.stopped? = none := by
  rw [finish_trace] at h
  cases (List.cons.inj h).1
  rfl

section

variable {b : Board σ} (hown : b.OwnsFile) {limit : Nat} {a : Address}
include hown

/-- The last step leaves the file as the finished ones left it, unless it entered a board below. -/
theorem Walked.leftover {ls : List (Level σ)} {n : Nat} {x : Value} {c i : Int} {m : Model} {g₀ g₁ g₂ : Stage σ}
    {ms ms' : List (Moment σ)} {rs rs' : Timeline} {f : Fault} (hw : Walked b ls a n x c m g₀ ms rs i g₁)
    (hd : Does b ls a n x i ⟨m.board, m.timeline ++ rs⟩ g₁ ms' rs' (.halt (.raised f)) g₂)
    (hs : SavesSucceed ms) (hs' : SavesSucceed ms') :
    ((∀ p, .entered p ∉ told ls.length ms') →
      (rs = [] → g₂.world.disk.node? b.session.file = g₀.world.disk.node? b.session.file) ∧
      (rs ≠ [] → b.session.FileHolds ⟨m.board, m.timeline ++ rs⟩ g₂.world.disk)) ∧
    ∀ p, .entered p ∈ told ls.length ms' → ∃ s, b.spot? i = some s ∧ s.kind = "story_frame" ∧
      rs' = [s.inFlight (m.timeline ++ rs)] ∧
      b.session.FileHolds ⟨m.board, m.timeline ++ rs ++ rs'⟩ g₂.world.disk := by
  refine ⟨fun hquiet => ?_, fun p hp => ?_⟩
  · have hsame := hd.spares hown ⟨hquiet, f, rfl⟩
    refine ⟨fun hrs => ?_, fun hrs => ?_⟩
    · rw [hsame, hw.still hrs]
    · obtain ⟨content, hc, hn⟩ := hw.saves hs hrs
      exact ⟨content, hc, hsame.trans hn⟩
  · obtain ⟨s, hspot, hk, hrs'⟩ := hd.tells.entered hp
    exact ⟨s, hspot, hk, hrs', hd.saves (.inr hown) hs' fun hq => hq.1 p hp⟩

omit hown in
/-- A walk that raises a fault at a cursor came there and took a step that raised it. -/
theorem walk_faulted {ls : List (Level σ)} {x : Value} {m : Model} {g : Stage σ} {ms : List (Moment σ)}
    {last : Moment σ} {i : Int} {f : Fault} (hm : g.world.model? a = some m)
    (hf : (b.walk (enterFrames limit a 0 b.frames) limit ls a x g).1 = .raised f)
    (htrace : (b.walk (enterFrames limit a 0 b.frames) limit ls a x g).2.trace = last :: (ms ++ g.trace))
    (hi : last.stopped? = some i) :
    ∃ ms₁ rs g₁ ms₂ rs' g₂, ms = ms₂ ++ (ms₁ ++ [⟨ls, .started m.timeline.cursor, g.world⟩]) ∧
      Walked b ls a m.timeline.length x m.timeline.cursor m (b.opened ls a g) ms₁ rs i g₁ ∧
      Does b ls a m.timeline.length x i ⟨m.board, m.timeline ++ rs⟩ g₁ ms₂ rs' (.halt (.raised f)) g₂ ∧
      (b.walk (enterFrames limit a 0 b.frames) limit ls a x g).2.world = g₂.world := by
  rw [walk_eq, journal_of_model hm] at *
  cases hsteps : b.steps (enterFrames limit a 0 b.frames) ls a x limit m.timeline.cursor (b.opened ls a g) with
  | mk h g' =>
    have hmo : (b.opened ls a g).world.model? a = some m := hm
    obtain ⟨_, ms₁, rs, cursor, g₁, hw, hends⟩ := steps_walked hmo (Nat.le_refl _) limit hsteps
    have hspans := (opened_spans b ls hm).trans hw.spans
    rw [hsteps] at hf htrace
    cases hends with
    | past =>
      -- the last moment of a walk that came to its end is that it was finished
      simp [stopped?_finish htrace] at hi
    | limit => cases hf
    | halt hlt hturn =>
      obtain ⟨ms₂, rs', hd⟩ := hw.turns (Nat.le_refl _) limit
      rw [hturn] at hd
      cases h with
      | ended => simp [stopped?_finish htrace] at hi
      | unfinished => cases hf
      | raised f' =>
        cases hf
        -- the last moment tells the cursor, and the others are those of the walk and of its last step
        obtain ⟨hlast, hms⟩ := List.cons.inj htrace
        cases hlast
        obtain ⟨_, he⟩ := stopped_eq hi
        cases he
        rw [hd.spans.trace, hspans.trace, ← List.append_assoc] at hms
        exact ⟨ms₁, rs, g₁, ms₂, rs', _, (List.append_cancel_right hms).symm, hw, hd, rfl⟩

variable {above : List (Level σ)} {x : Value} {g : Stage σ}

/-- **A fault leaves the records that were loaded and those of the finished steps in the file, and nothing else**; and
if no step was finished, it leaves the file as the run found it. A story frame whose board was entered leaves one more
record, in flight. -/
theorem fault_leftover {last : Moment σ} {ms : List (Moment σ)} {i : Int}
    (hraised : (enterBoard limit a b above x g).1.isRaised = true)
    (htrace : (enterBoard limit a b above x g).2.trace = last :: (ms ++ g.trace)) (hi : last.stopped? = some i)
    (hs : SavesSucceed ms) :
    ∃ m f es rs es' rs', (b.session.load a g.world).2.model? a = some m ∧
      (enterBoard limit a b above x g).1 = .raised f ∧
      Walks b (givenContext x) m.timeline m.timeline.cursor es rs i ∧
      Tells b (givenContext x) (m.timeline ++ rs) i es' rs' (.halt (.raised f)) ∧
      told (above.length + 1) ms = es ++ es' ∧
      ((∀ p, .entered p ∉ es') →
        (rs = [] → ∀ c, (enterBoard limit a b above x g).2.world.disk.node? b.session.file = some (.file c) ↔
          g.world.disk.node? b.session.file = some (.file c)) ∧
        (rs ≠ [] → b.session.FileHolds ⟨m.board, m.timeline ++ rs⟩ (enterBoard limit a b above x g).2.world.disk)) ∧
      ∀ p, .entered p ∈ es' → ∃ s, b.spot? i = some s ∧ s.kind = "story_frame" ∧
        rs' = [s.inFlight (m.timeline ++ rs)] ∧
        b.session.FileHolds ⟨m.board, m.timeline ++ rs ++ rs'⟩ (enterBoard limit a b above x g).2.world.disk := by
  obtain ⟨f, hf⟩ := Ending.exists_fault hraised
  have hload := Session.load_file (fun message w => hown.spares (.here b) (.question message) w) a g.world
  rw [hf]
  rw [enterBoard_eq] at *
  generalize hrun : b.runWith (enterFrames limit a 0 b.frames) limit a above x g = result at *
  rcases runWith_cases b (enterFrames limit a 0 b.frames) limit a above x g with
    ⟨f', w, -, hr⟩ | ⟨f', w, -, -, hr⟩ | ⟨answer, w, hw, hr⟩
  · -- nothing is recorded before the session is loaded
    rw [← hrun, hr] at htrace
    have hlength := congrArg List.length htrace
    simp at hlength
    omega
  · rw [← hrun, hr] at hf
    cases hf
  · rw [hw] at hload ⊢
    obtain ⟨m, hm⟩ := Session.load_model hw
    rw [← hrun, hr] at hf htrace
    obtain ⟨ms₁, rs, g₁, ms₂, rs', g₂, rfl, hwalked, hd, hworld⟩ := walk_faulted (g := g.withWorld w) hm hf htrace hi
    obtain ⟨hs₂, hs₁⟩ := savesSucceed_append hs
    have hleft := hwalked.leftover hown hd (savesSucceed_append hs₁).1 hs₂
    rw [← hrun, hr, hworld]
    refine ⟨m, f, _, rs, _, rs', hm, rfl, hwalked.walks, hd.tells, by simp, fun hquiet => ?_, hleft.2⟩
    obtain ⟨hnone, hsome⟩ := hleft.1 hquiet
    refine ⟨fun hrs c => ?_, hsome⟩
    rw [hnone hrs]
    exact hload c

end

/-! ### Boards below, and code that writes the file -/

theorem own?_entered {m : Moment σ} {depth i : Nat} (hl : m.levels.length = depth) (hi : m.entered? = some i) :
    m.own? depth = some (.entered i) := by
  unfold Moment.entered? at hi
  unfold Moment.own?
  rw [if_pos hl]
  split at hi
  · cases hi
    simp [*]
  · cases hi

theorem whole_owns : whole.OwnsFile :=
  ⟨whole_apart, fun hp hcode w => congrArg (Disk.node? · _) (whole_disk hp hcode w)⟩

/-- After a fault below the frame the last record in the file is the one in flight. -/
theorem whole_leftover : ∃ name s rs, whole.spot? 0 = some s ∧ s.kind = "story_frame" ∧
    whole.session.FileHolds ⟨name, rs ++ [s.inFlight rs]⟩ (whole.run 9 .null (wholeWorlds 0)).2.disk := by
  obtain ⟨hs, hraised, ⟨m', hmem, hlevel, hentered⟩, hlast⟩ := whole_enters 0 (by decide)
  have hloaded : ((whole.session.load [] (wholeWorlds 0)).2.model? []).map (fun m => m.timeline.length) = some 0 := by
    decide +kernel
  unfold trace at hs hlast hmem
  unfold run at hraised ⊢
  dsimp only at hraised ⊢
  rw [List.getLast?_reverse] at hlast
  obtain ⟨last, hhead, hi⟩ := Option.bind_eq_some_iff.mp hlast
  obtain ⟨ms, htrace⟩ := List.head?_eq_some_iff.mp hhead
  rw [htrace] at hs hmem
  have hs' : SavesSucceed ms := fun m hm => hs m (by simp [hm])
  obtain ⟨m, f, es, rs, es', rs', hm, -, hwalks, -, htold, -, hleft⟩ :=
    fault_leftover whole_owns hraised (by simpa using htrace) hi hs'
  dsimp only at hm
  rw [hm, Option.map_some] at hloaded
  have ht : m.timeline = [] := List.length_eq_zero_iff.mp (Option.some.inj hloaded)
  rw [ht] at hwalks hleft
  obtain ⟨-, -, hes⟩ := hwalks.goes_on (by decide)
  have hflight : .entered 0 ∈ es' := by
    have htell : .entered 0 ∈ es ++ es' := by
      rw [← htold]
      refine mem_told ?_ (own?_entered hlevel hentered)
      rcases List.mem_cons.mp (List.mem_reverse.mp hmem) with rfl | hmem
      · obtain ⟨_, he⟩ := stopped_eq hi
        simp [Moment.entered?, he] at hentered
      · exact hmem
    rcases List.mem_append.mp htell with h | h
    · exact absurd trivial (hes _ h)
    · exact h
  obtain ⟨s, hspot, hk, rfl, hholds⟩ := hleft 0 hflight
  exact ⟨m.board, s, rs, hspot, hk, hholds⟩

def scribble : Code Unit Value := fun w =>
  (.error (.raised .other "RuntimeError" "x failed"), ⟨w.disk.put ["p.json"] (.file ByteArray.empty), ()⟩)

def scribbled : Board Unit := ⟨"p", .plain none "p", none, [.work .key "A" none none fun _ => scribble]⟩

def twin : Board Unit :=
  ⟨"p", .plain none "p", none,
    [.work .key "A" none none fun _ w => (.ok (.int 1), w.scene),
      .work .key "B" none none fun _ w => (.error (.raised .other "RuntimeError" "x failed"), w.scene)]⟩

def twins : Board Unit := ⟨"p", .plain none "p", none, [.story twin none none]⟩

/-- In a file that a board below shares, its records are left too; and code that writes the file leaves what it wrote. -/
theorem twins_leftover :
    (SavesSucceed (twins.trace 9 .null (.blank ())) ∧ (twins.run 9 .null (.blank ())).1.isRaised = true ∧
      (twins.trace 9 .null (.blank ())).getLast?.bind Moment.stopped? = some 0 ∧
      (∃ m ∈ twins.trace 9 .null (.blank ()), m.levels.length = 1 ∧ m.entered? = some 0) ∧
      twins.loaded [] (.blank ()) = [] ∧ ∀ s, twins.spot? 0 = some s →
        ¬ twins.session.FileHolds ⟨"p", [s.inFlight []]⟩ (twins.run 9 .null (.blank ())).2.disk) ∧
    SavesSucceed (scribbled.trace 9 .null (.blank ())) ∧ (scribbled.run 9 .null (.blank ())).1.isRaised = true ∧
      (scribbled.trace 9 .null (.blank ())).getLast?.bind Moment.stopped? = some 0 ∧
      (World.blank ()).disk.file? scribbled.session.file = none ∧
      (scribbled.run 9 .null (.blank ())).2.disk.file? scribbled.session.file = some ByteArray.empty := by
  have hruns : SavesSucceed (twins.trace 9 .null (.blank ())) ∧ (twins.run 9 .null (.blank ())).1.isRaised = true ∧
      (twins.trace 9 .null (.blank ())).getLast?.bind Moment.stopped? = some 0 ∧
      (∃ m ∈ twins.trace 9 .null (.blank ()), m.levels.length = 1 ∧ m.entered? = some 0) ∧
      ((twins.run 9 .null (.blank ())).2.disk.file? twins.session.file).map ByteArray.size ≠
        (Model.bytes? ⟨"p", [Timeline.entry [] "p" "story_frame" 0 (.dict []) false]⟩).map ByteArray.size := by
    decide +kernel
  obtain ⟨hs, hraised, hlast, hentered, hsize⟩ := hruns
  refine ⟨⟨hs, hraised, hlast, hentered, rfl, ?_⟩, by decide +kernel⟩
  intro s hs hholds
  have hflight : s.inFlight [] = Timeline.entry [] "p" "story_frame" 0 (.dict []) false := by
    cases hs
    rfl
  rw [hflight] at hholds
  exact hsize (congrArg (Option.map ByteArray.size) hholds.file?_eq)

end Boardwalk.Board
