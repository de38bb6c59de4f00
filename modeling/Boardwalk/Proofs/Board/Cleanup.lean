import Boardwalk.Proofs.Board.Course
import Boardwalk.Proofs.Session.Cleared
/-!
# What a run clears

A run that comes to an outcome clears the session of its board and those of the boards directly below, entered or not.
Each of them that can be cleared is gone afterwards, whatever becomes of the others; if there is no outcome, the last
step leaves every file and every journal as it is (`cleared_on_success`).
-/

namespace Boardwalk

variable {σ : Type}

def Ending.isSuccess : Ending → Bool
  | .success _ => true
  | _ => false

theorem Ending.exists_outcome {e : Ending} (h : e.isSuccess = true) : ∃ o, e = .success o := by
  cases e with
  | success o => exact ⟨o, rfl⟩
  | failure f => cases h
  | raised f => cases h
  | unfinished => cases h

namespace Board

/-- The sessions that a run of a board clears, with their addresses. -/
inductive Owns (b : Board σ) (a : Address) : Address → Session σ → Prop where
  | own : Owns b a a b.session
  | below {i : Nat} {c : Board σ} {condition : Option (Condition σ)} {provider : Option (Provider σ)} :
      b.frames[i]? = some (.story c condition provider) → Owns b a (a ++ [i]) c.session

theorem mem_stories_of {b c : Board σ} {i : Nat} {condition : Option (Condition σ)} {provider : Option (Provider σ)}
    (h : b.frames[i]? = some (.story c condition provider)) : (i, c) ∈ b.stories := by
  obtain ⟨hi, hf⟩ := List.getElem?_eq_some_iff.mp h
  unfold stories
  exact List.mem_filterMap.mpr ⟨(i, _), List.mem_mapIdx.mpr ⟨i, hi, congrArg _ hf⟩, rfl⟩

/-! ## One session after the other -/

theorem passes_closed (s : Session σ) : Closed fun g g' : Stage σ => s.Passes g.world.disk g'.world.disk where
  refl _ := .refl s _
  trans h h' := h.trans h'
  record _ _ := .refl s _
  report _ _ := .refl s _

theorem passes_clearEach (s : Session σ) (es : List (Address × Session σ)) (w : World σ) :
    s.Passes w.disk (clearEach es w).2.disk :=
  (passes_closed s).on.clearEach (fun e _ g => Session.passes_clear s e.2 e.1 g.world) ⟨w, []⟩

theorem unloaded_closed (a : Address) :
    Closed fun g g' : Stage σ => g.world.model? a = none → g'.world.model? a = none where
  refl _ := id
  trans h h' := h' ∘ h
  record _ _ := id
  report _ _ := id

theorem unloaded_clearEach {a : Address} (es : List (Address × Session σ)) {w : World σ} (h : w.model? a = none) :
    (clearEach es w).2.model? a = none :=
  (unloaded_closed a).on.clearEach (fun e _ _ => Session.clear_model?_none e.2 e.1) ⟨w, []⟩ h

/-- What was cleared stays so while others are: they bring neither the journal nor the file back. -/
theorem cleared_clearEach {s : Session σ} {a : Address} {w w₁ : World σ} {r : Session.Answer Unit}
    (hc : s.clear a w = (.ok r, w₁)) (hbefore : s.Clearable w.held w.disk) (es : List (Address × Session σ))
    (hafter : s.Clearable w.held (clearEach es w₁).2.disk) :
    (clearEach es w₁).2.model? a = none ∧ (clearEach es w₁).2.disk.node? s.file = none := by
  obtain ⟨hmodel, hnode⟩ := Session.clear_of_clearable hbefore hc
  refine ⟨unloaded_clearEach es hmodel, ?_⟩
  cases hn : (clearEach es w₁).2.disk.node? s.file with
  | none => rfl
  | some n =>
    cases n with
    | file c => cases hnode.symm.trans ((passes_clearEach s es w₁).file c hn)
    | dir => cases hafter.file.symm.trans (Disk.isDir_iff.mpr hn)

/-- **Of sessions that are cleared one after the other each that can be cleared is gone in the end.** What becomes of
the others does not matter, as long as no fault is raised. -/
theorem clearEach_cleared {es : List (Address × Session σ)} {a : Address} {s : Session σ} (hm : (a, s) ∈ es) :
    ∀ {w w' : World σ}, clearEach es w = (.ok (), w') → s.Clearable w.held w.disk → s.Clearable w.held w'.disk →
      w'.model? a = none ∧ w'.disk.node? s.file = none := by
  induction es with
  | nil => cases hm
  | cons e es ih =>
    intro w w' h hbefore hafter
    obtain ⟨a₀, s₀⟩ := e
    unfold clearEach at h
    cases hc : s₀.clear a₀ w with
    | mk answer w₁ =>
      rw [hc] at h
      cases answer with
      | error f => cases h
      | ok r =>
        obtain rfl : (clearEach es w₁).2 = w' := congrArg Prod.snd h
        rcases List.mem_cons.mp hm with he | hm
        · -- its turn
          cases he
          exact cleared_clearEach hc hbefore es hafter
        · have hheld : w₁.held = w.held := by
            have := Session.clear_held s₀ a₀ w
            rwa [hc] at this
          have hpasses : s.Passes w.disk w₁.disk := by
            have := Session.passes_clear s s₀ a₀ w
            rwa [hc] at this
          refine ih hm h ?_ ?_
          · rw [hheld]
            exact hbefore.between hafter hpasses (passes_clearEach s es w₁).dirs
          · rw [hheld]
            exact hafter

theorem Owns.mem {b : Board σ} {a a' : Address} {s : Session σ} (h : b.Owns a a' s) :
    (a', s) ∈ (a, b.session) :: b.stories.map fun (i, c) => (a ++ [i], c.session) := by
  cases h with
  | own => exact List.mem_cons_self
  | below hf => exact List.mem_cons_of_mem _ (List.mem_map.mpr ⟨_, mem_stories_of hf, rfl⟩)

/-! ## The last step of a run -/

variable {b : Board σ} {a : Address}

theorem finish_success {ls : List (Level σ)} {g g' : Stage σ} {o : Outcome}
    (h : b.finish ls a g = (.success o, g')) : b.resolve (g.world.journal a) = .ok o ∧
      ∃ w, b.clearAll a g.world = (.ok (), w) ∧ g'.world.disk = w.disk ∧ g'.world.memory = w.memory := by
  unfold finish at h
  dsimp only at h
  split at h
  · cases h
  · rename_i o' hr
    split at h
    · cases h
    · rename_i w hc
      cases h
      exact ⟨hr, w, hc, rfl, rfl⟩

theorem finish_failure {ls : List (Level σ)} {g : Stage σ} {f : Fault} (h : b.resolve (g.world.journal a) = .error f) :
    (b.finish ls a g).1 = .failure f ∧ (b.finish ls a g).2.world.disk = g.world.disk ∧
      (b.finish ls a g).2.world.memory = g.world.memory := by
  unfold finish
  dsimp only [Stage.note_world]
  rw [h]
  exact ⟨rfl, rfl, rfl⟩

theorem finish_disk {ls : List (Level σ)} {g : Stage σ} {o : Outcome} (h : b.resolve (g.world.journal a) = .ok o) :
    (b.finish ls a g).2.world.disk = (b.clearAll a g.world).2.disk := by
  unfold finish
  dsimp only [Stage.note_world]
  rw [h]
  dsimp only
  split
  all_goals
    rename_i hc
    rw [hc]
    rfl

/-- Nothing of the run is recorded, or something else than its end comes last. -/
def Unfinished (g g' : Stage σ) : Prop := ∀ ls w ms, g'.trace ≠ ⟨ls, .finished, w⟩ :: (ms ++ g.trace)

theorem unfinished_of_event {g g' : Stage σ} {m : Moment σ} {ms : List (Moment σ)} (h : g'.trace = m :: ms)
    (hm : m.event ≠ .finished) : Unfinished g g' := by
  intro ls w ms' he
  rw [h] at he
  cases he
  exact hm rfl

theorem unfinished_withWorld (g : Stage σ) (w : World σ) : Unfinished g (g.withWorld w) := by
  intro ls w' ms he
  have hlength := congrArg List.length he
  simp at hlength
  omega

theorem steps_unfinished {enters : List (Enter σ)} (he : ∀ enter ∈ enters, ∀ ls x g, Extends g (enter ls x g).2)
    {ls : List (Level σ)} {x : Value} {limit : Nat} {cursor : Int} {g₀ g G : Stage σ} {h : Halt}
    (hg : Unfinished g₀ g) (hs : b.steps enters ls a x limit cursor g = (h, G)) (hh : h ≠ .ended) :
    Unfinished g₀ G := by
  obtain ⟨n, c, g', hg', hends⟩ := steps_ends he (P := fun _ _ g => Unfinished g₀ g)
    (fun _ _ _ _ => unfinished_of_event rfl (by simp)) limit hg hs
  cases hends with
  | past => exact absurd rfl hh
  | limit => exact hg'
  | halt => exact unfinished_of_event rfl (by simp)

section

variable (limit : Nat) (b : Board σ) (a : Address) (above : List (Level σ)) (x : Value) (g : Stage σ)

theorem enterBoard_walks :
    (∃ r w g', b.session.load a g.world = (.ok r, w) ∧
      b.steps (enterFrames limit a 0 b.frames) (⟨b, a, w⟩ :: above) a (givenContext x) limit (w.journal a).cursor
        (b.opened (⟨b, a, w⟩ :: above) a (g.withWorld w)) = (.ended, g') ∧
      enterBoard limit a b above x g = b.finish (⟨b, a, w⟩ :: above) a g') ∨
    ((∀ o, (enterBoard limit a b above x g).1 ≠ .success o) ∧ Unfinished g (enterBoard limit a b above x g).2) := by
  rw [enterBoard_eq]
  rcases runWith_cases b (enterFrames limit a 0 b.frames) limit a above x g with
    ⟨f, w, -, hr⟩ | ⟨f, w, -, -, hr⟩ | ⟨r, w, hload, hr⟩
  · rw [hr]
    exact .inr ⟨by simp, unfinished_withWorld g w⟩
  · rw [hr]
    exact .inr ⟨by simp, unfinished_withWorld g w⟩
  · rw [hr, walk_eq, Stage.withWorld_world]
    have hopened : Unfinished g (b.opened (⟨b, a, w⟩ :: above) a (g.withWorld w)) :=
      unfinished_of_event rfl (by simp)
    cases hs : b.steps (enterFrames limit a 0 b.frames) (⟨b, a, w⟩ :: above) a (givenContext x) limit
        (w.journal a).cursor (b.opened (⟨b, a, w⟩ :: above) a (g.withWorld w)) with
    | mk h g' =>
      have hsteps := steps_unfinished (extends_closed.enterFrames fun p c _ => extends_closedAt c (a ++ p)) hopened hs
      cases h with
      | raised f => exact .inr ⟨by simp [close], hsteps (by simp)⟩
      | unfinished => exact .inr ⟨by simp [close], hsteps (by simp)⟩
      | ended => exact .inl ⟨r, w, g', hload, hs, rfl⟩

theorem enterBoard_finish :
    (∃ w g', Extends g g' ∧ enterBoard limit a b above x g = b.finish (⟨b, a, w⟩ :: above) a g') ∨
    ((∀ o, (enterBoard limit a b above x g).1 ≠ .success o) ∧ Unfinished g (enterBoard limit a b above x g).2) := by
  refine (enterBoard_walks limit b a above x g).imp_left ?_
  rintro ⟨r, w, g', -, hs, hr⟩
  refine ⟨w, g', ?_, hr⟩
  have hext : Extends g (b.opened (⟨b, a, w⟩ :: above) a (g.withWorld w)) := ⟨[_], rfl⟩
  have hsteps := steps_extends limit b a (⟨b, a, w⟩ :: above) (givenContext x)
    (b.opened (⟨b, a, w⟩ :: above) a (g.withWorld w)) limit (w.journal a).cursor
  rw [hs] at hsteps
  exact extends_closed.trans hext hsteps

/-- **An outcome clears the session of the board and those directly below**, each that can be cleared, whatever becomes
of the others. Without an outcome nothing is cleared. -/
theorem cleared_on_success :
    (∀ {o}, (enterBoard limit a b above x g).1 = .success o →
      ∃ ls w ms, (enterBoard limit a b above x g).2.trace = ⟨ls, .finished, w⟩ :: (ms ++ g.trace) ∧
        b.resolve (w.journal a) = .ok o ∧
        ∀ {a' s}, b.Owns a a' s → s.Clearable w.held w.disk →
          s.Clearable w.held (enterBoard limit a b above x g).2.world.disk →
          (enterBoard limit a b above x g).2.world.model? a' = none ∧
            (enterBoard limit a b above x g).2.world.disk.node? s.file = none) ∧
    ∀ {ls w ms f}, (enterBoard limit a b above x g).2.trace = ⟨ls, .finished, w⟩ :: (ms ++ g.trace) →
      b.resolve (w.journal a) = .error f →
      (enterBoard limit a b above x g).1 = .failure f ∧
        (enterBoard limit a b above x g).2.world.disk = w.disk ∧
        (enterBoard limit a b above x g).2.world.memory = w.memory := by
  rcases enterBoard_finish limit b a above x g with ⟨w, g', ⟨ms, hms⟩, hr⟩ | ⟨hno, hunfinished⟩
  · rw [hr, finish_trace, hms]
    refine ⟨fun {o} ho => ?_, fun {ls' w ms' f} ht hf => ?_⟩
    · obtain ⟨hresolve, w, hclear, hdisk, hmemory⟩ := finish_success (Prod.ext ho rfl)
      refine ⟨_, g'.world, ms, rfl, hresolve, fun {a' s} hs hbefore hafter => ?_⟩
      rw [hdisk] at hafter ⊢
      unfold World.model?
      rw [hmemory]
      exact clearEach_cleared hs.mem hclear hbefore hafter
    · obtain ⟨hm, -⟩ := List.cons.inj ht
      cases hm
      exact finish_failure hf
  · exact ⟨fun {o} ho => absurd ho (hno o), fun {ls w ms f} ht _ => absurd ht (hunfinished ls w ms)⟩

end

/-! ## A board with three boards below -/

def chore (name : String) : Board Unit :=
  ⟨name, .plain (some "day") name, none, [.work .key "do" none none fun _ w => (.ok .null, w.scene)]⟩

/-- The first board below is skipped, the second one is entered, and the third one is never reached. -/
def day (resolver : Option Resolver) : Board Unit :=
  ⟨"day", .plain none "day", resolver,
    [.story (chore "shop") (some fun _ w => (.ok (.bool false), w.scene)) none, .story (chore "cook") none none,
      .story (chore "rest") none none]⟩

def monday : World Unit :=
  { World.blank () with
    disk := ⟨[((chore "shop").session.file, .file ByteArray.empty), ((chore "rest").session.file, .file ByteArray.empty)]⟩
    held := [(chore "shop").session.lock] }

def undecided : Resolver := fun _ => .error (.raised .other "RuntimeError" "undecided")

theorem ended_of_head {t : List (Moment σ)} (h : t.head?.any (·.event matches .finished) = true) :
    ∃ ls w ms, t = ⟨ls, .finished, w⟩ :: ms := by
  cases t with
  | nil => cases h
  | cons m ms =>
    obtain ⟨ls, e, w⟩ := m
    cases e with
    | finished => exact ⟨ls, w, ms, rfl⟩
    | _ => cases h

/-- Only the session whose lock is held stays, and without an outcome none is gone. -/
theorem day_cleared :
    ((∃ o, (enterBoard 9 [] (day none) [] .null ⟨monday, []⟩).1 = .success o) ∧
      (∀ e ∈ [([], (day none).session), ([1], (chore "cook").session), ([2], (chore "rest").session)],
        (enterBoard 9 [] (day none) [] .null ⟨monday, []⟩).2.world.model? e.1 = none ∧
          (enterBoard 9 [] (day none) [] .null ⟨monday, []⟩).2.world.disk.node? e.2.file = none) ∧
      (enterBoard 9 [] (day none) [] .null ⟨monday, []⟩).2.world.disk.exists? (chore "shop").session.file = true) ∧
    ∃ f m ms, (enterBoard 9 [] (day (some undecided)) [] .null ⟨monday, []⟩).2.trace = m :: ms ∧
      (enterBoard 9 [] (day (some undecided)) [] .null ⟨monday, []⟩).1 = .failure f ∧
      (enterBoard 9 [] (day (some undecided)) [] .null ⟨monday, []⟩).2.world.disk = m.world.disk ∧
      (enterBoard 9 [] (day (some undecided)) [] .null ⟨monday, []⟩).2.world.memory = m.world.memory := by
  refine ⟨?_, ?_⟩
  · have hclearable : ∀ m ∈ (enterBoard 9 [] (day none) [] .null ⟨monday, []⟩).2.trace.head?,
        ∀ s ∈ [(day none).session, (chore "cook").session, (chore "rest").session],
          s.Clearable m.world.held m.world.disk ∧
            s.Clearable m.world.held (enterBoard 9 [] (day none) [] .null ⟨monday, []⟩).2.world.disk := by
      decide +kernel
    obtain ⟨o, ho⟩ := Ending.exists_outcome
      (show (enterBoard 9 [] (day none) [] .null ⟨monday, []⟩).1.isSuccess = true by decide +kernel)
    obtain ⟨ls, w, ms, htrace, -, hcleared⟩ := (cleared_on_success 9 (day none) [] [] .null ⟨monday, []⟩).1 ho
    rw [htrace] at hclearable
    have hgone : ∀ {a s}, (day none).Owns [] a s →
        s ∈ [(day none).session, (chore "cook").session, (chore "rest").session] → _ :=
      fun hs hm => hcleared hs (hclearable _ rfl _ hm).1 (hclearable _ rfl _ hm).2
    refine ⟨⟨o, ho⟩, ?_, by decide +kernel⟩
    intro e he
    simp only [List.mem_cons, List.not_mem_nil, or_false] at he
    rcases he with rfl | rfl | rfl
    · exact hgone .own (by simp)
    · exact hgone (.below (i := 1) rfl) (by simp)
    · exact hgone (.below (i := 2) rfl) (by simp)
  · obtain ⟨ls, w, ms, htrace⟩ := ended_of_head
      (show (enterBoard 9 [] (day (some undecided)) [] .null ⟨monday, []⟩).2.trace.head?.any
        (·.event matches .finished) = true by decide +kernel)
    have hfailure := (cleared_on_success 9 (day (some undecided)) [] [] .null ⟨monday, []⟩).2
      (htrace.trans (by rw [List.append_nil])) rfl
    exact ⟨_, _, ms, htrace, hfailure⟩

def latched : Board Unit := ⟨"b", .plain none "b", none, [.work .key "A" none none fun _ w => (.ok (.str "A"), w.scene)]⟩

/-- A directory stands in the place of the lock, which nobody holds. -/
def jammed : World Unit :=
  { World.blank () with
    disk := ⟨[(latched.session.lock, .dir), (latched.session.file, .file (String.toUTF8 "x"))]⟩ }

/-- A session whose lock nobody holds may still be one whose lock cannot be taken, and stays then. -/
theorem latched_not_cleared :
    (enterBoard 9 [] latched [] .null ⟨jammed, []⟩).1.isSuccess = true ∧
      (enterBoard 9 [] latched [] .null ⟨jammed, []⟩).2.trace.all (·.world.held.isEmpty) = true ∧
      (∀ g ∈ [⟨jammed, []⟩, (enterBoard 9 [] latched [] .null ⟨jammed, []⟩).2],
        (g.world.disk.nodeAt latched.session.target.parent matches .ok (some .dir)) = true ∧
          g.world.disk.isDir latched.session.file = false) ∧
      ((enterBoard 9 [] latched [] .null ⟨jammed, []⟩).2.world.model? []).isSome = true ∧
      (enterBoard 9 [] latched [] .null ⟨jammed, []⟩).2.world.disk.exists? latched.session.file = true := by
  decide +kernel

end Board

end Boardwalk
