import Boardwalk.Proofs.Board.Lockstep
import Boardwalk.Proofs.Board.Reentry
/-!
# What earlier runs leave in memory

Of the journals that earlier runs left in memory none reaches a later run: loading puts a journal in the place of the
old one before anything reads it, in the boards below as well. So runs one after the other end as they would if the
memory were empty at each start (`visits_cleared`).
-/

namespace Boardwalk

variable {σ : Type}

namespace World

def withMemory (w : World σ) (ms : List (Address × Model)) : World σ := { w with memory := ms }

def Outside (w w' : World σ) : Prop := w.withMemory [] = w'.withMemory []

theorem outside_withMemory (w : World σ) (ms : List (Address × Model)) : w.Outside (w.withMemory ms) := rfl

theorem Outside.withMemory {w w' : World σ} (h : w.Outside w') : ∃ ms, w' = w.withMemory ms :=
  ⟨w'.memory, (congrArg (World.withMemory · w'.memory) h).symm⟩

theorem Outside.pair {α : Type} {x x' : α × World σ} (h : x.2.Outside x'.2) (hr : x.1 = x'.1) :
    ∃ r w ms, x = (r, w) ∧ x' = (r, w.withMemory ms) := by
  obtain ⟨ms, hms⟩ := h.withMemory
  exact ⟨x.1, x.2, ms, rfl, Prod.ext hr.symm hms⟩

@[simp] theorem withMemory_disk (w : World σ) (ms : List (Address × Model)) : (w.withMemory ms).disk = w.disk := rfl

@[simp] theorem withMemory_held (w : World σ) (ms : List (Address × Model)) : (w.withMemory ms).held = w.held := rfl

end World

open World

namespace Session

variable {s : Session σ} {a : Address} {w w' : World σ}

theorem readFile_outside (h : w.Outside w') :
    (s.readFile w).1 = (s.readFile w').1 ∧ (s.readFile w).2.Outside (s.readFile w').2 := by
  obtain ⟨ms, rfl⟩ := h.withMemory
  unfold readFile
  rw [withMemory_disk]
  generalize w.disk.makeDirs s.directory = r
  obtain ⟨answer, d⟩ := r
  cases answer with
  | error f => exact ⟨rfl, rfl⟩
  | ok p =>
    cases s.resolved with
    | error f => exact ⟨rfl, rfl⟩
    | ok l => exact ⟨rfl, rfl⟩

theorem save_outside (h : w.Outside w') (ha : w.model? a = w'.model? a) :
    (s.save a w).1 = (s.save a w').1 ∧ (s.save a w).2.Outside (s.save a w').2 := by
  obtain ⟨ms, rfl⟩ := h.withMemory
  unfold save
  rw [← ha]
  cases w.model? a with
  | none => exact ⟨rfl, h⟩
  | some m =>
    dsimp only
    cases s.draft m with
    | error f => exact ⟨rfl, rfl⟩
    | ok draft =>
      obtain ⟨l, j⟩ := draft
      dsimp only
      cases j.isWritable with
      | false => exact ⟨rfl, rfl⟩
      | true =>
        simp only [if_true, withMemory_disk, withMemory_held]
        generalize StateFile.write w.held l j.bytes? w.disk = r
        obtain ⟨answer, d⟩ := r
        cases answer with
        | ok u => exact ⟨rfl, rfl⟩
        | error f =>
          dsimp only
          split
          · exact ⟨rfl, rfl⟩
          · exact ⟨rfl, rfl⟩

theorem forget_model? {q : Address} (h : w.model? q = w'.model? q) : (w.forget a).model? q = (w'.forget a).model? q := by
  by_cases hq : q = a
  · rw [hq, model?_forget_self, model?_forget_self]
  · rw [model?_forget_ne _ hq, model?_forget_ne _ hq]
    exact h

theorem clear_outside (s : Session σ) (a : Address) (h : w.Outside w') :
    (s.clear a w).1 = (s.clear a w').1 ∧ (s.clear a w).2.Outside (s.clear a w').2 ∧
      ∀ {q}, w.model? q = w'.model? q → (s.clear a w).2.model? q = (s.clear a w').2.model? q := by
  obtain ⟨ms, rfl⟩ := h.withMemory
  unfold clear
  cases s.resolved with
  | error f => exact ⟨rfl, h, id⟩
  | ok l =>
    dsimp only [withMemory_disk, withMemory_held]
    generalize StateFile.delete w.held l w.disk = r
    obtain ⟨answer, d⟩ := r
    cases answer with
    | error f => exact ⟨rfl, rfl, id⟩
    | ok removed =>
      cases removed with
      | false => exact ⟨rfl, rfl, forget_model?⟩
      | true => exact ⟨rfl, rfl, forget_model?⟩

/-! ## Loading -/

variable {A : Address → Prop} (hs : ∀ message, Board.Sees Outside A (s.confirm message))
include hs

theorem resumeAgreed_outside (m : Model) (h : w.Outside w') (hm : ∀ q, A q → w.model? q = w'.model? q) :
    (s.resumeAgreed m w).1 = (s.resumeAgreed m w').1 ∧ (s.resumeAgreed m w).2.Outside (s.resumeAgreed m w').2 := by
  unfold resumeAgreed askResume
  split
  · exact ⟨rfl, h⟩
  · split
    · exact ⟨rfl, h⟩
    · rename_i message _
      obtain ⟨hanswer, hworld⟩ := hs message h hm
      exact ⟨congrArg (Except.map Value.truth) hanswer, hworld⟩

theorem storedModel_outside (h : w.Outside w') (hm : ∀ q, A q → w.model? q = w'.model? q) :
    (s.storedModel w).1 = (s.storedModel w').1 ∧ (s.storedModel w).2.Outside (s.storedModel w').2 := by
  obtain ⟨hfile, hworld⟩ := readFile_outside (s := s) h
  have hmodels : ∀ q, A q → (s.readFile w).2.model? q = (s.readFile w').2.model? q := by
    intro q hq
    rw [readFile_rest s w, readFile_rest s w']
    exact hm q hq
  obtain ⟨answer, w₁, ms, hr, hr'⟩ := hworld.pair hfile
  unfold storedModel
  rw [hr, hr'] at hmodels ⊢
  cases answer with
  | error f => exact ⟨rfl, rfl⟩
  | ok state =>
    cases state with
    | none => exact ⟨rfl, rfl⟩
    | some j =>
      dsimp only
      cases Model.ofState j with
      | error f => exact ⟨rfl, rfl⟩
      | ok m =>
        obtain ⟨hagreed, hworld⟩ := resumeAgreed_outside hs m (outside_withMemory w₁ ms) hmodels
        obtain ⟨answer, w₂, ms', hr, hr'⟩ := hworld.pair hagreed
        dsimp only
        rw [hr, hr']
        cases answer with
        | error f => exact ⟨rfl, rfl⟩
        | ok agreed =>
          cases agreed with
          | true => exact ⟨rfl, rfl⟩
          | false => exact ⟨rfl, rfl⟩

theorem load_outside (h : w.Outside w') (hm : ∀ q, A q → w.model? q = w'.model? q) :
    (s.load a w).1 = (s.load a w').1 ∧ (s.load a w).2.Outside (s.load a w').2 ∧
      ∀ r, (s.load a w).1 = .ok r → (s.load a w).2.model? a = (s.load a w').2.model? a := by
  obtain ⟨hstored, hworld⟩ := storedModel_outside hs h hm
  obtain ⟨answer, w₁, ms, hr, hr'⟩ := hworld.pair hstored
  unfold load
  rw [hr, hr']
  cases answer with
  | ok stored =>
    cases stored with
    | some m => exact ⟨rfl, rfl, fun _ _ => by rw [model?_remember_self, model?_remember_self]⟩
    | none => exact ⟨rfl, rfl, fun _ _ => by rw [model?_remember_self, model?_remember_self]⟩
  | error f =>
    dsimp only
    split
    · exact ⟨rfl, rfl, fun _ _ => by rw [model?_remember_self, model?_remember_self]⟩
    · exact ⟨rfl, rfl, fun _ hr => by cases hr⟩

end Session

namespace Board

/-! ## Runs -/

def Upto (p q : Address) : Prop := q <+: p

def Above (p q : Address) : Prop := q <+: p ∧ q ≠ p

theorem above_snoc (p : Address) (i : Nat) : Above (p ++ [i]) = Upto p := by
  funext q
  refine propext ⟨fun ⟨h, hne⟩ => ?_, fun h => ⟨h.trans (List.prefix_append p [i]), ?_⟩⟩
  · exact (List.prefix_concat_iff.mp h).resolve_left hne
  · rintro rfl
    have := h.length_le
    rw [List.length_append, List.length_singleton] at this
    omega

theorem sees_of_blind {code : Code σ Value} (h : ∀ w ms, code (w.withMemory ms) = code w) (A : Address → Prop) :
    Sees Outside A code := by
  intro w w' hw _
  obtain ⟨ms, rfl⟩ := hw.withMemory
  unfold World.call
  rw [h]
  exact ⟨rfl, rfl⟩

/-- Of what is in memory the code of the boards sees only the journals of boards that run. -/
structure Discreet (b : Board σ) : Prop where
  code : ∀ {p c}, b.Has p c → ∀ f ∈ c.frames, f.AllCode (Sees Outside (Upto p))
  question : ∀ {p c}, b.Has p c → ∀ message, Sees Outside (Above p) (c.session.confirm message)

theorem outside_coupled {b : Board σ} (hb : b.Discreet) {p : Address} {c : Board σ} (hp : b.Has p c) :
    Coupled Eq Outside (Upto p) c p where
  own := List.prefix_refl p
  event _ := rfl
  memory h _ _ := h
  report h e := by
    obtain ⟨ms, rfl⟩ := h.withMemory
    rfl
  code := hb.code hp
  save {w w'} h ha := by
    obtain ⟨hanswer, hworld⟩ := Session.save_outside (s := c.session) h ha
    refine ⟨congrArg Event.saved hanswer, ?_⟩
    obtain ⟨answer, w₁, ms, hr, hr'⟩ := hworld.pair hanswer
    unfold afterSave
    rw [hr, hr']
    cases answer with
    | ok u => rfl
    | error f => rfl

theorem clearEach_lockstep {A : Address → Prop} (es : List (Address × Session σ)) :
    ∀ {g g' : Stage σ}, Lockstep Eq Outside A g g' →
      (clearEach es g.world).1 = (clearEach es g'.world).1 ∧
        Lockstep Eq Outside A (g.withWorld (clearEach es g.world).2) (g'.withWorld (clearEach es g'.world).2) := by
  induction es with
  | nil => exact fun h => ⟨rfl, h⟩
  | cons e es ih =>
    intro g g' h
    obtain ⟨a, s⟩ := e
    obtain ⟨hanswer, hworld, hmodels⟩ := s.clear_outside a h.world
    have hclear := h.withWorld hworld fun q hq => hmodels (h.models q hq)
    obtain ⟨answer, w, ms, hr, hr'⟩ := hworld.pair hanswer
    rw [hr, hr'] at hclear
    unfold clearEach
    rw [hr, hr']
    cases answer with
    | error f => exact ⟨rfl, hclear⟩
    | ok u => exact ih hclear

/-- **A run sees nothing of the memory** but the journals of the boards above. -/
theorem enterBoard_lockstep {b : Board σ} (hb : b.Discreet) (limit : Nat) (c : Board σ) : ∀ {p}, b.Has p c →
    ∀ {ls ls'}, Peers (Above p) ls ls' → ∀ {g g'}, Lockstep Eq Outside (Above p) g g' → ∀ x,
      Together (Lockstep Eq Outside (Above p)) (enterBoard limit p c ls x g) (enterBoard limit p c ls' x g') := by
  induction c using Board.induction with
  | step c ih =>
    intro p hp ls ls' hls g g' h x
    obtain ⟨hload, hworld, hloaded⟩ := Session.load_outside (a := p) (hb.question hp) h.world h.models
    have habove : ∀ q, Above p q → (c.session.load p g.world).2.model? q = (c.session.load p g'.world).2.model? q := by
      intro q hq
      rw [Session.load_model?_ne _ _ hq.2, Session.load_model?_ne _ _ hq.2]
      exact h.models q hq
    have hupto : ∀ r, (c.session.load p g.world).1 = .ok r →
        ∀ q, Upto p q → (c.session.load p g.world).2.model? q = (c.session.load p g'.world).2.model? q := by
      intro r hr q hq
      by_cases hqp : q = p
      · rw [hqp]
        exact hloaded r hr
      · exact habove q ⟨hq, hqp⟩
    rw [enterBoard_eq]
    unfold runWith
    obtain ⟨answer, w, ms, hr, hr'⟩ := hworld.pair hload
    rw [hr, hr'] at habove hupto ⊢
    cases answer with
    | error f => exact ⟨rfl, h.withWorld rfl habove⟩
    | ok loaded =>
      have hpeers : Peers (Upto p) (⟨c, p, w⟩ :: ls) (⟨c, p, w.withMemory ms⟩ :: ls') :=
        .cons ⟨⟨rfl, rfl⟩, List.prefix_refl p⟩ (hls.mono fun _ hq => hq.1)
      have hbelow : ∀ enter ∈ enterFrames limit p 0 c.frames, ∀ {g g'}, Lockstep Eq Outside (Upto p) g g' → ∀ x,
          Together (Lockstep Eq Outside (Upto p)) (enter (⟨c, p, w⟩ :: ls) x g)
            (enter (⟨c, p, w.withMemory ms⟩ :: ls') x g') := by
        intro enter henter g₁ g₁' h₁ x₁
        rcases mem_enterFrames henter with ⟨i, d, condition, provider, hf, rfl⟩ | rfl
        · rw [← above_snoc p i] at hpeers h₁ ⊢
          exact ih i d condition provider hf (hp.snoc hf) hpeers h₁ x₁
        · exact ⟨rfl, h₁⟩
      have hstage : Lockstep Eq Outside (Upto p) (g.withWorld w) (g'.withWorld (w.withMemory ms)) :=
        ⟨rfl, hupto loaded rfl, h.trace⟩
      have hwalk := (outside_coupled hb hp).walk hpeers hbelow (B := Above p) (fun _ hq => hq.1)
        (fun h => (clearEach_lockstep _ h).imp id (·.mono fun _ hq => hq.1)) limit (givenContext x) hstage
      dsimp only
      split
      · exact ⟨rfl, h.withWorld rfl habove⟩
      · exact hwalk

/-! ## Runs one after the other -/

/-- A run with what happens before it, to the files, the locks and what the code keeps for itself. -/
structure Visit (σ : Type) where
  arrange : World σ → World σ
  arranges : ∀ {w w'}, Outside w w' → Outside (arrange w) (arrange w')
  limit : Nat
  context : Value

/-- The runs one after the other, each after a change to the world. -/
def visits (b : Board σ) (renew : World σ → World σ) : List (Visit σ) → World σ → List (Ending × Stage σ)
  | [], _ => []
  | v :: vs, w =>
    let r := enterBoard v.limit [] b [] v.context ⟨renew (v.arrange w), []⟩
    r :: visits b renew vs r.2.world

/-- **No journal that is left in memory reaches a later run**: runs with the memory that the earlier ones leave end as
runs that start without any, after the same events, and leave the same files behind. -/
theorem visits_cleared {b : Board σ} (hb : b.Discreet) (vs : List (Visit σ)) (w : World σ) :
    List.Forall₂ (fun r r' => r.1 = r'.1 ∧ r.2.world.Outside r'.2.world ∧
      List.Forall₂ (Moment.Alike Eq Outside) r.2.trace r'.2.trace)
      (b.visits id vs w) (b.visits (·.withMemory []) vs w) := by
  suffices h : ∀ vs {w w' : World σ}, w.Outside w' → List.Forall₂ (fun r r' => r.1 = r'.1 ∧
      r.2.world.Outside r'.2.world ∧ List.Forall₂ (Moment.Alike Eq Outside) r.2.trace r'.2.trace)
      (b.visits id vs w) (b.visits (·.withMemory []) vs w') from h vs rfl
  intro vs
  induction vs with
  | nil => exact fun _ => .nil
  | cons v vs ih =>
    intro w w' h
    have hstart : Lockstep Eq Outside (Above []) ⟨v.arrange w, []⟩ ⟨(v.arrange w').withMemory [], []⟩ :=
      ⟨v.arranges h, fun q hq => absurd (List.prefix_nil.mp hq.1) hq.2, .nil⟩
    obtain ⟨hending, hend⟩ := enterBoard_lockstep hb v.limit b (.here b) .nil hstart v.context
    exact .cons ⟨hending, hend.world, hend.trace⟩ (ih hend.world)

theorem whole_discreet : whole.Discreet where
  code hp := by
    rcases whole_has hp with ⟨rfl, rfl⟩ | ⟨rfl, rfl⟩
    · simp [whole, Frame.AllCode]
    · have : ∀ A, Sees Outside A twice := sees_of_blind fun _ _ => rfl
      simp [part, Frame.AllCode, this]
  question hp := by
    rcases whole_has hp with ⟨rfl, rfl⟩ | ⟨rfl, rfl⟩
    · exact fun _ => sees_of_blind (fun _ _ => rfl) _
    · exact fun _ => sees_of_blind (fun _ _ => rfl) _

def again : Visit Nat := ⟨id, id, 9, .null⟩

/-- The first run raises a fault and leaves the journals of both boards in memory. -/
theorem whole_cleared :
    (whole.visits id [again] (.blank 0)).map (fun r => (r.1.isRaised, r.2.world.memory.length)) = [(true, 2)] ∧
    List.Forall₂ (fun r r' => r.1 = r'.1 ∧ r.2.world.Outside r'.2.world ∧
      List.Forall₂ (Moment.Alike Eq Outside) r.2.trace r'.2.trace)
      (whole.visits id [again, again, again] (.blank 0))
      (whole.visits (·.withMemory []) [again, again, again] (.blank 0)) :=
  ⟨by decide +kernel, visits_cleared whole_discreet [again, again, again] (.blank 0)⟩

end Board

end Boardwalk
