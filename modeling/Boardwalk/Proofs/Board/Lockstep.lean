import Boardwalk.Proofs.Board.Course
import Mathlib.Data.List.Forall2
/-!
# Runs in lockstep

Two runs of a board whose worlds differ stay in lockstep if what they differ in reaches neither the journals that they
work on nor the code of the board: they take the same steps to the same end (`Coupled.steps`, `Coupled.walk`). What
the worlds have in common is a relation, and so is what the events have in common; the journals of some addresses are
the same.
-/

namespace Boardwalk

variable {σ : Type}

/-- The same happens in both runs: to the same boards, in worlds that are alike and with the same journals. -/
structure Moment.Alike (S : Event → Event → Prop) (W : World σ → World σ → Prop) (m m' : Moment σ) : Prop where
  event : S m.event m'.event
  levels : List.Forall₂ (fun L L' => L.board = L'.board ∧ L.address = L'.address) m.levels m'.levels
  world : W m.world m'.world
  models : ∀ L ∈ m.levels, m.world.model? L.address = m'.world.model? L.address

theorem Frame.AllCode.condition {P : Code σ Value → Prop} {f : Frame σ} {c : Condition σ} (h : f.AllCode P)
    (hc : f.condition? = some c) (v : View) : P (c v) := by
  cases f with
  | work => exact h.1 c hc v
  | stop => cases hc
  | jump => exact h c hc v
  | story => exact h.1 c hc v

theorem Frame.AllCode.provider {P : Code σ Value → Prop} {f : Frame σ} {p : Provider σ} (h : f.AllCode P)
    (hp : f.provider? = some p) (v : View) (x : Value) : P (p v x) := by
  cases f with
  | work => exact h.2.1 p hp v x
  | stop => cases hp
  | jump => cases hp
  | story => exact h.2 p hp v x

namespace Board

/-- Code that answers the same in worlds that are alike and have the same journals, and leaves them alike. -/
def Sees (W : World σ → World σ → Prop) (A : Address → Prop) (code : Code σ Value) : Prop :=
  ∀ {w w'}, W w w' → (∀ q, A q → w.model? q = w'.model? q) →
    (code w).1 = (code w').1 ∧ W (w.call code).2 (w'.call code).2

structure Lockstep (S : Event → Event → Prop) (W : World σ → World σ → Prop) (A : Address → Prop)
    (g g' : Stage σ) : Prop where
  world : W g.world g'.world
  models : ∀ q, A q → g.world.model? q = g'.world.model? q
  trace : List.Forall₂ (Moment.Alike S W) g.trace g'.trace

def Peers (A : Address → Prop) : List (Level σ) → List (Level σ) → Prop :=
  List.Forall₂ fun L L' => (L.board = L'.board ∧ L.address = L'.address) ∧ A L.address

def Together {α : Type} (R : Stage σ → Stage σ → Prop) (x x' : α × Stage σ) : Prop := x.1 = x'.1 ∧ R x.2 x'.2

theorem Together.pair {α : Type} {R : Stage σ → Stage σ → Prop} {x x' : α × Stage σ} (h : Together R x x') :
    ∃ r g g', x = (r, g) ∧ x' = (r, g') ∧ R g g' :=
  ⟨x.1, x.2, x'.2, rfl, Prod.ext h.1.symm rfl, h.2⟩

def afterSave (b : Board σ) (a : Address) (w : World σ) : World σ :=
  match b.session.save a w with
  | (.ok _, w) => w
  | (.error f, w) => w.report (Log.entry Log.warning Log.Logger.board
      (Session.failureText "Progress not persisted" f)
      [("storyboard", .str b.name), ("session", .str b.session.name)])

structure Coupled (S : Event → Event → Prop) (W : World σ → World σ → Prop) (A : Address → Prop) (b : Board σ)
    (a : Address) : Prop where
  own : A a
  event : ∀ e, S e e
  memory : ∀ {w w'}, W w w' → ∀ ms ms', W { w with memory := ms } { w' with memory := ms' }
  report : ∀ {w w'}, W w w' → ∀ e, W (w.report e) (w'.report e)
  code : ∀ f ∈ b.frames, f.AllCode (Sees W A)
  save : ∀ {w w'}, W w w' → w.model? a = w'.model? a →
    S (.saved (b.session.save a w).1) (.saved (b.session.save a w').1) ∧ W (b.afterSave a w) (b.afterSave a w')

theorem persist_eq (b : Board σ) (ls : List (Level σ)) (a : Address) (g : Stage σ) :
    b.persist ls a g = (g.note ls (.saved (b.session.save a g.world).1)).withWorld (b.afterSave a g.world) := by
  unfold persist afterSave
  cases b.session.save a g.world with
  | mk answer w =>
    cases answer with
    | ok u => rfl
    | error f => rfl

theorem afterSave_model? (b : Board σ) (a : Address) (w : World σ) (q : Address) :
    (b.afterSave a w).model? q = w.model? q := by
  have h := (Session.save_rest b.session a w).1
  unfold afterSave World.model?
  split
  all_goals
    rename_i hs
    rw [hs] at h
  · rw [h]
  · rw [World.report_memory, h]

section

variable {S : Event → Event → Prop} {W : World σ → World σ → Prop} {A : Address → Prop} {ls ls' : List (Level σ)}
  {g g' : Stage σ}

theorem Peers.levels (h : Peers A ls ls') :
    List.Forall₂ (fun L L' : Level σ => L.board = L'.board ∧ L.address = L'.address) ls ls' :=
  h.imp fun _ _ h => h.1

theorem Peers.address (h : Peers A ls ls') : ∀ L ∈ ls, A L.address := by
  induction h with
  | nil => exact fun L hL => absurd hL List.not_mem_nil
  | cons h _ ih =>
    intro L hL
    rcases List.mem_cons.mp hL with rfl | hL
    · exact h.2
    · exact ih L hL

/-- An event is told late, with the world in which it began. -/
theorem Lockstep.record {g₀ g₀' : Stage σ} (h : Lockstep S W A g g') (h₀ : Lockstep S W A g₀ g₀')
    (hls : Peers A ls ls') {e e' : Event} (he : S e e') :
    Lockstep S W A (g.record ⟨ls, e, g₀.world⟩) (g'.record ⟨ls', e', g₀'.world⟩) :=
  ⟨h.world, h.models, .cons ⟨he, hls.levels, h₀.world, fun L hL => h₀.models _ (hls.address L hL)⟩ h.trace⟩

theorem Lockstep.withWorld {w w' : World σ} (h : Lockstep S W A g g') (hw : W w w')
    (hm : ∀ q, A q → w.model? q = w'.model? q) : Lockstep S W A (g.withWorld w) (g'.withWorld w') :=
  ⟨hw, hm, h.trace⟩

theorem Lockstep.mono {B : Address → Prop} (h : Lockstep S W A g g') (hB : ∀ q, B q → A q) : Lockstep S W B g g' :=
  ⟨h.world, fun q hq => h.models q (hB q hq), h.trace⟩

theorem Peers.mono {B : Address → Prop} (h : Peers B ls ls') (hB : ∀ q, B q → A q) : Peers A ls ls' :=
  h.imp fun _ _ h => ⟨h.1, hB _ h.2⟩

variable {b : Board σ} {a : Address} (hc : Coupled S W A b a)
include hc

theorem Coupled.journal (h : Lockstep S W A g g') : g.world.journal a = g'.world.journal a := by
  unfold World.journal
  rw [h.models a hc.own]

theorem Coupled.tell (h : Lockstep S W A g g') (level : Nat) (message : String) (extras : List (String × Value)) :
    Lockstep S W A (b.report level message extras g) (b.report level message extras g') :=
  h.withWorld (hc.report h.world _) h.models

theorem Coupled.withJournal (h : Lockstep S W A g g') (t : Timeline) :
    Lockstep S W A (g.withWorld (g.world.withJournal a t)) (g'.withWorld (g'.world.withJournal a t)) := by
  have ha := h.models a hc.own
  unfold World.withJournal
  rw [ha]
  cases g'.world.model? a with
  | none => exact h
  | some m =>
    refine h.withWorld (hc.memory h.world _ _) fun q hq => ?_
    by_cases hqa : q = a
    · rw [hqa, World.model?_remember_self, World.model?_remember_self]
    · rw [World.model?_remember_ne _ _ hqa, World.model?_remember_ne _ _ hqa]
      exact h.models q hq

theorem Coupled.add (h : Lockstep S W A g g') (name kind : String) (frameIndex : Int) (output : Value)
    (completed : Bool) :
    Lockstep S W A (g.withWorld (add a name kind frameIndex output completed g.world))
      (g'.withWorld (Board.add a name kind frameIndex output completed g'.world)) := by
  have hj := hc.withJournal h
    (g.world.journal a ++ [(g.world.journal a).entry name kind frameIndex output completed])
  unfold Board.add World.append
  rw [← hc.journal h]
  exact hj.withWorld (hc.report hj.world _) hj.models

theorem Coupled.addSkipped (h : Lockstep S W A g g') (is : List Int) :
    Lockstep S W A (g.withWorld (is.foldl (b.addSkipped a) g.world))
      (g'.withWorld (is.foldl (b.addSkipped a) g'.world)) := by
  induction is generalizing g g' with
  | nil => exact h
  | cons i is ih => exact ih (hc.add h _ _ _ _ _)

variable (hls : Peers A ls ls')
include hls

theorem Coupled.persist (h : Lockstep S W A g g') : Lockstep S W A (b.persist ls a g) (b.persist ls' a g') := by
  obtain ⟨hevent, hworld⟩ := hc.save h.world (h.models a hc.own)
  rw [persist_eq, persist_eq]
  refine (h.record h hls hevent).withWorld hworld fun q hq => ?_
  rw [afterSave_model?, afterSave_model?]
  exact h.models q hq

theorem Coupled.complete (h : Lockstep S W A g g') (s : Spot σ) (kind : String) (output : Value) :
    Lockstep S W A (b.complete ls a s kind output g) (b.complete ls' a s kind output g') :=
  hc.persist hls (hc.add h _ _ _ _ _)

theorem Coupled.evaluate (h : Lockstep S W A g g') {code : Code σ Value} (hcode : Sees W A code) (position : Nat)
    (role : Role) : Together (Lockstep S W A) (g.call ls position role code) (g'.call ls' position role code) := by
  obtain ⟨hanswer, hworld⟩ := hcode h.world h.models
  refine ⟨hanswer, ?_⟩
  have hevent : S (.evaluated position role (code g.world).1) (.evaluated position role (code g'.world).1) := by
    rw [hanswer]
    exact hc.event _
  exact (h.record h hls hevent).withWorld hworld h.models

/-! ## Steps -/

theorem Coupled.taken {s : Spot σ} (hs : s.frame.AllCode (Sees W A)) (v : View) (h : Lockstep S W A g g') :
    Together (Lockstep S W A) (taken ls s v g) (Board.taken ls' s v g') := by
  unfold Board.taken
  cases hcondition : s.frame.condition? with
  | none => exact ⟨rfl, h⟩
  | some c =>
    have hcall := hc.evaluate hls h (hs.condition hcondition v) s.position .condition
    exact ⟨congrArg (Except.map Value.truth) hcall.1, hcall.2⟩

theorem Coupled.contextOf {f : Frame σ} (hf : f.AllCode (Sees W A)) (i : Nat) (v : View) (x : Value)
    (h : Lockstep S W A g g') :
    Together (Lockstep S W A) (contextOf ls i f.provider? v x g) (Board.contextOf ls' i f.provider? v x g') := by
  unfold Board.contextOf
  cases hprovider : f.provider? with
  | none => exact ⟨rfl, h⟩
  | some p => exact hc.evaluate hls h (hf.provider hprovider v x) i .provider

variable (s : Spot σ)

theorem Coupled.skip (h : Lockstep S W A g g') :
    Together (Lockstep S W A) (b.skip ls a s g) (b.skip ls' a s g') :=
  ⟨rfl, hc.complete hls (hc.tell h _ _ _) s _ _⟩

theorem Coupled.work {kind : WorkKind} {name : String} {condition : Option (Condition σ)}
    {provider : Option (Provider σ)} {action : Action σ}
    (hf : (Frame.work kind name condition provider action).AllCode (Sees W A)) (v : View) (x : Value)
    (h : Lockstep S W A g g') :
    Together (Lockstep S W A) (b.work ls a s provider action v x g) (b.work ls' a s provider action v x g') := by
  obtain ⟨answer, g₁, g₁', hr, hr', h₁⟩ := (hc.contextOf hls hf s.position v x h).pair
  unfold Board.work
  simp only [Frame.provider?] at hr hr'
  rw [hr, hr']
  cases answer with
  | error f => exact ⟨rfl, h₁⟩
  | ok context =>
    obtain ⟨answer, g₂, g₂', hr, hr', h₂⟩ := (hc.evaluate hls h₁ (hf.2.2 context) s.position .action).pair
    dsimp only
    rw [hr, hr']
    cases answer with
    | error f => exact ⟨rfl, h₂⟩
    | ok output => exact ⟨rfl, hc.complete hls h₂ s _ _⟩

theorem Coupled.stop {given : Option String} {condition : Condition σ}
    (hf : (Frame.stop given condition).AllCode (Sees W A)) (v : View) (h : Lockstep S W A g g') :
    Together (Lockstep S W A) (b.stop ls a s condition v g) (b.stop ls' a s condition v g') := by
  obtain ⟨answer, g₁, g₁', hr, hr', h₁⟩ := (hc.evaluate hls h (hf v) s.position .predicate).pair
  unfold Board.stop holds
  rw [hr, hr']
  cases answer with
  | error f => exact ⟨rfl, h₁⟩
  | ok x =>
    have hcomplete := hc.complete hls h₁ s s.kind (.bool x.truth)
    dsimp only [Except.map]
    split
    · exact ⟨rfl, hc.tell hcomplete _ _ _⟩
    · exact ⟨rfl, hcomplete⟩

theorem Coupled.jump (target : Target) (h : Lockstep S W A g g') :
    Together (Lockstep S W A) (b.jump ls a s target g) (b.jump ls' a s target g') := by
  have hadd := hc.add h s.name s.kind s.position (.int s.cursor) true
  unfold Board.jump
  cases b.jumpTarget target with
  | error f => exact ⟨rfl, hadd⟩
  | ok t => exact ⟨rfl, hc.tell (hc.persist hls (hc.addSkipped hadd (between s.cursor t))) _ _ _⟩

theorem Coupled.conclude (output : Json) (h : Lockstep S W A g g') :
    Together (Lockstep S W A) (b.conclude ls a output g) (b.conclude ls' a output g') := by
  unfold Board.conclude
  rw [← hc.journal h]
  cases (g.world.journal a).getLast? with
  | none => exact ⟨rfl, h⟩
  | some r =>
    dsimp only
    cases (g.world.journal a).update (Timeline.editOfRecord
      { r with output := Value.ofJson output, completed := .bool true }) with
    | error f => exact ⟨rfl, h⟩
    | ok t => exact ⟨rfl, hc.persist hls (hc.withJournal h _)⟩

theorem Coupled.story {enter : Enter σ}
    (he : ∀ {g g'}, Lockstep S W A g g' → ∀ x, Together (Lockstep S W A) (enter ls x g) (enter ls' x g'))
    {f : Frame σ} (hf : f.AllCode (Sees W A)) (v : View) (x : Value) (h : Lockstep S W A g g') :
    Together (Lockstep S W A) (b.story ls a s enter f.provider? v x g) (b.story ls' a s enter f.provider? v x g') := by
  obtain ⟨answer, g₁, g₁', hr, hr', h₁⟩ := (hc.contextOf hls hf s.position v x h).pair
  unfold Board.story
  rw [hr, hr']
  cases answer with
  | error f => exact ⟨rfl, h₁⟩
  | ok context =>
    have hpersist := hc.persist hls (hc.add h₁ s.name s.kind s.position (.dict []) false)
    obtain ⟨ending, g₂, g₂', hr, hr', h₂⟩ :=
      (he (hpersist.record hpersist hls (hc.event (.entered s.position))) context).pair
    dsimp only [Stage.note]
    rw [hr, hr']
    cases ending with
    | raised f => exact ⟨rfl, h₂⟩
    | unfinished => exact ⟨rfl, h₂⟩
    | failure f => exact ⟨rfl, h₂⟩
    | success o =>
      dsimp only
      cases o.toValue.normal with
      | error f => exact ⟨rfl, h₂⟩
      | ok output => exact hc.conclude hls output h₂

omit s

variable {enters : List (Enter σ)} (he : ∀ enter ∈ enters, ∀ {g g'}, Lockstep S W A g g' →
  ∀ x, Together (Lockstep S W A) (enter ls x g) (enter ls' x g'))
include he

theorem Coupled.turn (x : Value) (cursor : Int) (h : Lockstep S W A g g') :
    Together (Lockstep S W A) (b.turn enters ls a x cursor g) (b.turn enters ls' a x cursor g') := by
  unfold Board.turn
  cases hspot : b.spot? cursor with
  | none => exact ⟨rfl, h⟩
  | some s =>
    have hf : s.frame.AllCode (Sees W A) := hc.code _ (List.mem_of_getElem? (spot?_some hspot).1)
    obtain ⟨answer, g₁, g₁', hr, hr', h₁⟩ := (hc.taken hls hf ⟨g.world.journal a, cursor⟩ h).pair
    dsimp only
    rw [← hc.journal h, hr, hr']
    cases answer with
    | error f => exact ⟨rfl, h₁⟩
    | ok taken =>
      cases taken with
      | false => exact hc.skip hls s h₁
      | true =>
        cases hframe : s.frame with
        | work kind name condition provider action => exact hc.work hls s (hframe ▸ hf) _ x h₁
        | stop given condition => exact hc.stop hls s (hframe ▸ hf) _ h₁
        | jump target condition => exact hc.jump hls s target h₁
        | story c condition provider =>
          dsimp only
          cases henter : enters[s.position]? with
          | none => exact ⟨rfl, h₁⟩
          | some enter =>
            have hstory := hc.story hls s (he enter (List.mem_of_getElem? henter)) (hframe ▸ hf)
              ⟨g.world.journal a, cursor⟩ x h₁
            exact ⟨congrArg Turn.halt hstory.1, hstory.2⟩

/-- **Runs in lockstep take the same steps.** -/
theorem Coupled.steps (x : Value) (limit : Nat) (cursor : Int) (h : Lockstep S W A g g') :
    Together (Lockstep S W A) (b.steps enters ls a x limit cursor g) (b.steps enters ls' a x limit cursor g') := by
  induction limit generalizing cursor g g' with
  | zero =>
    unfold Board.steps
    split
    · exact ⟨rfl, h⟩
    · exact ⟨rfl, h⟩
  | succ limit ih =>
    unfold Board.steps
    split
    · exact ⟨rfl, h⟩
    · obtain ⟨turn, g₁, g₁', hr, hr', h₁⟩ := (hc.turn hls he x cursor h).pair
      dsimp only
      rw [hr, hr']
      have hrecord := h₁.record h hls (hc.event (.turned cursor turn))
      cases turn with
      | halt halt => exact ⟨rfl, hrecord⟩
      | next next => exact ih next hrecord

/-! ## Runs -/

omit he

variable {B : Address → Prop} (hB : ∀ q, B q → A q)
  (hclear : ∀ {g g'}, Lockstep S W A g g' → (b.clearAll a g.world).1 = (b.clearAll a g'.world).1 ∧
    Lockstep S W B (g.withWorld (b.clearAll a g.world).2) (g'.withWorld (b.clearAll a g'.world).2))
include hB hclear

theorem Coupled.finish (h : Lockstep S W A g g') :
    Together (Lockstep S W B) (b.finish ls a g) (b.finish ls' a g') := by
  have hnote := h.record h hls (hc.event .finished)
  obtain ⟨hanswer, hcleared⟩ := hclear hnote
  have hjournal := hc.journal h
  unfold Board.finish
  dsimp only [Stage.note_world]
  rw [← hjournal]
  cases b.resolve (g.world.journal a) with
  | error f => exact ⟨rfl, (hc.tell hnote _ _ _).mono hB⟩
  | ok o =>
    dsimp only [Stage.record_world] at hanswer hcleared ⊢
    generalize b.clearAll a g.world = r at hanswer hcleared
    generalize b.clearAll a g'.world = r' at hanswer hcleared
    obtain ⟨answer, w⟩ := r
    obtain ⟨answer', w'⟩ := r'
    obtain rfl : answer = answer' := hanswer
    cases answer with
    | error f => exact ⟨rfl, hcleared⟩
    | ok u => exact ⟨rfl, hcleared.withWorld (hc.report hcleared.world _) hcleared.models⟩

include he in
theorem Coupled.walk (limit : Nat) (x : Value) (h : Lockstep S W A g g') :
    Together (Lockstep S W B) (b.walk enters limit ls a x g) (b.walk enters limit ls' a x g') := by
  have hjournal := hc.journal h
  have hopened : Lockstep S W A (b.opened ls a g) (b.opened ls' a g') := by
    unfold opened
    rw [← hjournal]
    exact hc.tell (h.record h hls (hc.event _)) _ _ _
  obtain ⟨halt, g₁, g₁', hr, hr', h₁⟩ := (hc.steps hls he x limit (g.world.journal a).cursor hopened).pair
  rw [walk_eq, walk_eq, ← hjournal, hr, hr']
  cases halt with
  | raised f => exact ⟨rfl, h₁.mono hB⟩
  | unfinished => exact ⟨rfl, h₁.mono hB⟩
  | ended => exact hc.finish hls hB hclear h₁

end

end Board

end Boardwalk
