import Boardwalk.Proofs.Board.Tree
/-!
# What a run is made of

A run only records moments, writes to the log, calls the code of its boards, changes their journals and saves,
loads and clears their sessions. A relation that goes along with each of these goes along with every run
(`Closed.enterBoard`).
-/

namespace Boardwalk

/-- A step records what it evaluates, enters and saves. That it is over is recorded behind it. -/
def Event.isWithin : Event → Bool
  | .evaluated .. => true
  | .entered _ => true
  | .saved _ => true
  | _ => false

namespace Board

variable {σ : Type}

/-- A relation that goes along with recording and logging. -/
structure Closed (R : Stage σ → Stage σ → Prop) : Prop where
  refl : ∀ g, R g g
  trans : ∀ {g g' g''}, R g g' → R g' g'' → R g g''
  record : ∀ g m, R g (g.record m)
  report : ∀ g e, R g (g.withWorld (g.world.report e))

/-- A relation that goes along with recording what happens on some levels, and with logging. An event may be recorded
late, with the world of the stage in which it began. -/
structure ClosedOn (A : List (Level σ) → Prop) (R : Stage σ → Stage σ → Prop) : Prop where
  refl : ∀ g, R g g
  trans : ∀ {g g' g''}, R g g' → R g' g'' → R g g''
  record : ∀ {g g'}, R g g' → ∀ {ls}, A ls → ∀ e, R g (g'.record ⟨ls, e, g.world⟩)
  report : ∀ g e, R g (g.withWorld (g.world.report e))

/-- A relation that goes along with logging, and with recording what happens on some levels within a step. -/
structure ClosedWithin (A : List (Level σ) → Prop) (R : Stage σ → Stage σ → Prop) : Prop where
  refl : ∀ g, R g g
  trans : ∀ {g g' g''}, R g g' → R g' g'' → R g g''
  note : ∀ g {ls}, A ls → ∀ {e}, Event.isWithin e = true → R g (g.note ls e)
  report : ∀ g e, R g (g.withWorld (g.world.report e))

theorem Closed.on {R : Stage σ → Stage σ → Prop} (h : Closed R) : ClosedOn (fun _ => True) R where
  refl := h.refl
  trans := h.trans
  record hg _ _ _ := h.trans hg (h.record _ _)
  report := h.report

structure ClosedAt (R : Stage σ → Stage σ → Prop) (b : Board σ) (a : Address) : Prop where
  call : ∀ {code}, b.Calls code → ∀ g, R g (g.withWorld (g.world.call code).2)
  journal : ∀ t g, R g (g.withWorld (g.world.withJournal a t))
  save : ∀ g, R g (g.withWorld (b.session.save a g.world).2)
  load : ∀ g, R g (g.withWorld (b.session.load a g.world).2)
  clear : ∀ g, R g (g.withWorld (b.session.clear a g.world).2)

theorem ClosedOn.note {A : List (Level σ) → Prop} {R : Stage σ → Stage σ → Prop} (hR : ClosedOn A R) (g : Stage σ)
    {ls : List (Level σ)} (hls : A ls) (e : Event) : R g (g.note ls e) :=
  hR.record (hR.refl g) hls e

theorem ClosedOn.within {A : List (Level σ) → Prop} {R : Stage σ → Stage σ → Prop} (hR : ClosedOn A R) :
    ClosedWithin A R where
  refl := hR.refl
  trans := hR.trans
  note g _ hls e _ := hR.note g hls e
  report := hR.report

/-! ## Within a step -/

/-- A relation that goes along with what the steps of a board on some levels are made of. A save counts as one part,
with the moment that tells of it. -/
structure Advances (R : Stage σ → Stage σ → Prop) (b : Board σ) (ls : List (Level σ)) (a : Address) : Prop where
  refl : ∀ g, R g g
  trans : ∀ {g g' g''}, R g g' → R g' g'' → R g g''
  report : ∀ g e, R g (g.withWorld (g.world.report e))
  evaluate : ∀ {code}, b.Calls code → ∀ g position role, R g (g.call ls position role code).2
  enter : ∀ g position, R g (g.note ls (.entered position))
  journal : ∀ t g, R g (g.withWorld (g.world.withJournal a t))
  persist : ∀ g, R g (b.persist ls a g)

theorem ClosedAt.advances {A : List (Level σ) → Prop} {R : Stage σ → Stage σ → Prop} (hR : ClosedWithin A R)
    {b : Board σ} {a : Address} (hb : ClosedAt R b a) {ls : List (Level σ)} (hls : A ls) : Advances R b ls a where
  refl := hR.refl
  trans := hR.trans
  report := hR.report
  evaluate hc g _ _ := hR.trans (hR.note g hls rfl) (hb.call hc _)
  enter g _ := hR.note g hls rfl
  journal := hb.journal
  persist g := by
    unfold Board.persist
    split
    · rename_i w h
      have hs := hb.save (g.note ls (.saved (.ok ())))
      rw [Stage.note_world, h] at hs
      exact hR.trans (hR.note g hls rfl) hs
    · rename_i f w h
      have hs := hb.save (g.note ls (.saved (.error f)))
      rw [Stage.note_world, h] at hs
      exact hR.trans (hR.trans (hR.note g hls rfl) hs) (hR.report ((g.note ls _).withWorld w) _)

section

variable {R : Stage σ → Stage σ → Prop} {b : Board σ} {ls : List (Level σ)} {a : Address} (h : Advances R b ls a)
include h

theorem Advances.tell (level : Nat) (message : String) (extras : List (String × Value)) (g : Stage σ) :
    R g (b.report level message extras g) :=
  h.report g _

theorem Advances.add (name kind : String) (frameIndex : Int) (output : Value) (completed : Bool) (g : Stage σ) :
    R g (g.withWorld (add a name kind frameIndex output completed g.world)) :=
  h.trans (h.journal _ g) (h.report (g.withWorld _) _)

theorem Advances.addSkipped (is : List Int) (g : Stage σ) :
    R g (g.withWorld (is.foldl (b.addSkipped a) g.world)) := by
  induction is generalizing g with
  | nil => exact h.refl g
  | cons i is ih =>
    have hi := ih (g.withWorld (b.addSkipped a g.world i))
    exact h.trans (h.add _ _ _ _ _ g) hi

theorem Advances.complete (s : Spot σ) (kind : String) (output : Value) (g : Stage σ) :
    R g (b.complete ls a s kind output g) :=
  h.trans (h.add _ _ _ _ _ g) (h.persist _)

theorem Advances.taken {s : Spot σ} (hs : b.frames[s.position]? = some s.frame) (v : View) (g : Stage σ) :
    R g (taken ls s v g).2 := by
  unfold Board.taken
  cases hc : s.frame.condition? with
  | some c => exact h.evaluate (.condition v hs hc) g _ _
  | none => exact h.refl g

theorem Advances.contextOf {i : Nat} {f : Frame σ} (hf : b.frames[i]? = some f) (v : View) (context : Value)
    (g : Stage σ) : R g (contextOf ls i f.provider? v context g).2 := by
  unfold Board.contextOf
  cases hp : f.provider? with
  | some p => exact h.evaluate (.provider v context hf hp) g _ _
  | none => exact h.refl g

theorem Advances.skip (s : Spot σ) (g : Stage σ) : R g (b.skip ls a s g).2 :=
  h.trans (h.tell _ _ _ g) (h.complete s _ _ _)

theorem Advances.work {s : Spot σ} {kind : WorkKind} {name : String} {condition : Option (Condition σ)}
    {provider : Option (Provider σ)} {action : Action σ}
    (hs : b.frames[s.position]? = some (.work kind name condition provider action))
    (v : View) (context : Value) (g : Stage σ) : R g (b.work ls a s provider action v context g).2 := by
  have hc := h.contextOf hs v context g
  unfold Board.work
  simp only [Frame.provider?] at hc
  split
  · rename_i hx
    rw [hx] at hc
    exact hc
  · rename_i x g₁ hx
    rw [hx] at hc
    have he := h.evaluate (.action x hs) g₁ s.position .action
    split
    · rename_i hy
      rw [hy] at he
      exact h.trans hc he
    · rename_i hy
      rw [hy] at he
      exact h.trans (h.trans hc he) (h.complete s _ _ _)

theorem Advances.stop {s : Spot σ} {given : Option String} {condition : Condition σ}
    (hs : b.frames[s.position]? = some (.stop given condition)) (v : View) (g : Stage σ) :
    R g (b.stop ls a s condition v g).2 := by
  have he := h.evaluate (.predicate v hs) g s.position .predicate
  unfold Board.stop holds
  cases hc : g.call ls s.position .predicate (condition v) with
  | mk answer g₁ =>
    rw [hc] at he
    cases answer with
    | error f => exact he
    | ok x =>
      have hd := h.trans he (h.complete s s.kind (.bool x.truth) g₁)
      simp only [Except.map]
      split
      · exact h.trans hd (h.tell _ _ _ _)
      · exact hd

theorem Advances.jump (s : Spot σ) (target : Target) (g : Stage σ) : R g (b.jump ls a s target g).2 := by
  have ha := h.add s.name s.kind s.position (.int s.cursor) true g
  unfold Board.jump
  split
  · exact ha
  · rename_i t _
    have hf := h.addSkipped (between s.cursor t) (g.withWorld
      (Board.add a s.name s.kind s.position (.int s.cursor) true g.world))
    have hp := h.trans (h.trans ha hf) (h.persist _)
    exact h.trans hp (h.tell _ _ _ _)

theorem Advances.conclude (output : Json) (g : Stage σ) : R g (b.conclude ls a output g).2 := by
  unfold Board.conclude
  split
  · exact h.refl g
  · dsimp only
    split
    · exact h.refl g
    · exact h.trans (h.journal _ g) (h.persist _)

theorem Advances.story {s : Spot σ} {f : Frame σ} (hs : b.frames[s.position]? = some f)
    {enter : Enter σ} (he : ∀ x g, R g (enter ls x g).2) (v : View) (context : Value)
    (g : Stage σ) : R g (b.story ls a s enter f.provider? v context g).2 := by
  have hc := h.contextOf hs v context g
  unfold Board.story
  split
  · rename_i hx
    rw [hx] at hc
    exact hc
  · rename_i x g₁ hx
    rw [hx] at hc
    have ha := h.trans hc (h.add s.name s.kind s.position (.dict []) false g₁)
    have hp := h.trans ha (h.persist _)
    dsimp only
    generalize b.persist ls a _ = g₂ at hp ⊢
    have hn := h.trans (h.trans hp (h.enter g₂ s.position)) (he x _)
    split
    all_goals
      rename_i hr
      rw [hr] at hn
    · exact hn
    · exact hn
    · exact hn
    · split
      · exact hn
      · exact h.trans hn (h.conclude _ _)

variable {enters : List (Enter σ)} (he : ∀ enter ∈ enters, ∀ x g, R g (enter ls x g).2)
include he

theorem Advances.turn (context : Value) (cursor : Int) (g : Stage σ) : R g (b.turn enters ls a context cursor g).2 := by
  unfold Board.turn
  split
  · exact h.refl g
  · rename_i s hspot
    obtain ⟨hs, -, -⟩ := spot?_some hspot
    have ht := h.taken hs ⟨g.world.journal a, cursor⟩ g
    dsimp only
    split
    · rename_i hy
      rw [hy] at ht
      exact ht
    · rename_i hy
      rw [hy] at ht
      exact h.trans ht (h.skip s _)
    · rename_i hy
      rw [hy] at ht
      cases hf : s.frame with
      | work kind name condition provider action =>
        exact h.trans ht (h.work (hs.trans (congrArg some hf)) _ context _)
      | stop given condition => exact h.trans ht (h.stop (hs.trans (congrArg some hf)) _ _)
      | jump target condition => exact h.trans ht (h.jump s target _)
      | story c condition provider =>
        dsimp only
        split
        · exact ht
        · rename_i enter hm
          have := h.story (hs.trans (congrArg some hf)) (he enter (List.mem_of_getElem? hm))
            ⟨g.world.journal a, cursor⟩ context
          exact h.trans ht (this _)

theorem Advances.steps (hturned : ∀ {g g'}, R g g' → ∀ cursor turn, R g (g'.record ⟨ls, .turned cursor turn, g.world⟩))
    (context : Value) (limit : Nat) (cursor : Int) (g : Stage σ) :
    R g (b.steps enters ls a context limit cursor g).2 := by
  induction limit generalizing cursor g with
  | zero =>
    unfold Board.steps
    split
    · exact h.refl g
    · exact h.refl g
  | succ limit ih =>
    have ht := h.turn he context cursor g
    unfold Board.steps
    split
    · exact h.refl g
    · dsimp only
      split
      · rename_i hr
        rw [hr] at ht
        exact hturned ht _ _
      · rename_i hr
        rw [hr] at ht
        exact h.trans (hturned ht _ _) (ih _ _)

end

/-! ## Steps after one another -/

section

variable {A : List (Level σ) → Prop} {R : Stage σ → Stage σ → Prop} (hR : ClosedOn A R)
include hR

section

variable {b : Board σ} {a : Address} (hb : ClosedAt R b a) {ls : List (Level σ)} (hls : A ls)
  {enters : List (Enter σ)} (he : ∀ enter ∈ enters, ∀ ls, A ls → ∀ x g, R g (enter ls x g).2)
include hb hls he

theorem ClosedAt.steps (context : Value) (limit : Nat) (cursor : Int) (g : Stage σ) :
    R g (b.steps enters ls a context limit cursor g).2 :=
  (hb.advances hR.within hls).steps (fun enter hm => he enter hm ls hls) (fun hg _ _ => hR.record hg hls _)
    context limit cursor g

end

/-! ## Runs -/

theorem ClosedOn.clearEach {entries : List (Address × Session σ)}
    (h : ∀ e ∈ entries, ∀ g, R g (g.withWorld (e.2.clear e.1 g.world).2)) (g : Stage σ) :
    R g (g.withWorld (clearEach entries g.world).2) := by
  induction entries generalizing g with
  | nil => exact hR.refl g
  | cons e entries ih =>
    have hc := h e List.mem_cons_self g
    unfold Board.clearEach
    split
    · rename_i h'
      rw [h'] at hc
      exact hc
    · rename_i w h'
      rw [h'] at hc
      exact hR.trans hc (ih (fun e' he' => h e' (List.mem_cons_of_mem _ he')) (g.withWorld w))

section

variable {b : Board σ} {a : Address} (hclear : ∀ g, R g (g.withWorld (b.session.clear a g.world).2))
  (hbelow : ∀ {i c}, (i, c) ∈ b.stories → ∀ g, R g (g.withWorld (c.session.clear (a ++ [i]) g.world).2))
include hclear hbelow

theorem ClosedOn.clearAll (g : Stage σ) : R g (g.withWorld (b.clearAll a g.world).2) := by
  unfold Board.clearAll
  refine hR.clearEach ?_ g
  intro e he
  rcases List.mem_cons.mp he with rfl | he
  · exact hclear
  · obtain ⟨⟨i, c⟩, hm, rfl⟩ := List.mem_map.mp he
    exact hbelow hm

theorem ClosedOn.finish {ls : List (Level σ)} (hls : A ls) (g : Stage σ) : R g (b.finish ls a g).2 := by
  have hn := hR.note g hls .finished
  have hc := hR.clearAll hclear hbelow (g.note ls .finished)
  unfold Board.finish
  dsimp only
  split
  · exact hR.trans hn (hR.report _ _)
  · split
    · rename_i h
      rw [h] at hc
      exact hR.trans hn hc
    · rename_i h
      rw [h] at hc
      exact hR.trans (hR.trans hn hc) (hR.report (Stage.withWorld _ _) _)

end

theorem ClosedOn.close {b : Board σ} {ls : List (Level σ)} {a : Address} (hfinish : ∀ g, R g (b.finish ls a g).2)
    (h : Halt) (g : Stage σ) : R g (b.close ls a (h, g)).2 := by
  cases h with
  | raised f => exact hR.refl g
  | unfinished => exact hR.refl g
  | ended => exact hfinish g

section

variable {b : Board σ} {a : Address} (hb : ClosedAt R b a)
  (hbelow : ∀ {i c condition provider}, b.frames[i]? = some (.story c condition provider) → ClosedAt R c (a ++ [i]))
include hb hbelow

theorem ClosedAt.finish {ls : List (Level σ)} (hls : A ls) (g : Stage σ) : R g (b.finish ls a g).2 := by
  refine hR.finish hb.clear (fun hm => ?_) hls g
  obtain ⟨condition, provider, hf⟩ := mem_stories hm
  exact (hbelow hf).clear

theorem ClosedAt.close {ls : List (Level σ)} (hls : A ls) (h : Halt) (g : Stage σ) :
    R g (b.close ls a (h, g)).2 :=
  hR.close (hb.finish hR hbelow hls) h g

variable {enters : List (Enter σ)} (he : ∀ enter ∈ enters, ∀ ls, A ls → ∀ x g, R g (enter ls x g).2)
include he

theorem ClosedAt.walk (limit : Nat) {ls : List (Level σ)} (hls : A ls) (context : Value) (g : Stage σ) :
    R g (b.walk enters limit ls a context g).2 := by
  have ho : R g (b.opened ls a g) := hR.trans (hR.note g hls _) (hR.report _ _)
  have hs := hb.steps hR hls he context limit (g.world.journal a).cursor (b.opened ls a g)
  rw [walk_eq]
  exact hR.trans (hR.trans ho hs) (hb.close hR hbelow hls _ _)

theorem ClosedAt.runWith (limit : Nat) {above : List (Level σ)} (hls : ∀ L, A (L :: above)) (context : Value)
    (g : Stage σ) : R g (b.runWith enters limit a above context g).2 := by
  have hl := hb.load g
  unfold Board.runWith
  split
  · rename_i h
    rw [h] at hl
    exact hl
  · rename_i loaded w h
    rw [h] at hl
    split
    · exact hl
    · exact hR.trans hl (hb.walk hR hbelow he limit (hls ⟨b, a, w⟩) _ _)

end

/-- **What goes along with the parts of a run goes along with the run**, and with those of the boards below. -/
theorem ClosedOn.enterBoard (hA : ∀ {ls}, A ls → ∀ L, A (L :: ls)) (limit : Nat) (b : Board σ) : ∀ (a : Address),
    (∀ p c, b.Has p c → ClosedAt R c (a ++ p)) → ∀ ls, (∀ L, A (L :: ls)) →
      ∀ x g, R g (enterBoard limit a b ls x g).2 := by
  induction b using Board.induction with
  | step b ih =>
    intro a h ls hls x g
    have hb : ClosedAt R b a := by
      have := h [] b (.here b)
      rwa [List.append_nil] at this
    rw [enterBoard_eq]
    refine hb.runWith hR ?_ ?_ limit hls x g
    · intro i c condition provider hf
      exact h [i] c (.story hf (.here c))
    · intro enter hm ls' hls' x' g'
      rcases mem_enterFrames hm with ⟨i, c, condition, provider, hf, rfl⟩ | rfl
      · refine ih i c condition provider hf (a ++ [i]) ?_ ls' (hA hls') x' g'
        intro p d hp
        rw [List.append_assoc]
        exact h (i :: p) d (.story hf hp)
      · exact hR.refl g'

end

section

variable {R : Stage σ → Stage σ → Prop} (hR : Closed R)
include hR

theorem Closed.enterBoard (limit : Nat) (b : Board σ) (a : Address)
    (h : ∀ p c, b.Has p c → ClosedAt R c (a ++ p)) (ls : List (Level σ)) (x : Value) (g : Stage σ) :
    R g (enterBoard limit a b ls x g).2 :=
  hR.on.enterBoard (fun _ _ => trivial) limit b a h ls (fun _ => trivial) x g

theorem Closed.enterFrames {limit : Nat} {b : Board σ} {a : Address}
    (h : ∀ p c, b.Has p c → ClosedAt R c (a ++ p)) :
    ∀ enter ∈ enterFrames limit a 0 b.frames, ∀ ls x g, R g (enter ls x g).2 := by
  intro enter hm ls x g
  rcases mem_enterFrames hm with ⟨i, c, condition, provider, hf, rfl⟩ | rfl
  · refine hR.enterBoard limit c (a ++ [i]) ?_ ls x g
    intro p d hp
    rw [List.append_assoc]
    exact h (i :: p) d (.story hf hp)
  · exact hR.refl g

end

end Board

end Boardwalk
