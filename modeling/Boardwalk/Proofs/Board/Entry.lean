import Boardwalk.Proofs.Board.Course
/-!
# At most one board below

A board enters at most one board below, in its last step: a step that goes on enters none (`turn_alone`). Around the
run of the board below, the board only does what is its own (`ClosedAt.walk_enters`).
-/

namespace Boardwalk.Board

variable {σ : Type}

theorem turn_alone {b : Board σ} {enters : List (Enter σ)} {ls : List (Level σ)} {a : Address} {x : Value}
    {cursor c : Int} {g g' : Stage σ} (h : b.turn enters ls a x cursor g = (.next c, g')) :
    b.turn [] ls a x cursor g = (.next c, g') := by
  unfold turn at h ⊢
  split at h
  · cases h
  · dsimp only at h ⊢
    split at h
    · cases h
    · exact h
    · split at h
      · exact h
      · exact h
      · exact h
      · split at h
        · cases h
        · cases h

/-- From the first stage to the second one a board does its own part, and enters at most one board below. -/
inductive EntersOne (R : Stage σ → Stage σ → Prop) (b : Board σ) (ls : List (Level σ)) (enters : List (Enter σ))
    (g g' : Stage σ) : Prop where
  | alone : R g g' → EntersOne R b ls enters g g'
  | below {i : Nat} {c : Board σ} {condition : Option (Condition σ)} {provider : Option (Provider σ)}
      {enter : Enter σ} {x : Value} {g₁ : Stage σ} : b.frames[i]? = some (.story c condition provider) →
      enters[i]? = some enter → R g g₁ → R (enter ls x (g₁.note ls (.entered i))).2 g' → EntersOne R b ls enters g g'

section

variable {A : List (Level σ) → Prop} {R : Stage σ → Stage σ → Prop} (hR : ClosedOn A R)
  {b : Board σ} {ls : List (Level σ)} {enters : List (Enter σ)} {g g' g'' : Stage σ}
include hR

theorem EntersOne.after (h : R g g') (h' : EntersOne R b ls enters g' g'') : EntersOne R b ls enters g g'' := by
  cases h' with
  | alone h' => exact .alone (hR.trans h h')
  | below hf hi hbefore hafter => exact .below hf hi (hR.trans h hbefore) hafter

theorem EntersOne.before (h : EntersOne R b ls enters g g') (h' : R g' g'') : EntersOne R b ls enters g g'' := by
  cases h with
  | alone h => exact .alone (hR.trans h h')
  | below hf hi hbefore hafter => exact .below hf hi hbefore (hR.trans hafter h')

variable {a : Address} (hb : ClosedAt R b a) (hls : A ls)
include hb hls

theorem ClosedAt.story_enters {s : Spot σ} {c : Board σ} {condition : Option (Condition σ)}
    {provider : Option (Provider σ)} (hs : b.frames[s.position]? = some (.story c condition provider)) {enter : Enter σ}
    (henter : enters[s.position]? = some enter) (v : View) (x : Value) (g : Stage σ) :
    EntersOne R b ls enters g (b.story ls a s enter provider v x g).2 := by
  have hcontext := (hb.advances hR.within hls).contextOf hs v x g
  unfold Board.story
  simp only [Frame.provider?] at hcontext
  split
  · rename_i h
    rw [h] at hcontext
    exact .alone hcontext
  · rename_i x' g₁ h
    rw [h] at hcontext
    have hadd := hR.trans hcontext ((hb.advances hR.within hls).add s.name s.kind s.position (.dict []) false g₁)
    have hpersist := hR.trans hadd ((hb.advances hR.within hls).persist _)
    dsimp only
    generalize b.persist ls a _ = g₂ at hpersist ⊢
    have hone : ∀ {g'}, R (enter ls x' (g₂.note ls (.entered s.position))).2 g' → EntersOne R b ls enters g g' :=
      fun h => .below hs henter hpersist h
    split
    all_goals
      rename_i h'
      rw [h'] at hone
    · exact hone (hR.refl _)
    · exact hone (hR.refl _)
    · exact hone (hR.refl _)
    · split
      · exact hone (hR.refl _)
      · exact hone ((hb.advances hR.within hls).conclude _ _)

variable (enters) in
theorem ClosedAt.turn_enters (x : Value) (cursor : Int) (g : Stage σ) :
    EntersOne R b ls enters g (b.turn enters ls a x cursor g).2 := by
  unfold Board.turn
  split
  · exact .alone (hR.refl g)
  · rename_i s hspot
    obtain ⟨hs, -, -⟩ := spot?_some hspot
    have ht := (hb.advances hR.within hls).taken hs ⟨g.world.journal a, cursor⟩ g
    dsimp only
    split
    all_goals
      rename_i h
      rw [h] at ht
    · exact .alone ht
    · exact .alone (hR.trans ht ((hb.advances hR.within hls).skip s _))
    · cases hf : s.frame with
      | work kind name condition provider action =>
        exact .alone (hR.trans ht ((hb.advances hR.within hls).work (hs.trans (congrArg some hf)) _ x _))
      | stop given condition => exact .alone (hR.trans ht ((hb.advances hR.within hls).stop (hs.trans (congrArg some hf)) _ _))
      | jump target condition => exact .alone (hR.trans ht ((hb.advances hR.within hls).jump s target _))
      | story c condition provider =>
        dsimp only
        split
        · exact .alone ht
        · rename_i enter henter
          exact .after hR ht (hb.story_enters hR hls (hs.trans (congrArg some hf)) henter
            ⟨g.world.journal a, cursor⟩ x _)

variable (hrecord : ∀ (g : Stage σ) e w, R g (g.record ⟨ls, e, w⟩))
include hrecord

variable (enters) in
theorem ClosedAt.steps_enters (x : Value) (limit : Nat) (cursor : Int) (g : Stage σ) :
    EntersOne R b ls enters g (b.steps enters ls a x limit cursor g).2 := by
  induction limit generalizing cursor g with
  | zero =>
    unfold Board.steps
    split
    · exact .alone (hR.refl g)
    · exact .alone (hR.refl g)
  | succ limit ih =>
    unfold Board.steps
    split
    · exact .alone (hR.refl g)
    · dsimp only
      split
      · rename_i h g' hturn
        have ht := hb.turn_enters hR enters hls x cursor g
        rw [hturn] at ht
        exact ht.before hR (hrecord g' _ _)
      · rename_i c g' hturn
        have ht := (hb.advances hR.within hls).turn (fun enter (hm : enter ∈ []) => absurd hm List.not_mem_nil) x cursor g
        rw [turn_alone hturn] at ht
        exact .after hR (hR.trans ht (hrecord g' _ _)) (ih c _)

variable (enters) in
/-- **A walk enters at most one board below**, and does nothing but its own part before and after. -/
theorem ClosedAt.walk_enters (hfinish : ∀ g, R g (b.finish ls a g).2) (limit : Nat) (x : Value) (g : Stage σ) :
    EntersOne R b ls enters g (b.walk enters limit ls a x g).2 := by
  have ho : R g (b.opened ls a g) := hR.trans (hR.note g hls _) (hR.report _ _)
  have hs := hb.steps_enters hR enters hls hrecord x limit (g.world.journal a).cursor (b.opened ls a g)
  rw [walk_eq]
  exact (hs.after hR ho).before hR (hR.close hfinish _ _)

end

end Boardwalk.Board
