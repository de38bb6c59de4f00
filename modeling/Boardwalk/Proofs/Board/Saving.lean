import Boardwalk.Proofs.Board.Journal
/-!
# Nothing runs before it is saved

Whenever code of a board is evaluated, the file of every board that runs is the text of its journal in memory,
if its run has journaled a record, and is else as its loading left it. A board that waits in a story frame has
journaled the record of this frame, which is still in flight.

The levels of boards are handled one at a time: what a board does passes by the boards that wait above it
(`waits_of_passes`), and a step of a board is followed by the next one only after it is saved (`Settled`).
-/

namespace Boardwalk

variable {σ : Type}

namespace Level

def Journaled (L : Level σ) (w : World σ) : Prop :=
  (L.start.journal L.address).length < (w.journal L.address).length

def Holds (L : Level σ) (w : World σ) : Prop :=
  ∃ m, w.model? L.address = some m ∧ L.board.session.FileHolds m w.disk

/-- What was journaled is saved, and before that the file is as the loading left it. -/
structure IsSaved (L : Level σ) (w : World σ) : Prop where
  journaled : L.Journaled w → L.Holds w
  untouched : ¬ L.Journaled w → w.disk.node? L.board.session.file = L.start.disk.node? L.board.session.file

/-- The board waits in a story frame, whose record is saved and in flight. -/
structure Waits (L : Level σ) (w : World σ) : Prop where
  journaled : L.Journaled w
  holds : L.Holds w
  inFlight : ∃ r, (w.journal L.address).getLast? = some r ∧ r.kind = "story_frame" ∧ r.completed = .bool false

theorem Waits.isSaved {L : Level σ} {w : World σ} (h : L.Waits w) : L.IsSaved w :=
  ⟨fun _ => h.holds, fun hn => absurd h.journaled hn⟩

end Level

/-- Before code runs, everything is saved; a board below is entered from a frame that waits for it. -/
def Moment.IsSaved (m : Moment σ) : Prop :=
  match m.event with
  | .evaluated .. => (∀ L ∈ m.levels, L.IsSaved m.world) ∧ ∀ L ∈ m.levels.tail, L.Waits m.world
  | .entered _ => ∀ L ∈ m.levels, L.Waits m.world
  | _ => True

namespace Board

def FilesApart (b : Board σ) : Prop :=
  ∀ {p q c d}, b.Has p c → b.Has q d → p ≠ q → c.session.file ≠ d.session.file

def SparesFiles (b : Board σ) : Prop :=
  ∀ {p q c d code}, b.Has p c → c.Calls code → b.Has q d →
    ∀ w, (code w).2.disk.node? d.session.file = w.disk.node? d.session.file

/-- A level of a run together with those above it, in a tree. -/
structure Fits (root : Board σ) (L : Level σ) (above : List (Level σ)) : Prop where
  has : root.Has L.address L.board
  above : ∀ M ∈ above, root.Has M.address M.board ∧ ∃ q, q ≠ [] ∧ L.address = M.address ++ q

structure Settled (L : Level σ) (above : List (Level σ)) (w : World σ) : Prop where
  model : ∃ m, w.model? L.address = some m
  grown : (L.start.journal L.address).length ≤ (w.journal L.address).length
  saved : L.IsSaved w
  waits : ∀ M ∈ above, M.Waits w

def Sound (L : Level σ) (above : List (Level σ)) (g : Stage σ) : Prop :=
  (∀ m ∈ g.trace, m.IsSaved) ∧ Settled L above g.world

/-! ## The boards that wait -/

theorem waits_of_passes {M : Level σ} {w w' : World σ} (h : M.Waits w)
    (hm : w'.model? M.address = w.model? M.address)
    (hd : ∀ n, w.disk.node? M.board.session.file = some n → w'.disk.node? M.board.session.file = some n) :
    M.Waits w' := by
  have hj : w'.journal M.address = w.journal M.address := by
    unfold World.journal
    rw [hm]
  refine ⟨?_, ?_, ?_⟩
  · unfold Level.Journaled
    rw [hj]
    exact h.journaled
  · obtain ⟨m, hmm, c, hc, hn⟩ := h.holds
    exact ⟨m, hm.trans hmm, c, hc, hd _ hn⟩
  · rw [hj]
    exact h.inFlight

theorem address_ne {a b q : Address} (hq : q ≠ []) (h : a = b ++ q) : b ≠ a := by
  intro e
  rw [e] at h
  exact hq (List.self_eq_append_right.mp h)

section

variable {root : Board σ} (hspares : root.SparesFiles) {L : Level σ} {above : List (Level σ)}
  (hfits : Fits root L above)
include hspares hfits

theorem settled_call {code : Code σ Value} (hc : L.board.Calls code) {w : World σ} (h : Settled L above w) :
    Settled L above (w.call code).2 := by
  have hown := hspares hfits.has hc hfits.has w
  refine ⟨h.model, h.grown, ⟨fun hj => ?_, fun hj => ?_⟩, fun M hM => ?_⟩
  · obtain ⟨m, hm, c, hc', hn⟩ := h.saved.journaled hj
    exact ⟨m, hm, c, hc', hown.trans hn⟩
  · exact hown.trans (h.saved.untouched hj)
  · refine waits_of_passes (h.waits M hM) rfl fun n hn => ?_
    exact (hspares hfits.has hc (hfits.above M hM).1 w).trans hn

theorem sound_evaluate {code : Code σ Value} (hc : L.board.Calls code) {g : Stage σ} (h : Sound L above g)
    (position : Nat) (role : Role) : Sound L above (g.call (L :: above) position role code).2 := by
  refine ⟨fun m hm => ?_, settled_call hspares hfits hc h.2⟩
  rcases List.mem_cons.mp hm with rfl | hm
  · refine ⟨fun M hM => ?_, h.2.waits⟩
    rcases List.mem_cons.mp hM with rfl | hM
    · exact h.2.saved
    · exact (h.2.waits M hM).isSaved
  · exact h.1 m hm

theorem sound_taken {s : Spot σ} (hs : L.board.frames[s.position]? = some s.frame) {g : Stage σ}
    (h : Sound L above g) (v : View) : Sound L above (taken (L :: above) s v g).2 := by
  unfold taken
  cases hc : s.frame.condition? with
  | some c => exact sound_evaluate hspares hfits (.condition v hs hc) h _ _
  | none => exact h

theorem sound_contextOf {i : Nat} {f : Frame σ} (hf : L.board.frames[i]? = some f) {g : Stage σ}
    (h : Sound L above g) (v : View) (x : Value) :
    Sound L above (contextOf (L :: above) i f.provider? v x g).2 := by
  unfold contextOf
  cases hp : f.provider? with
  | some p => exact sound_evaluate hspares hfits (.provider v x hf hp) h _ _
  | none => exact h

end

/-! ## Saving -/

theorem waits_report {M : Level σ} {w : World σ} (h : M.Waits w) (e : Log.Entry) : M.Waits (w.report e) :=
  ⟨h.journaled, h.holds, h.inFlight⟩

theorem sound_report {L : Level σ} {above : List (Level σ)} {g : Stage σ} (h : Sound L above g) (e : Log.Entry) :
    Sound L above (g.withWorld (g.world.report e)) :=
  ⟨h.1, h.2.model, h.2.grown, ⟨h.2.saved.journaled, h.2.saved.untouched⟩,
    fun M hM => waits_report (h.2.waits M hM) e⟩

theorem adds_skipped (b : Board σ) (a : Address) (is : List Int) (w : World σ) :
    ∃ rs, Adds a rs w (is.foldl (b.addSkipped a) w) := by
  induction is generalizing w with
  | nil => exact ⟨[], .nil a w⟩
  | cons i is ih =>
    obtain ⟨rs, h⟩ := ih (b.addSkipped a w i)
    exact ⟨_ :: rs, (adds_add a _ _ _ _ _ w).trans h⟩

section

variable {root : Board σ} (hapart : root.FilesApart) {L : Level σ} {above : List (Level σ)}
  (hfits : Fits root L above)
include hapart hfits

theorem above_apart {M : Level σ} (hM : M ∈ above) :
    M.address ≠ L.address ∧ M.board.session.file ≠ L.board.session.file := by
  obtain ⟨hhas, q, hq, he⟩ := hfits.above M hM
  have hne := address_ne hq he
  exact ⟨hne, hapart hhas hfits.has hne⟩

theorem waits_journals {m : Model} {rs : Timeline} {w w' : World σ} {M : Level σ} (hM : M ∈ above)
    (hj : Journals L.board L.address m rs w w') (h : M.Waits w) : M.Waits w' := by
  obtain ⟨ha, hf⟩ := above_apart hapart hfits hM
  exact waits_of_passes h (hj.others ha) fun n hn => hj.stays _ n hn (.inl hf)

theorem settled_journals {m : Model} {rs : Timeline} {w w' : World σ} (hne : rs ≠ [])
    (hm : w.model? L.address = some m) (hj : Journals L.board L.address m rs w w') (h : Settled L above w) :
    L.Journaled w' ∧ L.Holds w' ∧ Settled L above w' := by
  have hgrown := h.grown
  have hlen : 0 < rs.length := List.length_pos_iff.mpr hne
  have hjournaled : L.Journaled w' := by
    unfold Level.Journaled
    rw [journal_of_model hj.model, List.length_append]
    rw [journal_of_model hm] at hgrown
    omega
  have hholds : L.Holds w' := ⟨_, hj.model, hj.holds⟩
  refine ⟨hjournaled, hholds, ⟨_, hj.model⟩, Nat.le_of_lt hjournaled, ⟨fun _ => hholds, fun hn => absurd hjournaled hn⟩,
    fun M hM => waits_journals hapart hfits hM hj (h.waits M hM)⟩

theorem sound_persist {g : Stage σ} {w : World σ} {rs : Timeline} (h : Sound L above g) (hne : rs ≠ [])
    (ha : Adds L.address rs g.world w)
    (hs : SavesSucceed (L.board.persist (L :: above) L.address (g.withWorld w)).trace) :
    Sound L above (L.board.persist (L :: above) L.address (g.withWorld w)) := by
  obtain ⟨m, hm⟩ := h.2.model
  have hj := persist_journals hm ha hs
  refine ⟨fun m hm => ?_, (settled_journals hapart hfits hne hm hj h.2).2.2⟩
  rw [persist_trace hs] at hm
  rcases List.mem_cons.mp hm with rfl | hm
  · trivial
  · exact h.1 m hm

theorem sound_complete {g : Stage σ} (h : Sound L above g) (s : Spot σ) (kind : String) (output : Value)
    (hs : SavesSucceed (L.board.complete (L :: above) L.address s kind output g).trace) :
    Sound L above (L.board.complete (L :: above) L.address s kind output g) :=
  sound_persist hapart hfits h (List.cons_ne_nil _ _) (adds_add _ _ _ _ _ _ _) hs

/-- A jump without a target stops the run; its record is not saved, but nothing is evaluated any more. -/
theorem sound_jump {s : Spot σ} {target : Target} {g : Stage σ} (h : Sound L above g)
    (hs : SavesSucceed (L.board.jump (L :: above) L.address s target g).2.trace) :
    (∀ m ∈ (L.board.jump (L :: above) L.address s target g).2.trace, m.IsSaved) ∧
      ∀ c, (L.board.jump (L :: above) L.address s target g).1 = .next c →
        Sound L above (L.board.jump (L :: above) L.address s target g).2 := by
  unfold jump at hs ⊢
  cases ht : L.board.jumpTarget target with
  | error f =>
    refine ⟨h.1, fun c hc => ?_⟩
    cases hc
  | ok t =>
    rw [ht] at hs
    obtain ⟨rs, hr⟩ := adds_skipped L.board L.address (between s.cursor t)
      (add L.address s.name s.kind s.position (.int s.cursor) true g.world)
    have ha := (adds_add L.address s.name s.kind s.position (.int s.cursor) true g.world).trans hr
    have hp := sound_persist hapart hfits h (List.cons_ne_nil _ _) ha hs
    exact ⟨hp.1, fun _ _ => sound_report hp _⟩

end

theorem saved_conclude {L : Level σ} {above : List (Level σ)} {g : Stage σ} {output : Json} (h : ∀ m ∈ g.trace, m.IsSaved)
    (hs : SavesSucceed (L.board.conclude (L :: above) L.address output g).2.trace) :
    ∀ m ∈ (L.board.conclude (L :: above) L.address output g).2.trace, m.IsSaved := by
  unfold conclude at hs ⊢
  split
  · exact h
  · rename_i r hr
    rw [hr] at hs
    dsimp only at hs ⊢
    split
    · exact h
    · rename_i t _ hu
      rw [hu] at hs
      intro m hm
      rw [persist_trace hs] at hm
      rcases List.mem_cons.mp hm with rfl | hm
      · trivial
      · exact h m hm

theorem saved_finish {b : Board σ} {a : Address} {ls : List (Level σ)} {g : Stage σ}
    (h : ∀ m ∈ g.trace, m.IsSaved) : ∀ m ∈ (b.finish ls a g).2.trace, m.IsSaved := by
  have hn : ∀ m ∈ (g.note ls .finished).trace, m.IsSaved := by
    intro m hm
    rcases List.mem_cons.mp hm with rfl | hm
    · trivial
    · exact h m hm
  unfold finish
  dsimp only
  split
  · exact hn
  · split
    · exact hn
    · exact hn

/-! ## Steps -/

def EntersSound (root : Board σ) (limit : Nat) (a : Address) (c : Board σ) : Prop :=
  ∀ (above : List (Level σ)) (x : Value) (g : Stage σ),
    (∀ M ∈ above, root.Has M.address M.board ∧ ∃ q, q ≠ [] ∧ a = M.address ++ q) →
    (∀ M ∈ above, M.Waits g.world) → (∀ m ∈ g.trace, m.IsSaved) →
    SavesSucceed (enterBoard limit a c above x g).2.trace →
    ∀ m ∈ (enterBoard limit a c above x g).2.trace, m.IsSaved

section

variable {root : Board σ} (hapart : root.FilesApart) (hspares : root.SparesFiles) {L : Level σ}
  {above : List (Level σ)} (hfits : Fits root L above)
include hapart hspares hfits

theorem sound_work {s : Spot σ} {kind : WorkKind} {name : String} {condition : Option (Condition σ)}
    {provider : Option (Provider σ)} {action : Action σ}
    (hf : L.board.frames[s.position]? = some (.work kind name condition provider action)) {g : Stage σ}
    (h : Sound L above g) (v : View) (x : Value)
    (hs : SavesSucceed (L.board.work (L :: above) L.address s provider action v x g).2.trace) :
    Sound L above (L.board.work (L :: above) L.address s provider action v x g).2 := by
  have hc := sound_contextOf hspares hfits hf h v x
  simp only [Frame.provider?] at hc
  unfold work at hs ⊢
  cases hx : contextOf (L :: above) s.position provider v x g with
  | mk answer g₁ =>
    rw [hx] at hc hs
    cases answer with
    | error f => exact hc
    | ok x' =>
      have he := sound_evaluate hspares hfits (.action x' hf) hc s.position .action
      dsimp only at hs ⊢
      cases ha : g₁.call (L :: above) s.position .action (action x') with
      | mk answer g₂ =>
        rw [ha] at he hs
        cases answer with
        | error f => exact he
        | ok output => exact sound_complete hapart hfits he s _ _ hs

theorem sound_stop {s : Spot σ} {given : Option String} {condition : Condition σ}
    (hf : L.board.frames[s.position]? = some (.stop given condition)) {g : Stage σ}
    (h : Sound L above g) (v : View)
    (hs : SavesSucceed (L.board.stop (L :: above) L.address s condition v g).2.trace) :
    Sound L above (L.board.stop (L :: above) L.address s condition v g).2 := by
  have he := sound_evaluate hspares hfits (.predicate v hf) h s.position .predicate
  unfold stop holds at hs ⊢
  cases ha : g.call (L :: above) s.position .predicate (condition v) with
  | mk answer g₁ =>
    rw [ha] at he hs
    cases answer with
    | error f => exact he
    | ok y =>
      simp only [Except.map] at hs ⊢
      split
      · rename_i hy
        rw [if_pos hy] at hs
        exact sound_report (sound_complete hapart hfits he s _ _ hs) _
      · rename_i hy
        rw [if_neg hy] at hs
        exact sound_complete hapart hfits he s _ _ hs

omit hspares in
/-- The record of a story frame is saved, and in flight, before the board of the frame runs. -/
theorem waits_entering {s : Spot σ} (hk : s.frame.kind = "story_frame") {g : Stage σ} (h : Sound L above g)
    (hs : SavesSucceed (L.board.persist (L :: above) L.address
      (g.withWorld (add L.address s.name s.kind s.position (.dict []) false g.world))).trace) :
    L.Waits (L.board.persist (L :: above) L.address
      (g.withWorld (add L.address s.name s.kind s.position (.dict []) false g.world))).world := by
  obtain ⟨m, hm⟩ := h.2.model
  have hj := persist_journals hm (adds_add L.address s.name s.kind s.position (.dict []) false g.world) hs
  obtain ⟨hjournaled, hholds, -⟩ := settled_journals hapart hfits (List.cons_ne_nil _ _) hm hj h.2
  refine ⟨hjournaled, hholds, (g.world.journal L.address).entry s.name s.kind s.position (.dict []) false, ?_, hk, rfl⟩
  rw [journal_of_model hj.model]
  exact List.getLast?_concat

omit hapart hspares in
/-- A board below is entered while all boards above it wait. -/
theorem saved_below {i limit : Nat} {c : Board σ} (he : EntersSound root limit (L.address ++ [i]) c) {g : Stage σ}
    (h : Sound L above g) (hwaits : L.Waits g.world) (x : Value)
    (hs : SavesSucceed (enterBoard limit (L.address ++ [i]) c (L :: above) x
      (g.note (L :: above) (.entered i))).2.trace) :
    ∀ m ∈ (enterBoard limit (L.address ++ [i]) c (L :: above) x (g.note (L :: above) (.entered i))).2.trace,
      m.IsSaved := by
  have hall : ∀ M ∈ L :: above, M.Waits g.world := by
    intro M hM
    rcases List.mem_cons.mp hM with rfl | hM
    · exact hwaits
    · exact h.2.waits M hM
  have habove : ∀ M ∈ L :: above, root.Has M.address M.board ∧ ∃ q, q ≠ [] ∧ L.address ++ [i] = M.address ++ q := by
    intro M hM
    rcases List.mem_cons.mp hM with rfl | hM
    · exact ⟨hfits.has, [i], List.cons_ne_nil _ _, rfl⟩
    · obtain ⟨hhas, q, hq, hq'⟩ := hfits.above M hM
      refine ⟨hhas, q ++ [i], List.append_ne_nil_of_left_ne_nil hq _, ?_⟩
      rw [hq', List.append_assoc]
  have hsaved : ∀ m ∈ (g.note (L :: above) (.entered i)).trace, m.IsSaved := by
    intro m hm
    rcases List.mem_cons.mp hm with rfl | hm
    · exact hall
    · exact h.1 m hm
  exact he (L :: above) x (g.note (L :: above) (.entered i)) habove hall hsaved hs

theorem saved_story {s : Spot σ} {c : Board σ} {condition : Option (Condition σ)}
    {provider : Option (Provider σ)} {limit : Nat}
    (hf : L.board.frames[s.position]? = some (.story c condition provider)) (hk : s.frame.kind = "story_frame")
    (he : EntersSound root limit (L.address ++ [s.position]) c) {g : Stage σ} (h : Sound L above g) (v : View)
    (x : Value) (hs : SavesSucceed (L.board.story (L :: above) L.address s
      (enterBoard limit (L.address ++ [s.position]) c) provider v x g).2.trace) :
    ∀ m ∈ (L.board.story (L :: above) L.address s
      (enterBoard limit (L.address ++ [s.position]) c) provider v x g).2.trace, m.IsSaved := by
  have hc := sound_contextOf hspares hfits hf h v x
  simp only [Frame.provider?] at hc
  unfold story at hs ⊢
  cases hx : contextOf (L :: above) s.position provider v x g with
  | mk answer g₁ =>
    rw [hx] at hc hs
    cases answer with
    | error f => exact hc.1
    | ok x' =>
      dsimp only at hs ⊢
      have ha := adds_add L.address s.name s.kind s.position (.dict []) false g₁.world
      -- the saves up to here succeed if those of the whole step do, as the record only grows
      have hsound := sound_persist hapart hfits hc (List.cons_ne_nil _ _) ha
      have hwaits := waits_entering hapart hfits hk hc
      generalize L.board.persist (L :: above) L.address (g₁.withWorld
        (add L.address s.name s.kind s.position (.dict []) false g₁.world)) = g₂ at hs hsound hwaits ⊢
      have hext : Extends g₂ (enterBoard limit (L.address ++ [s.position]) c (L :: above) x'
          (g₂.note (L :: above) (.entered s.position))).2 :=
        extends_closed.trans (extends_closed.record g₂ _) (enterBoard_extends ..)
      have hsaved := fun hs₃ => saved_below hfits he (hsound (SavesSucceed.of_extends hs₃ hext))
        (hwaits (SavesSucceed.of_extends hs₃ hext)) x' hs₃
      cases hr : enterBoard limit (L.address ++ [s.position]) c (L :: above) x'
        (g₂.note (L :: above) (.entered s.position)) with
      | mk ending g₃ =>
        rw [hr] at hs hsaved
        cases ending with
        | raised f => exact hsaved hs
        | unfinished => exact hsaved hs
        | failure f => exact hsaved hs
        | success o =>
          dsimp only at hs ⊢
          cases hn : o.toValue.normal with
          | error f =>
            rw [hn] at hs
            exact hsaved hs
          | ok output =>
            rw [hn] at hs
            have hex := conclude_extends L.board L.address (L :: above) g₃ output
            exact saved_conclude (hsaved (hs.of_extends hex)) hs

variable {limit : Nat} (he : ∀ {i c condition provider},
  L.board.frames[i]? = some (.story c condition provider) → EntersSound root limit (L.address ++ [i]) c)
include he

/-- **Every step is saved before the next one.** -/
theorem sound_turn {x : Value} {cursor : Int} {g : Stage σ} (h : Sound L above g)
    (hs : SavesSucceed (L.board.turn (enterFrames limit L.address 0 L.board.frames) (L :: above) L.address x
      cursor g).2.trace) :
    (∀ m ∈ (L.board.turn (enterFrames limit L.address 0 L.board.frames) (L :: above) L.address x
      cursor g).2.trace, m.IsSaved) ∧
    ∀ c, (L.board.turn (enterFrames limit L.address 0 L.board.frames) (L :: above) L.address x
      cursor g).1 = .next c → Sound L above (L.board.turn (enterFrames limit L.address 0 L.board.frames)
        (L :: above) L.address x cursor g).2 := by
  unfold turn at hs ⊢
  cases hspot : L.board.spot? cursor with
  | none => exact ⟨h.1, fun _ hc => by cases hc⟩
  | some s =>
    obtain ⟨hf, -, -⟩ := spot?_some hspot
    rw [hspot] at hs
    have ht := sound_taken hspares hfits hf h ⟨g.world.journal L.address, cursor⟩
    dsimp only at hs ⊢
    cases htaken : taken (L :: above) s ⟨g.world.journal L.address, cursor⟩ g with
    | mk answer g₁ =>
      rw [htaken] at ht hs
      cases answer with
      | error f => exact ⟨ht.1, fun _ hc => by cases hc⟩
      | ok yes =>
        cases yes with
        | false =>
          have hd := sound_complete hapart hfits (sound_report ht _) s emptyKind (.dict []) hs
          exact ⟨hd.1, fun _ _ => hd⟩
        | true =>
          cases hframe : s.frame with
          | work kind name condition provider action =>
            simp only [hframe] at hs ⊢
            have hd := sound_work hapart hspares hfits (hf.trans (congrArg some hframe)) ht _ x hs
            exact ⟨hd.1, fun _ _ => hd⟩
          | stop given condition =>
            simp only [hframe] at hs ⊢
            have hd := sound_stop hapart hspares hfits (hf.trans (congrArg some hframe)) ht _ hs
            exact ⟨hd.1, fun _ _ => hd⟩
          | jump target condition =>
            simp only [hframe] at hs ⊢
            exact sound_jump hapart hfits ht hs
          | story c condition provider =>
            -- the board below is entered, and then the walk does not go on
            have hstory := hf.trans (congrArg some hframe)
            have henter : (enterFrames limit L.address 0 L.board.frames)[s.position]? =
              some (enterBoard limit (L.address ++ [s.position]) c) := enterFrames_story hstory
            simp only [hframe, henter] at hs ⊢
            have hk : s.frame.kind = "story_frame" := by
              rw [hframe]
              rfl
            exact ⟨saved_story hapart hspares hfits hstory hk (he hstory) ht _ x hs, fun _ hc => by cases hc⟩

theorem saved_steps {x : Value} {n : Nat} {cursor : Int} {g : Stage σ} (h : Sound L above g)
    (hs : SavesSucceed (L.board.steps (enterFrames limit L.address 0 L.board.frames) (L :: above) L.address x n
      cursor g).2.trace) :
    ∀ m ∈ (L.board.steps (enterFrames limit L.address 0 L.board.frames) (L :: above) L.address x n
      cursor g).2.trace, m.IsSaved := by
  have hrecord : ∀ {g : Stage σ} {c : Int} {t : Turn} {w : World σ}, (∀ m ∈ g.trace, m.IsSaved) →
      ∀ m ∈ (g.record ⟨L :: above, .turned c t, w⟩).trace, m.IsSaved := by
    intro g c t w hsaved m hm
    rcases List.mem_cons.mp hm with rfl | hm
    · trivial
    · exact hsaved m hm
  generalize hsteps : L.board.steps (enterFrames limit L.address 0 L.board.frames) (L :: above) L.address x n
    cursor g = result at hs ⊢
  obtain ⟨halt, g'⟩ := result
  dsimp only at hs ⊢
  have hlast := steps_ends (P := fun _ _ g => Sound L above g)
    (extends_closed.enterFrames fun p c _ => extends_closedAt c (L.address ++ p)) ?_ n h hsteps
  · obtain ⟨n', cursor', g₀, hsound, hends⟩ := hlast
    cases hends with
    | past => exact hsound.1
    | limit => exact hsound.1
    | halt hlt hturn =>
      have ht := @sound_turn σ root hapart hspares L above hfits limit he x cursor' g₀ hsound
      rw [hturn] at ht
      exact hrecord (ht (hs.of_extends (extends_closed.record _ _))).1
  · intro n c c' g₀ g₁ hsound hlt hturn hext
    have ht := @sound_turn σ root hapart hspares L above hfits limit he x c g₀ hsound
    rw [hturn] at ht
    obtain ⟨hsaved, hnext⟩ := ht ((hs.of_extends hext).of_extends (extends_closed.record _ _))
    exact ⟨hrecord hsaved, (hnext c' rfl).2⟩

theorem saved_walk {x : Value} {g : Stage σ} (h : Sound L above g)
    (hs : SavesSucceed (L.board.walk (enterFrames limit L.address 0 L.board.frames) limit (L :: above) L.address x
      g).2.trace) :
    ∀ m ∈ (L.board.walk (enterFrames limit L.address 0 L.board.frames) limit (L :: above) L.address x
      g).2.trace, m.IsSaved := by
  have hstarted : Sound L above (g.note (L :: above) (.started (g.world.journal L.address).cursor)) := by
    refine ⟨fun m hm => ?_, h.2⟩
    rcases List.mem_cons.mp hm with rfl | hm
    · trivial
    · exact h.1 m hm
  have hopened : Sound L above (L.board.opened (L :: above) L.address g) := by
    unfold opened report
    exact sound_report hstarted _
  have hsteps := @saved_steps σ root hapart hspares L above hfits limit he x limit
    (g.world.journal L.address).cursor _ hopened
  rw [walk_eq] at hs ⊢
  generalize L.board.steps (enterFrames limit L.address 0 L.board.frames) (L :: above) L.address x limit
    (g.world.journal L.address).cursor (L.board.opened (L :: above) L.address g) = result at hsteps hs ⊢
  obtain ⟨halt, g'⟩ := result
  have hext := close_extends L.board L.address (L :: above) g' halt
  have hsaved := hsteps (hs.of_extends hext)
  cases halt with
  | raised f => exact hsaved
  | unfinished => exact hsaved
  | ended => exact saved_finish hsaved

end

/-! ## Runs -/

theorem waits_load {root : Board σ} (hspares : root.SparesFiles) {M L : Level σ}
    (hM : root.Has M.address M.board) (hL : root.Has L.address L.board) (hne : M.address ≠ L.address) {w : World σ}
    (h : M.Waits w) : M.Waits (L.board.session.load L.address w).2 := by
  refine waits_of_passes h (Session.load_model?_ne _ _ hne) ?_
  refine @Session.load_disk σ L.board.session (fun d d' => ∀ n, d.node? M.board.session.file = some n →
    d'.node? M.board.session.file = some n) (fun h h' n hn => h' n (h n hn)) w ?_ ?_ L.address
  · intro n hn
    exact Session.stays_readFile M.board.session.lock L.board.session w _ n hn (.inl (Session.file_ne_lock _ _))
  · intro message w n hn
    exact (hspares hL (.question message) hM w).trans hn

theorem entersSound {root : Board σ} (hapart : root.FilesApart) (hspares : root.SparesFiles) (limit : Nat)
    (c : Board σ) : ∀ a, root.Has a c → EntersSound root limit a c := by
  induction c using Board.induction with
  | step c ih =>
    intro a hhas above x g hfits hwaits hg hs
    rw [enterBoard_eq] at hs ⊢
    rcases runWith_cases c (enterFrames limit a 0 c.frames) limit a above x g with
      ⟨f, w, -, hr⟩ | ⟨f, w, -, -, hr⟩ | ⟨loaded, w, hload, hr⟩
    · rw [hr]
      exact hg
    · rw [hr]
      exact hg
    · rw [hr] at hs ⊢
      have hfit : Fits root ⟨c, a, w⟩ above := ⟨hhas, hfits⟩
      have hsettled : Settled ⟨c, a, w⟩ above w := by
        refine ⟨Session.load_model hload, Nat.le_refl _, ⟨fun hj => absurd hj (Nat.lt_irrefl _), fun _ => rfl⟩, ?_⟩
        intro M hM
        obtain ⟨hMhas, q, hq, hq'⟩ := hfits M hM
        have := waits_load hspares (L := ⟨c, a, w⟩) hMhas hhas (address_ne hq hq') (hwaits M hM)
        dsimp only at this
        rw [hload] at this
        exact this
      have hbelow : ∀ {i d condition provider}, c.frames[i]? = some (.story d condition provider) →
          EntersSound root limit (a ++ [i]) d := fun {i d condition provider} hf =>
        ih i d condition provider hf (a ++ [i]) (hhas.snoc hf)
      exact saved_walk hapart hspares hfit hbelow ⟨hg, hsettled⟩ hs

/-- **Before code of a board is evaluated, everything that was journaled is saved.** -/
theorem saved_before_evaluation {b : Board σ} (hapart : b.FilesApart) (hspares : b.SparesFiles) {limit : Nat}
    {x : Value} {w : World σ} (hs : SavesSucceed (b.trace limit x w)) : ∀ m ∈ b.trace limit x w, m.IsSaved := by
  have hs' : SavesSucceed (enterBoard limit [] b [] x ⟨w, []⟩).2.trace :=
    fun m hm => hs m (List.mem_reverse.mpr hm)
  intro m hm
  refine entersSound hapart hspares limit b [] (.here b) [] x ⟨w, []⟩ ?_ ?_ ?_ hs' m (List.mem_reverse.mp hm)
  all_goals
    intro m hm
    cases hm

/-! ### A run with a board below -/

def inner : Board Unit :=
  ⟨"inner", .plain (some "outer") "inner", none, [.work .key "below" none none fun _ w => (.ok (.int 2), w.scene)]⟩

def outer : Board Unit :=
  ⟨"outer", .plain none "outer", none,
    [.work .key "above" none none fun _ w => (.ok (.int 1), w.scene), .story inner none none]⟩

theorem outer_has {p : Address} {c : Board Unit} (h : outer.Has p c) : (p = [] ∧ c = outer) ∨ (p = [1] ∧ c = inner) := by
  cases h with
  | here => exact .inl ⟨rfl, rfl⟩
  | @story _ c _ i p condition provider hf hp =>
    have hi : i = 1 ∧ c = inner := by
      match i, hf with
      | 1, hf =>
        cases hf
        exact ⟨rfl, rfl⟩
    obtain ⟨rfl, rfl⟩ := hi
    cases hp with
    | here => exact .inr ⟨rfl, rfl⟩
    | @story _ _ _ j _ _ _ hf' _ =>
      match j, hf' with
      | 0, hf' => cases hf'

theorem outer_apart : outer.FilesApart := by
  intro p q c d hp hq hne
  have hfiles : inner.session.file ≠ outer.session.file := by decide
  rcases outer_has hp with ⟨rfl, rfl⟩ | ⟨rfl, rfl⟩
  · rcases outer_has hq with ⟨rfl, rfl⟩ | ⟨rfl, rfl⟩
    · exact absurd rfl hne
    · exact hfiles.symm
  · rcases outer_has hq with ⟨rfl, rfl⟩ | ⟨rfl, rfl⟩
    · exact hfiles
    · exact absurd rfl hne

theorem outer_spares : outer.SparesFiles := by
  intro p q c d code hp hcode _ w
  have hstill : (code w).2 = w.scene := by
    refine hcode.all (P := fun code => (code w).2 = w.scene) ?_ ?_
    · rcases outer_has hp with ⟨rfl, rfl⟩ | ⟨rfl, rfl⟩
      · simp [outer, Frame.AllCode]
      · simp [inner, Frame.AllCode]
    · rcases outer_has hp with ⟨rfl, rfl⟩ | ⟨rfl, rfl⟩
      · exact fun _ => rfl
      · exact fun _ => rfl
  rw [hstill]
  rfl

/-- The work below is done in a run that saves everything in time. -/
theorem outer_saved_before_evaluation : (∀ m ∈ outer.trace 9 .null (.blank ()), m.IsSaved) ∧
    ∃ m ∈ outer.trace 9 .null (.blank ()), m.levels.length = 2 ∧ m.acted? = some 0 :=
  ⟨saved_before_evaluation outer_apart outer_spares (by decide +kernel), by decide +kernel⟩

end Board

end Boardwalk
