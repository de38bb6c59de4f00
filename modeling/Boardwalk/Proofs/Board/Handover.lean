import Mathlib.Data.List.Basic
import Boardwalk.Proofs.Board.Cleanup
import Boardwalk.Proofs.Board.Leftover
/-!
# What a story frame hands over

A run in which a board below was entered is the walk to this moment, the run of the board below, and what the board
makes of that run (`run_hands`). An outcome that can be written completes the record in flight, with the outcome for its
output unless that is null (`outcome_recorded_iff`).
-/

namespace Boardwalk.Board

variable {σ : Type}

/-! ## Story frames -/

/-- What a board makes of the run of the board below a story frame. -/
def receive (b : Board σ) (ls : List (Level σ)) (a : Address) (s : Spot σ) : Ending × Stage σ → Halt × Stage σ
  | (.raised f, g) => (.raised f, g)
  | (.unfinished, g) => (.unfinished, g)
  | (.failure f, g) => (.raised (.nested s.name f), g)
  | (.success o, g) =>
    match o.toValue.normal with
    | .error f => (.raised (Session.dumpFault f), g)
    | .ok output => b.conclude ls a output g

theorem story_eq (b : Board σ) (ls : List (Level σ)) (a : Address) (s : Spot σ) (enter : Enter σ)
    (provider : Option (Provider σ)) (v : View) (x : Value) (g : Stage σ) :
    b.story ls a s enter provider v x g = match contextOf ls s.position provider v x g with
      | (.error f, g) => (.raised f, g)
      | (.ok x, g) => b.receive ls a s (enter ls x (b.entering ls a s g)) := by
  unfold story
  cases contextOf ls s.position provider v x g with
  | mk answer g₁ =>
    cases answer with
    | error f => rfl
    | ok x =>
      dsimp only
      unfold entering
      cases enter ls x _ with
      | mk ending g₂ => cases ending <;> rfl

theorem tellsOn_receive (b : Board σ) (ls : List (Level σ)) (a : Address) (s : Spot σ) (r : Ending × Stage σ) :
    TellsOn ls r.2 (b.receive ls a s r).2 := by
  have hR := tellsOn_closed ls
  obtain ⟨ending, g⟩ := r
  cases ending with
  | raised f => exact hR.refl g
  | unfinished => exact hR.refl g
  | failure f => exact hR.refl g
  | success o =>
    unfold receive
    dsimp only
    cases o.toValue.normal with
    | error f => exact hR.refl g
    | ok output => exact ((tellsOn_closedAt ls b a).advances hR.within rfl).conclude output g

def EntersNone (depth : Nat) (g g' : Stage σ) : Prop :=
  ∃ ms, g'.trace = ms ++ g.trace ∧ ∀ i, .entered i ∉ told depth ms

section

variable {b : Board σ} {ls : List (Level σ)} {a : Address} {g g' g'' : Stage σ}

theorem EntersNone.trans {depth : Nat} (h : EntersNone depth g g') (h' : EntersNone depth g' g'') :
    EntersNone depth g g'' := by
  obtain ⟨ms, ht, hms⟩ := h
  obtain ⟨ms', ht', hms'⟩ := h'
  refine ⟨ms' ++ ms, by rw [ht', ht, List.append_assoc], fun i hi => ?_⟩
  rw [told_append] at hi
  rcases List.mem_append.mp hi with hi | hi
  · exact hms i hi
  · exact hms' i hi

theorem Asks.entersNone {es : List Event} (h : Asks b ls es g g') (hes : ∀ i, .entered i ∉ es) :
    EntersNone ls.length g g' := by
  obtain ⟨ms, ht, rfl, -⟩ := h.moments
  exact ⟨ms, ht, hes⟩

theorem Tells.entered_story {x : Value} {t : Timeline} {c : Int} {es : List Event} {rs : Timeline} {turn : Turn}
    (h : Tells b x t c es rs turn) {i : Nat} (hi : .entered i ∈ es) :
    ∃ s d condition provider halt, b.spot? c = some s ∧ s.frame = .story d condition provider ∧
      turn = .halt halt := by
  cases h with
  | outside => cases hi
  | undecided _ hd => exact absurd hi (hd.quiet i)
  | skip _ hd => exact absurd hi (hd.quiet i)
  | unprovided _ hd hp => simp [hd.quiet, hp.quiet] at hi
  | unworked _ _ hd hp => simp [hd.quiet, hp.quiet] at hi
  | work _ _ hd hp => simp [hd.quiet, hp.quiet] at hi
  | unstopped => simp at hi
  | stop => simp at hi
  | lost _ _ hd => exact absurd hi (hd.quiet i)
  | jump _ _ hd => exact absurd hi (hd.quiet i)
  | story hs hf => exact ⟨_, _, _, _, _, hs, hf, rfl⟩
  | concluded hs hf => exact ⟨_, _, _, _, _, hs, hf, rfl⟩

theorem Walks.quiet {x : Value} {t : Timeline} {c c' : Int} {es : List Event} {rs : Timeline}
    (h : Walks b x t c es rs c') (i : Nat) : .entered i ∉ es := by
  induction h with
  | start => exact List.not_mem_nil
  | step _ _ ht ih =>
    intro hi
    rcases List.mem_append.mp hi with hi | hi
    · exact ih hi
    · obtain ⟨_, _, _, _, _, -, -, hturn⟩ := ht.entered_story hi
      cases hturn

end

/-- From a stage on, the board comes to a story frame without entering a board before, and takes over what the board
below comes to. -/
structure Hands (b : Board σ) (limit : Nat) (ls : List (Level σ)) (a : Address) (x : Value) (g : Stage σ)
    (s : Spot σ) (c : Board σ) (x' : Value) (m : Model) (g₁ : Stage σ) (r : Halt × Stage σ) : Prop where
  spot : b.spot? s.cursor = some s
  frame : ∃ condition provider, s.frame = .story c condition provider
  context : s.frame.provider? = none → x' = x
  quiet : EntersNone ls.length g g₁
  model : g₁.world.model? a = some m
  result : r = b.receive ls a s (enterBoard limit (a ++ [s.position]) c ls x' (b.entering ls a s g₁))

theorem Provides.free_eq {s : Spot σ} {v : View} {x x' : Value} {es : List Event} (h : Provides s v x es (.ok x'))
    (hp : s.frame.provider? = none) : x' = x := by
  generalize hr : Except.ok x' = r at h
  cases h with
  | free => exact Except.ok.inj hr
  | asked hp' => cases hp.symm.trans hp'

section

variable {b : Board σ} {limit : Nat} {ls : List (Level σ)} {a : Address} {m : Model} {g : Stage σ}

/-- **A step enters no board, or hands over to the board of its story frame**, and is the last one. -/
theorem turn_hands (hm : g.world.model? a = some m) (x : Value) (cursor : Int) :
    EntersNone ls.length g (b.turn (enterFrames limit a 0 b.frames) ls a x cursor g).2 ∨
      ∃ s c x' g₁ h g', Hands b limit ls a x g s c x' m g₁ (h, g') ∧ s.cursor = cursor ∧
        b.turn (enterFrames limit a 0 b.frames) ls a x cursor g = (.halt h, g') := by
  obtain ⟨ms, rs, hdoes⟩ : ∃ ms rs, Does b ls a 0 x cursor m g ms rs _ _ := turn_does hm (Nat.zero_le _) limit x cursor
  by_cases hquiet : ∀ i, .entered i ∉ told ls.length ms
  · exact .inl ⟨ms, hdoes.spans.trace, hquiet⟩
  · obtain ⟨i, hi⟩ := not_forall.mp hquiet
    obtain ⟨s, c, condition, provider, h, hspot, hf, hturn⟩ := hdoes.tells.entered_story (not_not.mp hi)
    obtain ⟨hframe, hcursor, -⟩ := spot?_some hspot
    obtain ⟨es, hd, he⟩ := taken_asks ls hframe ⟨m.timeline, cursor⟩ g
    -- the frame is known now, so the step can be followed up to the entry
    have hstory := hframe.trans (congrArg some hf)
    unfold turn at hturn ⊢
    rw [hspot, journal_of_model hm] at hturn ⊢
    dsimp only at hturn ⊢
    cases ht : taken ls s ⟨m.timeline, cursor⟩ g with
    | mk answer g₁ =>
      rw [ht] at hd he hturn
      cases answer with
      | error f => exact .inl (he.entersNone hd.quiet)
      | ok yes =>
        cases yes with
        | false => cases hturn
        | true =>
          simp only [hf, enterFrames_story hstory, story_eq] at hturn ⊢
          obtain ⟨es', hp, he'⟩ := contextOf_asks ls hframe ⟨m.timeline, cursor⟩ x g₁
          have hprovider : s.frame.provider? = provider := by simp [hf, Frame.provider?]
          rw [hprovider] at hp he'
          cases hc : contextOf ls s.position provider ⟨m.timeline, cursor⟩ x g₁ with
          | mk answer g₂ =>
            rw [hc] at hp he'
            have hall := he.trans he'
            have hnone := hall.entersNone fun i hi => (List.mem_append.mp hi).elim (hd.quiet i) (hp.quiet i)
            cases answer with
            | error f => exact .inl hnone
            | ok x' =>
              have hspot' : b.spot? s.cursor = some s := by
                rw [hcursor]
                exact hspot
              exact .inr ⟨s, c, x', g₂, _, _,
                ⟨hspot', ⟨_, _, hf⟩, hp.free_eq, hnone, (hall.model a).trans hm, rfl⟩, hcursor, rfl⟩

end

/-! ## Runs -/

def TellsNothing (depth : Nat) (g g' : Stage σ) : Prop := ∃ ms, g'.trace = ms ++ g.trace ∧ told depth ms = []

section

variable {b : Board σ} {limit : Nat} {ls : List (Level σ)} {a : Address} {m : Model} {g g' g'' : Stage σ}

theorem TellsNothing.trans {depth : Nat} (h : TellsNothing depth g g') (h' : TellsNothing depth g' g'') :
    TellsNothing depth g g'' := by
  obtain ⟨ms, ht, hms⟩ := h
  obtain ⟨ms', ht', hms'⟩ := h'
  refine ⟨ms' ++ ms, by rw [ht', ht, List.append_assoc], ?_⟩
  rw [told_append, hms, hms', List.append_nil]

theorem TellsNothing.entersNone {depth : Nat} (h : TellsNothing depth g g') : EntersNone depth g g' := by
  obtain ⟨ms, ht, hms⟩ := h
  refine ⟨ms, ht, fun i hi => ?_⟩
  rw [hms] at hi
  cases hi

variable (ls g) in
theorem turned_tellsNothing (cursor : Int) (turn : Turn) (w : World σ) :
    TellsNothing ls.length g (g.record ⟨ls, .turned cursor turn, w⟩) :=
  ⟨[_], rfl, told_turned ..⟩

variable (b ls a g) in
theorem close_tellsNothing (h : Halt) : TellsNothing ls.length g (b.close ls a (h, g)).2 := by
  cases h with
  | raised f => exact ⟨[], rfl, rfl⟩
  | unfinished => exact ⟨[], rfl, rfl⟩
  | ended => exact ⟨[_], finish_trace b ls a g, told_finished ..⟩

theorem Hands.after {s : Spot σ} {c : Board σ} {x x' : Value} {g₁ : Stage σ} {r : Halt × Stage σ}
    (h : EntersNone ls.length g g') (hh : Hands b limit ls a x g' s c x' m g₁ r) :
    Hands b limit ls a x g s c x' m g₁ r :=
  ⟨hh.spot, hh.frame, hh.context, h.trans hh.quiet, hh.model, hh.result⟩

variable (b limit ls) in
theorem walk_hands (hm : g.world.model? a = some m) (x : Value) :
    EntersNone ls.length g (b.walk (enterFrames limit a 0 b.frames) limit ls a x g).2 ∨
      ∃ s c x' m' g₁ h g' w, Hands b limit ls a x g s c x' m' g₁ (h, g') ∧
        b.walk (enterFrames limit a 0 b.frames) limit ls a x g =
          b.close ls a (h, g'.record ⟨ls, .turned s.cursor (.halt h), w⟩) := by
  rw [walk_eq, journal_of_model hm]
  have hopened : EntersNone ls.length g (b.opened ls a g) := ⟨[_], rfl, by simp⟩
  cases hsteps : b.steps (enterFrames limit a 0 b.frames) ls a x limit m.timeline.cursor (b.opened ls a g) with
  | mk h G =>
    have hmo : (b.opened ls a g).world.model? a = some m := hm
    obtain ⟨_, ms, rs, cursor, g₁, hw, hends⟩ := steps_walked hmo (Nat.le_refl _) limit hsteps
    have hwalked : EntersNone ls.length g g₁ := hopened.trans ⟨ms, hw.spans.trace, hw.walks.quiet⟩
    cases hends with
    | past => exact .inl (hwalked.trans (close_tellsNothing b ls a _ _).entersNone)
    | limit => exact .inl (hwalked.trans (close_tellsNothing b ls a _ _).entersNone)
    | @halt _ _ _ g₂ _ hlt hturn =>
      rcases turn_hands hw.model x cursor with hquiet | ⟨s, c, x', g₃, h', g', hh, rfl, hturn'⟩
      · rw [hturn] at hquiet
        exact .inl ((hwalked.trans hquiet).trans
          ((turned_tellsNothing ls g₂ _ _ _).trans (close_tellsNothing b ls a _ _)).entersNone)
      · rw [hturn] at hturn'
        cases hturn'
        exact .inr ⟨s, c, x', _, g₃, h, g₂, _, hh.after hwalked, rfl⟩

/-! ### The moment at which the board below is entered -/

theorem address_apart (a : Address) (i : Nat) (p : Address) : a ≠ a ++ [i] ++ p := by
  simp

theorem entering_trace (hm : g.world.model? a = some m) (ls : List (Level σ)) (s : Spot σ) :
    (∃ answer w, (b.entering ls a s g).trace =
      ⟨ls, .entered s.position, (b.entering ls a s g).world⟩ :: ⟨ls, .saved answer, w⟩ :: g.trace) ∧
    (b.entering ls a s g).world.model? a = some ⟨m.board, m.timeline ++ [s.inFlight m.timeline]⟩ := by
  obtain ⟨answer, h⟩ := adds_commits b ls (n := 0) hm (adds_entry hm s.name s.kind s.position (.dict []) false)
    (.concat 0 _ rfl)
  refine ⟨⟨answer, add a s.name s.kind s.position (.dict []) false g.world, ?_⟩, h.model⟩
  unfold entering
  rw [Stage.note_trace, h.spans.trace]
  rfl

variable (b ls) in
theorem receive_tellsNothing {s : Spot σ} {c : Board σ} {condition : Option (Condition σ)}
    {provider : Option (Provider σ)} (hf : s.frame = .story c condition provider) {name : String} {t : Timeline}
    {r : Ending × Stage σ} (hm : r.2.world.model? a = some ⟨name, t ++ [s.inFlight t]⟩) :
    TellsNothing ls.length r.2 (b.receive ls a s r).2 := by
  have hrefl : TellsNothing ls.length r.2 r.2 := ⟨[], rfl, rfl⟩
  obtain ⟨ending, g⟩ := r
  cases ending with
  | raised f => exact hrefl
  | unfinished => exact hrefl
  | failure f => exact hrefl
  | success o =>
    unfold receive
    dsimp only
    cases o.toValue.normal with
    | error f => exact hrefl
    | ok output =>
      obtain ⟨ms, -, htold, hc⟩ := conclude_commits (b := b) (n := 0) ls hf hm (Nat.zero_le _) output
      exact ⟨ms, hc.spans.trace, htold⟩

/-- Before the board below is entered no other one was, and afterwards the board only tells of it. -/
theorem Hands.entry {s : Spot σ} {c : Board σ} {x x' : Value} {g₁ : Stage σ} {r : Halt × Stage σ}
    (h : Hands b limit ls a x g s c x' m g₁ r) : ∃ w ms ms',
      w.model? a = some ⟨m.board, m.timeline ++ [s.inFlight m.timeline]⟩ ∧
      r.2.trace = ms ++ ⟨ls, .entered s.position, w⟩ :: (ms' ++ g.trace) ∧
      told ls.length ms = [] ∧ (∀ i, .entered i ∉ told ls.length ms') ∧
      r = b.receive ls a s (enterBoard limit (a ++ [s.position]) c ls x'
        ⟨w, ⟨ls, .entered s.position, w⟩ :: (ms' ++ g.trace)⟩) := by
  obtain ⟨condition, provider, hf⟩ := h.frame
  obtain ⟨⟨answer, w', htrace⟩, hmodel⟩ := entering_trace (b := b) h.model ls s
  obtain ⟨ms₁, hbefore, hquiet⟩ := h.quiet
  have hresult := h.result
  rw [hbefore] at htrace
  generalize b.entering ls a s g₁ = entered at htrace hmodel hresult
  obtain ⟨w, trace⟩ := entered
  dsimp only at htrace hmodel
  subst htrace
  -- the boards below tell of nothing on this level
  obtain ⟨ms₂, hbelow, hdeeper, hsame⟩ := enterBoard_below limit c (address_apart a s.position) ls x'
    ⟨w, ⟨ls, .entered s.position, w⟩ :: ⟨ls, .saved answer, w'⟩ :: (ms₁ ++ g.trace)⟩
  have hreceived := receive_tellsNothing b ls hf (hsame.trans hmodel)
  rw [← hresult] at hreceived
  obtain ⟨ms, hms, htold⟩ : TellsNothing ls.length _ r.2 :=
    .trans ⟨ms₂, hbelow, told_deeper fun m hm => (hdeeper m hm).1⟩ hreceived
  refine ⟨w, ms, ⟨ls, .saved answer, w'⟩ :: ms₁, hmodel, hms, htold, ?_, hresult⟩
  rw [told_saved]
  exact hquiet

/-- At a moment of a run the board below a story frame is entered. The record of the frame is in flight. -/
structure Handover (b : Board σ) (a : Address) (x : Value) (i : Nat) (entry : Moment σ) (s : Spot σ) (c : Board σ)
    (x' : Value) (name : String) (t : Timeline) : Prop where
  spot : b.spot? s.cursor = some s
  position : s.position = i
  frame : ∃ condition provider, s.frame = .story c condition provider
  context : s.frame.provider? = none → x' = givenContext x
  model : entry.world.model? a = some ⟨name, t ++ [s.inFlight t]⟩

section

variable {x x' : Value} {i : Nat} {entry : Moment σ} {s : Spot σ} {c : Board σ} {name : String} {t : Timeline}
  (h : Handover b a x i entry s c x' name t)
include h

theorem Handover.frame_eq {f : Frame σ} (hf : b.frames[i]? = some f) : s.frame = f := by
  have hs := (spot?_some h.spot).1
  rw [h.position, hf] at hs
  exact (Option.some.inj hs).symm

theorem Handover.board_eq {d : Board σ} {condition : Option (Condition σ)} {provider : Option (Provider σ)}
    (hf : b.frames[i]? = some (.story d condition provider)) : c = d := by
  obtain ⟨_, _, hs⟩ := h.frame
  cases hs.symm.trans (h.frame_eq hf)
  rfl

end

section

variable {above : List (Level σ)} {x : Value} {i : Nat} {entry : Moment σ} {ms ms' : List (Moment σ)}
  (htrace : (enterBoard limit a b above x g).2.trace = ms ++ entry :: (ms' ++ g.trace))
  (hlevel : entry.levels.length = above.length + 1) (hentry : entry.entered? = some i)
include htrace hlevel hentry

/-- **A run in which a board below is entered** is the walk to the story frame, the run of the board below from this
moment on, and what the board makes of that run. -/
theorem run_hands : ∃ s c x' name t h g' w, Handover b a x i entry s c x' name t ∧
    b.receive entry.levels a s
      (enterBoard limit (a ++ [i]) c entry.levels x' ⟨entry.world, entry :: (ms' ++ g.trace)⟩) = (h, g') ∧
    enterBoard limit a b above x g =
      b.close entry.levels a (h, g'.record ⟨entry.levels, .turned s.cursor (.halt h), w⟩) := by
  rw [enterBoard_eq] at htrace ⊢
  rcases runWith_cases b (enterFrames limit a 0 b.frames) limit a above x g with
    ⟨f, w, -, hr⟩ | ⟨f, w, -, -, hr⟩ | ⟨answer, w, hload, hr⟩
  · -- a board that does not start enters no other one
    rw [hr] at htrace
    have hlength := congrArg List.length htrace
    simp at hlength
    omega
  · rw [hr] at htrace
    have hlength := congrArg List.length htrace
    simp at hlength
    omega
  · rw [hr] at htrace ⊢
    obtain ⟨m, hm⟩ := Session.load_model hload
    have hnot : ∀ {l : List (Moment σ)}, .entered i ∉ told (above.length + 1) l → entry ∉ l :=
      fun hl hmem => hl (mem_told hmem (own?_entered hlevel hentry))
    rcases walk_hands b limit (⟨b, a, w⟩ :: above) (g := g.withWorld w) hm (givenContext x) with
      ⟨ms₁, ht, hquiet⟩ | ⟨s, c, x', m', g₁, h, g', w', hh, hwalk⟩
    · rw [htrace, ← List.cons_append, ← List.append_assoc] at ht
      have hms := List.append_cancel_right ht
      exact absurd (hms ▸ List.mem_append_right ms List.mem_cons_self) (hnot (hquiet i))
    · obtain ⟨w₁, ms₁, ms₂, hmodel, htrace₁, htold, hquiet, hresult⟩ := hh.entry
      obtain ⟨ms₃, htrace₃, htold₃⟩ : TellsNothing (above.length + 1) g' (b.walk (enterFrames limit a 0 b.frames)
          limit (⟨b, a, w⟩ :: above) a (givenContext x) (g.withWorld w)).2 := by
        rw [hwalk]
        exact (turned_tellsNothing _ g' _ _ _).trans (close_tellsNothing b _ a _ _)
      -- the entry stands out: nothing else on this level tells of one
      have hsplit : ms₃ ++ ms₁ ++ ⟨⟨b, a, w⟩ :: above, .entered s.position, w₁⟩ :: ms₂ = ms ++ entry :: ms' := by
        rw [htrace₃, htrace₁] at htrace
        refine List.append_cancel_right (show _ ++ g.trace = _ ++ g.trace from ?_)
        simpa using htrace
      have hbehind : .entered i ∉ told (above.length + 1) (ms₃ ++ ms₁) := by
        rw [told_append, htold₃, show told (above.length + 1) ms₁ = [] from htold]
        exact List.not_mem_nil
      obtain ⟨rfl, rfl, rfl⟩ := (List.append_cons_inj_of_notMem (hnot hbehind) (hnot (hquiet i))).mp hsplit
      obtain rfl : s.position = i := Option.some.inj hentry
      exact ⟨s, c, x', m'.board, m'.timeline, h, g', w', ⟨hh.spot, rfl, hh.frame, hh.context, hmodel⟩, hresult.symm,
        hwalk⟩

/-- **An outcome of the board below completes the record in flight**: nothing else of the record changes, and its
output is the outcome as it is written, just if that is not null. -/
theorem outcome_recorded_iff : ∃ s c x' name t, Handover b a x i entry s c x' name t ∧
    ∀ {o output g'}, enterBoard limit (a ++ [i]) c entry.levels x' ⟨entry.world, entry :: (ms' ++ g.trace)⟩ =
        (.success o, g') → o.toValue.normal = .ok output →
      ∃ r g₁, enterBoard limit a b above x g = b.finish entry.levels a g₁ ∧
        g₁.world.model? a = some ⟨name, t ++ [r]⟩ ∧
        (∃ y, r = { s.inFlight t with output := y, completed := .bool true }) ∧
        (r = { s.inFlight t with output := Value.ofJson output, completed := .bool true } ↔ output ≠ .null) := by
  obtain ⟨s, c, x', name, t, h, g₂, w, hover, hreceive, hrun⟩ := run_hands htrace hlevel hentry
  refine ⟨s, c, x', name, t, hover, fun {o output g'} hbelow ho => ?_⟩
  obtain ⟨condition, provider, hf⟩ := hover.frame
  -- the board below left the journal alone, so the record is still in flight
  obtain ⟨-, -, -, hsame⟩ := enterBoard_below limit c (address_apart a i) entry.levels x'
    ⟨entry.world, entry :: (ms' ++ g.trace)⟩
  rw [hbelow] at hreceive hsame
  have hinflight : g'.world.model? a = some ⟨name, t ++ [s.inFlight t]⟩ := hsame.trans hover.model
  have hconclude : b.conclude entry.levels a output g' = (h, g₂) := by
    unfold receive at hreceive
    dsimp only at hreceive
    rwa [ho] at hreceive
  obtain ⟨_, hended, -, hcommits⟩ :=
    conclude_commits (b := b) (n := 0) entry.levels hf hinflight (Nat.zero_le _) output
  rw [hconclude] at hended hcommits
  dsimp only at hended
  subst hended
  refine ⟨s.concluded t output, _, hrun, hcommits.model, ⟨_, rfl⟩, ?_⟩
  unfold Spot.concluded Spot.inFlight Timeline.entry
  cases output <;> simp [Value.ofJson, Value.isNull]

end

end

/-! ## Outcomes that are recorded -/

def errand (answer : Value) : Board Unit :=
  ⟨"n", .plain (some "p") "n", some fun _ => .ok answer, [.work .key "A" none none fun _ w => (.ok (.int 1), w.scene)]⟩

def errands (answer : Value) : Board Unit := ⟨"p", .plain none "p", none, [.story (errand answer) none none]⟩

def errandsRun (answer : Value) : Ending × Stage Unit := enterBoard 9 [] (errands answer) [] .null ⟨.blank (), []⟩

theorem errands_frame {answer : Value} {s : Spot Unit} (h : (errands answer).spot? s.cursor = some s) :
    s.position = 0 ∧ s.frame = .story (errand answer) none none := by
  obtain ⟨hframe, -, -⟩ := spot?_some h
  match hp : s.position, hframe with
  | 0, hframe => exact ⟨rfl, (Option.some.inj hframe).symm⟩

theorem errandsRun_length : 8 < (errandsRun (.str "x")).2.trace.length := by
  decide +kernel

def errandsEntry : Moment Unit := (errandsRun (.str "x")).2.trace.get ⟨8, errandsRun_length⟩

def errandsBelow : Ending × Stage Unit :=
  enterBoard 9 [0] (errand (.str "x")) errandsEntry.levels (.dict [])
    ⟨errandsEntry.world, errandsEntry :: ((errandsRun (.str "x")).2.trace.drop 9 ++ [])⟩

theorem eq_take_get_drop {α : Type} {l : List α} {n : Nat} (h : n < l.length) :
    l = l.take n ++ l.get ⟨n, h⟩ :: (l.drop (n + 1) ++ []) := by
  rw [List.append_nil, List.get_eq_getElem, List.getElem_cons_drop, List.take_append_drop]

theorem errandsRun_eq (answer : Value) :
    enterBoard 9 [] (errands answer) [] .null ⟨.blank (), []⟩ = errandsRun answer := rfl

theorem errandsBelow_answers : ∃ g', errandsBelow = (.success (.value (.str "x")), g') := by
  obtain ⟨o, ho⟩ := Ending.exists_outcome (show errandsBelow.1.isSuccess = true by decide +kernel)
  have hpair {r : Ending × Stage Unit} (h : r.1 = .success o) : r = (.success o, r.2) := Prod.ext h rfl
  have hbelow := hpair ho
  rcases enterBoard_finish 9 (errand (.str "x")) [0] errandsEntry.levels (.dict []) ⟨errandsEntry.world,
      errandsEntry :: ((errandsRun (.str "x")).2.trace.drop 9 ++ [])⟩ with ⟨w, g', -, hr⟩ | ⟨hno, -⟩
  · obtain ⟨hresolve, -⟩ := finish_success (hr.symm.trans hbelow)
    cases hresolve
    exact ⟨_, hbelow⟩
  · exact absurd ho (hno o)

/-- An answer that is not null is what the record of the story frame has for its output. -/
theorem errands_recorded : ∃ s t g₁, (errands (.str "x")).spot? s.cursor = some s ∧
    errandsRun (.str "x") = (errands (.str "x")).finish errandsEntry.levels [] g₁ ∧
    g₁.world.journal [] = t ++ [{ s.inFlight t with output := .str "x", completed := .bool true }] := by
  have htrace : (enterBoard 9 [] (errands (.str "x")) [] .null ⟨.blank (), []⟩).2.trace =
      (errandsRun (.str "x")).2.trace.take 8 ++ errandsEntry :: ((errandsRun (.str "x")).2.trace.drop 9 ++ []) := by
    rw [errandsRun_eq]
    exact eq_take_get_drop errandsRun_length
  obtain ⟨s, c, x', name, t, hover, hrecorded⟩ :=
    outcome_recorded_iff htrace (by decide +kernel) (show errandsEntry.entered? = some 0 by decide +kernel)
  obtain ⟨hposition, hf⟩ := errands_frame hover.spot
  obtain ⟨condition, provider, hf'⟩ := hover.frame
  cases hf.symm.trans hf'
  obtain rfl : x' = .dict [] := hover.context (by rw [hf]; rfl)
  obtain ⟨g', hbelow⟩ := errandsBelow_answers
  obtain ⟨r, g₁, hrun, hmodel, -, hr⟩ := hrecorded hbelow rfl
  refine ⟨s, t, g₁, hover.spot, hrun, ?_⟩
  rw [journal_of_model hmodel, hr.mpr (by simp)]
  rfl

/-- A null answer leaves the record of the story frame with the output it was added with. -/
theorem errands_null : (∀ t, (errand .null).resolve t = .ok (.value .null)) ∧
    (Outcome.value .null).toValue.normal = .ok .null ∧
    (match (errandsRun .null).1 with
      | .success (.records t) => (t matches [⟨.int 0, "n", "story_frame", .dict [], .bool true, .int 0⟩])
      | _ => false) = true :=
  ⟨fun _ => rfl, rfl, by decide +kernel⟩

end Boardwalk.Board
