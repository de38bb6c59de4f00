import Boardwalk.Proofs.Board.Closure
import Boardwalk.Proofs.Session.Stored
/-!
# What a run leaves alone

A run only adds to its record (`Extends`), and what its steps preserve holds where the last one sets in
(`steps_ends`). It leaves the locks of others and the journals of boards outside its tree alone, and on the disk
it does to the other places what the code of its boards does there.
-/

namespace Boardwalk.Board

variable {σ : Type}

/-! ## The record -/

def Extends (g g' : Stage σ) : Prop := ∃ ms, g'.trace = ms ++ g.trace

theorem Extends.mem {g g' : Stage σ} (h : Extends g g') {m : Moment σ} (hm : m ∈ g.trace) : m ∈ g'.trace := by
  obtain ⟨ms, h⟩ := h
  rw [h]
  exact List.mem_append_right ms hm

theorem extends_closed : Closed (@Extends σ) where
  refl g := ⟨[], rfl⟩
  trans := by
    rintro g g' g'' ⟨ms, h⟩ ⟨ms', h'⟩
    exact ⟨ms' ++ ms, by rw [h', h, List.append_assoc]⟩
  record g m := ⟨[m], rfl⟩
  report g e := ⟨[], rfl⟩

theorem extends_closedAt (b : Board σ) (a : Address) : ClosedAt Extends b a where
  call _ _ := ⟨[], rfl⟩
  journal _ _ := ⟨[], rfl⟩
  save _ := ⟨[], rfl⟩
  load _ := ⟨[], rfl⟩
  clear _ := ⟨[], rfl⟩

theorem finish_trace (b : Board σ) (ls : List (Level σ)) (a : Address) (g : Stage σ) :
    (b.finish ls a g).2.trace = ⟨ls, .finished, g.world⟩ :: g.trace := by
  unfold finish
  dsimp only
  split
  · rfl
  · split
    · rfl
    · rfl

def TellsOn (ls : List (Level σ)) (g g' : Stage σ) : Prop := ∃ ms, g'.trace = ms ++ g.trace ∧ ∀ m ∈ ms, m.levels = ls

theorem tellsOn_closed (ls : List (Level σ)) : ClosedOn (· = ls) (TellsOn ls) where
  refl g := ⟨[], rfl, nofun⟩
  trans h h' := by
    obtain ⟨ms, ht, hms⟩ := h
    obtain ⟨ms', ht', hms'⟩ := h'
    exact ⟨ms' ++ ms, by rw [ht', ht, List.append_assoc], fun m hm => (List.mem_append.mp hm).elim (hms' m) (hms m)⟩
  record h ls' hls e := by
    obtain ⟨ms, ht, hms⟩ := h
    refine ⟨_ :: ms, by rw [Stage.record_trace, ht, List.cons_append], fun m hm => ?_⟩
    rcases List.mem_cons.mp hm with rfl | hm
    · exact hls
    · exact hms m hm
  report g e := ⟨[], rfl, nofun⟩

theorem tellsOn_closedAt (ls : List (Level σ)) (b : Board σ) (a : Address) : ClosedAt (TellsOn ls) b a where
  call _ _ := ⟨[], rfl, nofun⟩
  journal _ _ := ⟨[], rfl, nofun⟩
  save _ := ⟨[], rfl, nofun⟩
  load _ := ⟨[], rfl, nofun⟩
  clear _ := ⟨[], rfl, nofun⟩

theorem tellsOn_record (ls : List (Level σ)) (g : Stage σ) (e : Event) (w : World σ) :
    TellsOn ls g (g.record ⟨ls, e, w⟩) :=
  ⟨[_], rfl, fun _ hm => congrArg Moment.levels (List.mem_singleton.mp hm)⟩

theorem tellsOn_finish (b : Board σ) (ls : List (Level σ)) (a : Address) (g : Stage σ) :
    TellsOn ls g (b.finish ls a g).2 :=
  (tellsOn_closedAt ls b a).finish (tellsOn_closed ls) (fun _ => tellsOn_closedAt ls _ _) rfl g

theorem TellsOn.toExtends {ls : List (Level σ)} {g g' : Stage σ} (h : TellsOn ls g g') : Extends g g' := by
  obtain ⟨ms, ht, -⟩ := h
  exact ⟨ms, ht⟩

/-! ## The last step -/

inductive Ends (b : Board σ) (enters : List (Enter σ)) (ls : List (Level σ)) (a : Address) (x : Value) :
    Nat → Int → Stage σ → Halt → Stage σ → Prop where
  | past {n : Nat} {cursor : Int} {g : Stage σ} : (b.frames.length : Int) ≤ cursor →
      Ends b enters ls a x n cursor g .ended g
  | limit {cursor : Int} {g : Stage σ} : cursor < b.frames.length → Ends b enters ls a x 0 cursor g .unfinished g
  | halt {n : Nat} {cursor : Int} {g g' : Stage σ} {h : Halt} : cursor < b.frames.length →
      b.turn enters ls a x cursor g = (.halt h, g') →
      Ends b enters ls a x (n + 1) cursor g h (g'.record ⟨ls, .turned cursor (.halt h), g.world⟩)

/-- **What every step that goes on preserves holds where the last one sets in.** The steps may rely on the moments
of the whole walk, since the record only grows. -/
theorem steps_ends {b : Board σ} {enters : List (Enter σ)} {ls : List (Level σ)} {a : Address} {x : Value}
    (he : ∀ enter ∈ enters, ∀ ls x g, Extends g (enter ls x g).2) {G : Stage σ} {P : Nat → Int → Stage σ → Prop}
    (hnext : ∀ {n cursor c g g'}, P (n + 1) cursor g → cursor < b.frames.length →
      b.turn enters ls a x cursor g = (.next c, g') →
      Extends (g'.record ⟨ls, .turned cursor (.next c), g.world⟩) G →
      P n c (g'.record ⟨ls, .turned cursor (.next c), g.world⟩)) (n : Nat) :
    ∀ {cursor : Int} {g : Stage σ} {h : Halt}, P n cursor g → b.steps enters ls a x n cursor g = (h, G) →
      ∃ n' cursor' g', P n' cursor' g' ∧ Ends b enters ls a x n' cursor' g' h G := by
  induction n with
  | zero =>
    intro cursor g h hp hs
    unfold steps at hs
    split at hs
    · rename_i hle
      cases hs
      exact ⟨0, cursor, _, hp, .past hle⟩
    · rename_i hlt
      cases hs
      exact ⟨0, cursor, _, hp, .limit (Int.not_le.mp hlt)⟩
  | succ n ih =>
    intro cursor g h hp hs
    unfold steps at hs
    split at hs
    · rename_i hle
      cases hs
      exact ⟨n + 1, cursor, _, hp, .past hle⟩
    · rename_i hlt
      dsimp only at hs
      have hlt' : cursor < b.frames.length := Int.not_le.mp hlt
      split at hs
      · rename_i ht
        cases hs
        exact ⟨n + 1, cursor, g, hp, .halt hlt' ht⟩
      · rename_i c g' ht
        have hext : Extends _ (b.steps enters ls a x n c (g'.record ⟨ls, .turned cursor (.next c), g.world⟩)).2 :=
          (extends_closedAt b a).steps extends_closed.on trivial (fun enter hm ls _ => he enter hm ls) x n c _
        rw [hs] at hext
        exact ih (hnext hp hlt' ht hext) hs

/-! ## The locks of others -/

theorem held_closed : Closed fun g g' : Stage σ => g'.world.held = g.world.held where
  refl _ := rfl
  trans h h' := h'.trans h
  record _ _ := rfl
  report _ _ := rfl

theorem withJournal_held (w : World σ) (a : Address) (t : Timeline) : (w.withJournal a t).held = w.held := by
  unfold World.withJournal
  split
  · rfl
  · rfl

theorem held_closedAt (b : Board σ) (a : Address) :
    ClosedAt (fun g g' : Stage σ => g'.world.held = g.world.held) b a where
  call _ _ := rfl
  journal t g := withJournal_held g.world a t
  save g := (Session.save_rest b.session a g.world).2.2
  load g := Session.load_held b.session a g.world
  clear g := Session.clear_held b.session a g.world

/-! ## The journals of other boards -/

theorem model?_withJournal_ne (w : World σ) (t : Timeline) {a a' : Address} (h : a' ≠ a) :
    (w.withJournal a t).model? a' = w.model? a' := by
  unfold World.withJournal
  split
  · exact World.model?_remember_ne w _ h
  · rfl

theorem model_closedAt (b : Board σ) {a a' : Address} (h : a' ≠ a) :
    ClosedAt (fun g g' : Stage σ => g'.world.model? a' = g.world.model? a') b a where
  call _ _ := rfl
  journal t g := model?_withJournal_ne g.world t h
  save g := by
    unfold World.model?
    rw [Stage.withWorld_world, (Session.save_rest b.session a g.world).1]
  load g := Session.load_model?_ne b.session g.world h
  clear g := Session.clear_model?_ne b.session g.world h

/-! ## The disk -/

structure Bears (K : Disk → Disk → Prop) (b : Board σ) : Prop where
  refl : ∀ d, K d d
  trans : ∀ {d d' d''}, K d d' → K d' d'' → K d d''
  calls : ∀ {code}, b.Calls code → ∀ w, K w.disk (code w).2.disk
  stays : ∀ {d d'}, Disk.StaysBut b.session.file d d' → K d d'

theorem disk_closed {K : Disk → Disk → Prop} {b : Board σ} (h : Bears K b) :
    Closed fun g g' : Stage σ => K g.world.disk g'.world.disk where
  refl _ := h.refl _
  trans h₁ h₂ := h.trans h₁ h₂
  record _ _ := h.refl _
  report _ _ := h.refl _

theorem withJournal_disk (w : World σ) (a : Address) (t : Timeline) : (w.withJournal a t).disk = w.disk := by
  unfold World.withJournal
  split
  · rfl
  · rfl

theorem disk_closedAt {K : Disk → Disk → Prop} {b : Board σ} (h : Bears K b) (a : Address) :
    ClosedAt (fun g g' : Stage σ => K g.world.disk g'.world.disk) b a where
  call hc g := h.calls hc g.world
  journal t g := by
    rw [Stage.withWorld_world, withJournal_disk]
    exact h.refl _
  save g := h.stays (Session.stays_save b.session a g.world)
  load g := @Session.load_disk σ b.session K h.trans g.world (h.stays (Session.stays_readFile _ b.session g.world))
    (fun message w => h.calls (.question message) w) a
  clear g := h.stays (Session.stays_clear b.session a g.world)

/-! ## Runs of the boards below -/

section

variable (limit : Nat) (b : Board σ) (a : Address) (ls : List (Level σ)) (x : Value) (g : Stage σ)

theorem enterBoard_extends : Extends g (enterBoard limit a b ls x g).2 :=
  extends_closed.enterBoard limit b a (fun p c _ => extends_closedAt c (a ++ p)) ls x g

theorem steps_extends (n : Nat) (cursor : Int) :
    Extends g (b.steps (enterFrames limit a 0 b.frames) ls a x n cursor g).2 :=
  (extends_closedAt b a).steps extends_closed.on trivial (fun enter hm ls _ => extends_closed.enterFrames
    (fun p c _ => extends_closedAt c (a ++ p)) enter hm ls) x n cursor g

theorem conclude_extends (output : Json) : Extends g (b.conclude ls a output g).2 :=
  ((extends_closedAt b a).advances extends_closed.on.within trivial).conclude output g

theorem close_extends (h : Halt) : Extends g (b.close ls a (h, g)).2 :=
  (extends_closedAt b a).close extends_closed.on (fun _ => extends_closedAt _ _) trivial h g

theorem enterBoard_held : (enterBoard limit a b ls x g).2.world.held = g.world.held :=
  held_closed.enterBoard limit b a (fun p c _ => held_closedAt c (a ++ p)) ls x g

theorem enterBoard_disk {K : Disk → Disk → Prop} (h : ∀ p c, b.Has p c → Bears K c) :
    K g.world.disk (enterBoard limit a b ls x g).2.world.disk :=
  (disk_closed (h [] b (.here b))).enterBoard limit b a (fun p c hc => disk_closedAt (h p c hc) (a ++ p)) ls x g

end

end Boardwalk.Board
