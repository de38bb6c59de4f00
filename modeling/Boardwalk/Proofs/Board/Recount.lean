import Boardwalk.Proofs.Board.Account
import Boardwalk.Proofs.Board.Saving
/-!
# What a run tells and journals

The steps of a run follow one another, each at the cursor where the one before went on, in the journal that it left
(`Recounts`). The journal is the loaded one with their records behind it (`run_recounted`), and at no moment was
anything else of it changed than a record in flight (`journal_prolonged`).
-/

namespace Boardwalk.Board

variable {σ : Type}

/-! ## Steps after one another -/

/-- Steps from a cursor on, with what they tell and journal, and the cursor behind them. -/
inductive Walks (b : Board σ) (x : Value) (t : Timeline) (c : Int) : List Event → Timeline → Int → Prop where
  | start : Walks b x t c [] [] c
  | step {es es' : List Event} {rs rs' : Timeline} {c' c'' : Int} : Walks b x t c es rs c' → c' < b.frames.length →
      Tells b x (t ++ rs) c' es' rs' (.next c'') → Walks b x t c (es ++ es') (rs ++ rs') c''

/-- All steps of a walk, and how it ends: behind the last frame, at the limit, or with a step. -/
inductive Recounts (b : Board σ) (x : Value) (t : Timeline) (c : Int) : List Event → Timeline → Halt → Prop where
  | past {es : List Event} {rs : Timeline} {c' : Int} : Walks b x t c es rs c' → (b.frames.length : Int) ≤ c' →
      Recounts b x t c es rs .ended
  | limit {es : List Event} {rs : Timeline} {c' : Int} : Walks b x t c es rs c' → c' < b.frames.length →
      Recounts b x t c es rs .unfinished
  | last {es es' : List Event} {rs rs' : Timeline} {c' : Int} {h : Halt} : Walks b x t c es rs c' →
      c' < b.frames.length → Tells b x (t ++ rs) c' es' rs' (.halt h) → Recounts b x t c (es ++ es') (rs ++ rs') h

/-! ## Records that end a board, and the frames of records -/

def EndRecord (r : Record) : Prop := r.kind = "story_frame" ∨ r.kind = "stop_frame" ∧ r.output = .bool true

def Names (b : Board σ) (r : Record) : Prop :=
  ∃ p f, b.frames[p]? = some f ∧ r.name = f.nameAt p ∧ r.frameIndex = .int (p : Nat)

section

variable {b : Board σ} {x : Value} {t : Timeline} {c : Int} {es : List Event} {rs : Timeline} {turn : Turn}

theorem names_entry {s : Spot σ} (hs : b.spot? c = some s) (t : Timeline) (kind : String) (output : Value)
    (completed : Bool) : b.Names (t.entry s.name kind s.position output completed) :=
  ⟨s.position, s.frame, (spot?_some hs).1, rfl, rfl⟩

theorem skipped_names {is : List Int} (h : ∀ i ∈ is, 0 ≤ i ∧ i < b.frames.length) (t : Timeline) :
    ∃ gaps, b.skipped t is = t ++ gaps ∧ ∀ r ∈ gaps, b.Names r ∧ ¬ EndRecord r := by
  induction is generalizing t with
  | nil => exact ⟨[], by simp [skipped], by simp⟩
  | cons i is ih =>
    obtain ⟨h₀, hlt⟩ := h i List.mem_cons_self
    obtain ⟨s, hs⟩ := spot?_of_lt h₀ hlt
    have hname : ((b.spot? i).map Spot.name).getD "" = s.name := by simp [hs]
    have hposition := (spot?_some hs).2.2 h₀
    obtain ⟨gaps, he, hgaps⟩ := ih (fun j hj => h j (List.mem_cons_of_mem _ hj))
      (t ++ [t.entry s.name emptyKind s.position (.dict []) true])
    refine ⟨t.entry s.name emptyKind s.position (.dict []) true :: gaps, ?_, fun r hr => ?_⟩
    · rw [skipped, hname, ← hposition, he, List.append_assoc]
      rfl
    · rcases List.mem_cons.mp hr with rfl | hr
      · exact ⟨names_entry hs t _ _ _, by simp [EndRecord, Timeline.entry, emptyKind]⟩
      · exact hgaps r hr

theorem mem_between {i cursor : Int} {k : Nat} (h : i ∈ between cursor k) : cursor < i ∧ i < k := by
  obtain ⟨j, hj, rfl⟩ := List.mem_map.mp h
  have := List.mem_range.mp hj
  omega

theorem Tells.names (h : Tells b x t c es rs turn) (h₀ : 0 ≤ c) : ∀ r ∈ rs, b.Names r := by
  cases h with
  | outside => simp
  | undecided => simp
  | skip hs => simpa using names_entry hs ..
  | unprovided => simp
  | unworked => simp
  | work hs => simpa using names_entry hs ..
  | unstopped => simp
  | stop hs => simpa using names_entry hs ..
  | lost hs => simpa using names_entry hs ..
  | @jump s target condition es k gaps hs hf hd hk hskip =>
    have hin : ∀ i ∈ between c k, 0 ≤ i ∧ i < b.frames.length := fun i hi => by
      have := mem_between hi
      have := jumpTarget_lt hk
      omega
    obtain ⟨gaps', he, hgaps⟩ := skipped_names hin (t ++ [t.entry _ _ _ _ true])
    rw [he] at hskip
    obtain rfl := List.append_cancel_left hskip
    intro r hr
    rcases List.mem_cons.mp hr with rfl | hr
    · exact names_entry hs ..
    · exact (hgaps r hr).1
  | story hs => simpa [Spot.inFlight] using names_entry hs ..
  | concluded hs => simpa using names_entry hs ..

theorem skip_goes_on (t : Timeline) (s : Spot σ) :
    ¬ EndRecord (t.entry s.name emptyKind s.position (.dict []) true) := by
  simp [EndRecord, Timeline.entry, emptyKind]

theorem prepared_goes_on {s : Spot σ} {v : View} {es es' : List Event} {r : Except Fault Bool}
    {r' : Except Fault Value} (hd : Decides s v es r) (hp : Provides s v x es' r') :
    ∀ e ∈ es ++ es', ¬ e.EndsBoard := by
  intro e he
  rcases List.mem_append.mp he with he | he
  · exact hd.goes_on e he
  · exact hp.goes_on e he

theorem Tells.goes_on {c' : Int} (h : Tells b x t c es rs turn) (hturn : turn = .next c') (h₀ : 0 ≤ c) :
    0 ≤ c' ∧ (∀ r ∈ rs, ¬ EndRecord r) ∧ ∀ e ∈ es, ¬ e.EndsBoard := by
  cases h with
  | skip _ hd =>
    cases hturn
    exact ⟨by omega, by simpa using skip_goes_on t _, hd.goes_on⟩
  | @work s kind name condition provider action es es' x' y hs hf hd hp =>
    cases hturn
    refine ⟨by omega, ?_, ?_⟩
    · cases kind <;> simp [EndRecord, Timeline.entry, Spot.kind, hf, Frame.kind]
    · intro e he
      rcases List.mem_append.mp he with he | he
      · exact prepared_goes_on hd hp e he
      · simp [List.mem_singleton.mp he, Event.EndsBoard]
  | @stop s given cond y hs hf =>
    cases hy : y.truth with
    | true => simp [hy] at hturn
    | false =>
      simp only [hy, Bool.false_eq_true, if_false] at hturn
      cases hturn
      refine ⟨by omega, ?_, ?_⟩
      · simp [EndRecord, Timeline.entry, Spot.kind, hf, Frame.kind]
      · simp [Event.EndsBoard, hy]
  | @jump s target condition es k gaps hs hf hd hk hskip =>
    cases hturn
    have hin : ∀ i ∈ between c k, 0 ≤ i ∧ i < b.frames.length := fun i hi => by
      have := mem_between hi
      have := jumpTarget_lt hk
      omega
    obtain ⟨gaps', he, hgaps⟩ := skipped_names hin (t ++ [t.entry _ _ _ _ true])
    rw [he] at hskip
    obtain rfl := List.append_cancel_left hskip
    refine ⟨Int.natCast_nonneg k, fun r hr => ?_, hd.goes_on⟩
    rcases List.mem_cons.mp hr with rfl | hr
    · simp [EndRecord, Timeline.entry, Spot.kind, hf, Frame.kind]
    · exact (hgaps r hr).2
  | _ => cases hturn

/-- The last step journals one record at most, and nothing happens after a board below is entered or a stop predicate
holds. -/
theorem Tells.halts {h : Halt} (ht : Tells b x t c es rs turn) (hturn : turn = .halt h) :
    rs.length ≤ 1 ∧ ∀ e ∈ es.dropLast, ¬ e.EndsBoard := by
  cases ht with
  | outside => simp
  | undecided _ hd => exact ⟨by simp, fun e he => hd.goes_on e (List.dropLast_subset _ he)⟩
  | unprovided _ hd hp => exact ⟨by simp, fun e he => prepared_goes_on hd hp e (List.dropLast_subset _ he)⟩
  | unworked _ _ hd hp => exact ⟨by simp, by simpa using prepared_goes_on hd hp⟩
  | unstopped => simp
  | stop => simp
  | lost _ _ hd => exact ⟨by simp, fun e he => hd.goes_on e (List.dropLast_subset _ he)⟩
  | story _ _ hd hp => exact ⟨by simp, by simpa using prepared_goes_on hd hp⟩
  | concluded _ _ hd hp => exact ⟨by simp, by simpa using prepared_goes_on hd hp⟩
  | skip => cases hturn
  | work => cases hturn
  | jump => cases hturn

end

section

variable {b : Board σ} {x : Value} {t : Timeline} {c : Int} {es : List Event} {rs : Timeline}

theorem Walks.goes_on {c' : Int} (h : Walks b x t c es rs c') (h₀ : 0 ≤ c) :
    0 ≤ c' ∧ (∀ r ∈ rs, b.Names r ∧ ¬ EndRecord r) ∧ ∀ e ∈ es, ¬ e.EndsBoard := by
  induction h with
  | start => exact ⟨h₀, by simp, by simp⟩
  | step _ _ ht ih =>
    obtain ⟨hc, hrs, hes⟩ := ih
    obtain ⟨hc', hrs', hes'⟩ := ht.goes_on rfl hc
    refine ⟨hc', fun r hr => ?_, fun e he => ?_⟩
    · rcases List.mem_append.mp hr with hr | hr
      · exact hrs r hr
      · exact ⟨ht.names hc r hr, hrs' r hr⟩
    · rcases List.mem_append.mp he with he | he
      · exact hes e he
      · exact hes' e he

theorem mem_dropLast_append {α : Type} {l l' : List α} {y : α} (h : y ∈ (l ++ l').dropLast) :
    y ∈ l ∨ y ∈ l'.dropLast := by
  rw [List.dropLast_append] at h
  split at h
  · exact .inl (List.dropLast_subset _ h)
  · exact List.mem_append.mp h

/-- **Every record carries the name and the position of its frame, and the record of a story frame or of a stop frame
whose predicate held is the last one**; so is the event that belongs to it. -/
theorem Recounts.tail {h : Halt} (hr : Recounts b x t c es rs h) (h₀ : 0 ≤ c) :
    (∀ r ∈ rs, b.Names r) ∧ (∀ r ∈ rs.dropLast, ¬ EndRecord r) ∧ ∀ e ∈ es.dropLast, ¬ e.EndsBoard := by
  -- only the last step can end the board, as the others went on
  have hwalk : ∀ {es rs c'}, Walks b x t c es rs c' →
      (∀ r ∈ rs, b.Names r) ∧ (∀ r ∈ rs.dropLast, ¬ EndRecord r) ∧ ∀ e ∈ es.dropLast, ¬ e.EndsBoard := fun hw => by
    obtain ⟨-, hrs, hes⟩ := hw.goes_on h₀
    exact ⟨fun r hr => (hrs r hr).1, fun r hr => (hrs r (List.dropLast_subset _ hr)).2,
      fun e he => hes e (List.dropLast_subset _ he)⟩
  cases hr with
  | past hw => exact hwalk hw
  | limit hw => exact hwalk hw
  | @last es es' rs rs' c' h hw _ ht =>
    obtain ⟨hc, hrs, hes⟩ := hw.goes_on h₀
    obtain ⟨hlen, hes'⟩ := ht.halts rfl
    refine ⟨fun r hr => ?_, fun r hr => ?_, fun e he => ?_⟩
    · rcases List.mem_append.mp hr with hr | hr
      · exact (hrs r hr).1
      · exact ht.names hc r hr
    · rcases mem_dropLast_append hr with hr | hr
      · exact (hrs r hr).2
      · have hnil : rs'.dropLast = [] := List.length_eq_zero_iff.mp (by simp; omega)
        simp [hnil] at hr
    · rcases mem_dropLast_append he with he | he
      · exact hes e he
      · exact hes' e he

end

/-! ## Walks -/

structure Walked (b : Board σ) (ls : List (Level σ)) (a : Address) (n : Nat) (x : Value) (c : Int) (m : Model)
    (g₀ : Stage σ) (ms : List (Moment σ)) (rs : Timeline) (cursor : Int) (g : Stage σ) : Prop where
  spans : Spans n a ms g₀ g
  model : g.world.model? a = some ⟨m.board, m.timeline ++ rs⟩
  walks : Walks b x m.timeline c (told ls.length ms) rs cursor
  still : rs = [] → g = g₀
  saves : SavesSucceed ms → rs ≠ [] → b.session.FileHolds ⟨m.board, m.timeline ++ rs⟩ g.world.disk

section

variable {b : Board σ} {ls : List (Level σ)} {a : Address} {n : Nat} {x : Value} {c : Int} {m : Model} {g₀ : Stage σ}

theorem Walked.next {ms ms' : List (Moment σ)} {rs rs' : Timeline} {cursor c' : Int} {g g' : Stage σ}
    (h : Walked b ls a n x c m g₀ ms rs cursor g) (hlt : cursor < b.frames.length)
    (hd : Does b ls a n x cursor ⟨m.board, m.timeline ++ rs⟩ g ms' rs' (.next c') g') :
    Walked b ls a n x c m g₀ (⟨ls, .turned cursor (.next c'), g.world⟩ :: ms' ++ ms) (rs ++ rs') c'
      (g'.record ⟨ls, .turned cursor (.next c'), g.world⟩) where
  spans := h.spans.trans (hd.spans.turned ls cursor (.next c'))
  model := by
    rw [← List.append_assoc]
    exact hd.model
  walks := by
    have := h.walks.step hlt hd.tells
    simpa using this
  still hrs := by
    obtain ⟨-, rfl⟩ := List.append_eq_nil_iff.mp hrs
    obtain ⟨-, f, hf⟩ := hd.tells.quits
    cases hf
  saves hs _ := by
    rw [← List.append_assoc]
    refine hd.saves (.inl (Turn.completes_next c')) (fun m hm => hs m ?_) ?_
    · exact List.mem_append_left _ (List.mem_cons_of_mem _ hm)
    · rintro ⟨-, f, hf⟩
      cases hf

theorem Walked.turns {ms : List (Moment σ)} {rs : Timeline} {cursor : Int} {g : Stage σ}
    (h : Walked b ls a n x c m g₀ ms rs cursor g) (hn : n ≤ m.timeline.length) (limit : Nat) :
    ∃ ms' rs', Does b ls a n x cursor ⟨m.board, m.timeline ++ rs⟩ g ms' rs'
      (b.turn (enterFrames limit a 0 b.frames) ls a x cursor g).1
      (b.turn (enterFrames limit a 0 b.frames) ls a x cursor g).2 := by
  refine turn_does h.model ?_ limit x cursor
  rw [List.length_append]
  exact Nat.le_add_right_of_le hn

variable (hm : g₀.world.model? a = some m) (hn : n ≤ m.timeline.length) (limit : Nat)
include hm hn

/-- **Every step of a walk adds to what the steps before it did**, up to the last one. -/
theorem steps_walked {k : Nat} {h : Halt} {g' : Stage σ}
    (hsteps : b.steps (enterFrames limit a 0 b.frames) ls a x k c g₀ = (h, g')) :
    ∃ k' ms rs cursor g, Walked b ls a n x c m g₀ ms rs cursor g ∧
      Ends b (enterFrames limit a 0 b.frames) ls a x k' cursor g h g' := by
  have hstart : Walked b ls a n x c m g₀ [] [] c g₀ := by
    refine ⟨.of_still rfl (by simp) rfl, ?_, .start, fun _ => rfl, fun _ hne => absurd rfl hne⟩
    rw [List.append_nil]
    exact hm
  -- the invariant: the moments and the records so far are those of a walk to the cursor
  have hlast := steps_ends (P := fun _ cursor g => ∃ ms rs, Walked b ls a n x c m g₀ ms rs cursor g)
    (extends_closed.enterFrames fun p d _ => extends_closedAt d (a ++ p)) ?_ k ⟨[], [], hstart⟩ hsteps
  · obtain ⟨k', cursor, g, ⟨ms, rs, hw⟩, hends⟩ := hlast
    exact ⟨k', ms, rs, cursor, g, hw, hends⟩
  · rintro k cursor c' g g₁ ⟨ms, rs, hw⟩ hlt hturn -
    obtain ⟨ms', rs', hd⟩ := hw.turns hn limit
    rw [hturn] at hd
    exact ⟨_, _, hw.next hlt hd⟩

/-- **A walk is recounted**, and if it came to its end, its journal is in the file, unless it took no step. -/
theorem steps_recounted {k : Nat} {h : Halt} {g' : Stage σ}
    (hsteps : b.steps (enterFrames limit a 0 b.frames) ls a x k c g₀ = (h, g')) :
    ∃ ms rs, Spans n a ms g₀ g' ∧ g'.world.model? a = some ⟨m.board, m.timeline ++ rs⟩ ∧
      Recounts b x m.timeline c (told ls.length ms) rs h ∧ (h = .ended → (rs = [] → g' = g₀) ∧
        (SavesSucceed ms → rs ≠ [] → b.session.FileHolds ⟨m.board, m.timeline ++ rs⟩ g'.world.disk)) := by
  obtain ⟨k', ms, rs, cursor, g, hw, hends⟩ := steps_walked hm hn limit hsteps
  cases hends with
  | past hle => exact ⟨ms, rs, hw.spans, hw.model, .past hw.walks hle, fun _ => ⟨hw.still, hw.saves⟩⟩
  | limit hlt => exact ⟨ms, rs, hw.spans, hw.model, .limit hw.walks hlt, fun he => nomatch he⟩
  | halt hlt hturn =>
    obtain ⟨ms', rs', hd⟩ := hw.turns hn limit
    rw [hturn] at hd
    refine ⟨⟨ls, .turned cursor (.halt h), g.world⟩ :: ms' ++ ms, rs ++ rs', ?_, ?_, ?_, fun he => ⟨?_, ?_⟩⟩
    · exact hw.spans.trans (hd.spans.turned ls cursor (.halt h))
    · rw [← List.append_assoc]
      exact hd.model
    · have := Recounts.last hw.walks hlt hd.tells
      simpa using this
    · -- a last step that ends the walk journals a record
      intro hrs
      obtain ⟨-, rfl⟩ := List.append_eq_nil_iff.mp hrs
      obtain ⟨-, f, hf⟩ := hd.tells.quits
      cases hf
      cases he
    · intro hs _
      cases he
      rw [← List.append_assoc]
      refine hd.saves (.inl Turn.completes_ended) (fun m hm => hs m ?_) ?_
      · exact List.mem_append_left _ (List.mem_cons_of_mem _ hm)
      · rintro ⟨-, f, hf⟩
        cases hf

end

/-! ## Runs -/

def loaded (b : Board σ) (a : Address) (w : World σ) : Timeline := (b.session.load a w).2.journal a

def starts (b : Board σ) (a : Address) (w : World σ) : Bool :=
  match (b.session.load a w).1, b.session.settings.strictLoad with
  | .error _, _ => false
  | .ok (.error _), true => false
  | .ok _, _ => true

/-- What follows the end of a walk in this stage: a walk that came to its end is finished, and may be cleared. -/
inductive Closes (ls : List (Level σ)) (a : Address) (g : Stage σ) : Halt → Ending × Stage σ → Prop where
  | raised (f : Fault) : Closes ls a g (.raised f) (.raised f, g)
  | unfinished : Closes ls a g .unfinished (.unfinished, g)
  | ended (e : Ending) {w : World σ} : w.model? a = none ∨ w.model? a = g.world.model? a →
      Closes ls a g .ended (e, ⟨w, ⟨ls, .finished, g.world⟩ :: g.trace⟩)

section

variable {b : Board σ} {ls : List (Level σ)} {a : Address}

theorem clear_model? (s : Session σ) (a : Address) (w : World σ) :
    (s.clear a w).2.model? a = none ∨ (s.clear a w).2.model? a = w.model? a :=
  Session.clear_world (P := fun w' => w'.model? a = none ∨ w'.model? a = w.model? a) (.inr rfl) (.inr rfl)
    (fun h _ => h) (fun {w₁} _ => .inl (World.model?_forget_self w₁ a))

theorem finish_model? (b : Board σ) (ls : List (Level σ)) (a : Address) (g : Stage σ) :
    (b.finish ls a g).2.world.model? a = none ∨ (b.finish ls a g).2.world.model? a = g.world.model? a := by
  have hclosed : ClosedOn (fun _ : List (Level σ) => True) fun g g' : Stage σ =>
      g'.world.model? a = none ∨ g'.world.model? a = g.world.model? a := by
    refine ⟨fun _ => .inr rfl, fun h h' => ?_, fun h _ _ _ => h, fun _ _ => .inr rfl⟩
    rcases h' with h' | h'
    · exact .inl h'
    · rw [h']
      exact h
  exact hclosed.finish (fun g => clear_model? b.session a g.world)
    (fun _ g => .inr (Session.clear_model?_ne _ g.world (by simp))) trivial g

theorem close_closes (h : Halt) (g : Stage σ) : Closes ls a g h (b.close ls a (h, g)) := by
  cases h with
  | raised f => exact .raised f
  | unfinished => exact .unfinished
  | ended =>
    have hmodel := finish_model? b ls a g
    have htrace := finish_trace b ls a g
    show Closes ls a g .ended (b.finish ls a g)
    generalize b.finish ls a g = result at hmodel htrace
    obtain ⟨e, w', ms⟩ := result
    subst htrace
    exact .ended e hmodel

theorem Closes.told {g : Stage σ} {h : Halt} {r : Ending × Stage σ}
    (hc : Closes ls a g h r) (depth : Nat) : told depth r.2.trace = Board.told depth g.trace := by
  cases hc with
  | raised f => rfl
  | unfinished => rfl
  | ended => exact told_finished ..

variable (b ls) in
theorem opened_spans {m : Model} {g : Stage σ} (hm : g.world.model? a = some m) :
    Spans m.timeline.length a [⟨ls, .started m.timeline.cursor, g.world⟩] g (b.opened ls a g) := by
  refine .of_still ?_ (by simp) rfl
  rw [← journal_of_model hm]
  rfl

variable (b ls) in
theorem walk_recounted {m : Model} {g : Stage σ} (hm : g.world.model? a = some m) (limit : Nat) (x : Value) :
    ∃ ms rs h g', Spans m.timeline.length a ms g g' ∧ g'.world.model? a = some ⟨m.board, m.timeline ++ rs⟩ ∧
      Recounts b x m.timeline m.timeline.cursor (told ls.length ms) rs h ∧
      Closes ls a g' h (b.walk (enterFrames limit a 0 b.frames) limit ls a x g) := by
  rw [walk_eq, journal_of_model hm]
  cases hsteps : b.steps (enterFrames limit a 0 b.frames) ls a x limit m.timeline.cursor (b.opened ls a g) with
  | mk h g' =>
    have hmo : (b.opened ls a g).world.model? a = some m := hm
    obtain ⟨ms, rs, hs, hmodel, hrecounts, -⟩ := steps_recounted hmo (Nat.le_refl _) limit hsteps
    exact ⟨_, rs, h, g', (opened_spans b ls hm).trans hs, hmodel, by simpa using hrecounts, close_closes h g'⟩

end

section

variable (limit : Nat) (b : Board σ) (a : Address) (above : List (Level σ)) (x : Value) (g : Stage σ)

/-- **At no moment of a run anything of its journal changes but a record in flight**, and nothing of what was
loaded: records are only added, and numbered on. -/
theorem journal_prolonged : ∃ ms, (enterBoard limit a b above x g).2.trace = ms ++ g.trace ∧
    (∀ m ∈ ms, (b.loaded a g.world).Continues (m.world.journal a)) ∧
    (ms.Pairwise fun m' m => m'.isLate = true ∨
      Timeline.Prolongs (b.loaded a g.world).length (m.world.journal a) (m'.world.journal a)) ∧
    ((enterBoard limit a b above x g).2.world.model? a = none ∨
      (b.loaded a g.world).Continues ((enterBoard limit a b above x g).2.world.journal a) ∧
      ∀ m ∈ ms, Timeline.Prolongs (b.loaded a g.world).length (m.world.journal a)
        ((enterBoard limit a b above x g).2.world.journal a)) := by
  unfold loaded
  rw [enterBoard_eq]
  rcases runWith_cases b (enterFrames limit a 0 b.frames) limit a above x g with
    ⟨f, w, hload, hr⟩ | ⟨f, w, hload, -, hr⟩ | ⟨answer, w, hload, hr⟩
  · -- a board that does not start journals nothing
    rw [hr, hload]
    exact ⟨[], rfl, by simp, .nil, .inr ⟨(Timeline.Prolongs.refl ..).continues, by simp⟩⟩
  · rw [hr, hload]
    exact ⟨[], rfl, by simp, .nil, .inr ⟨(Timeline.Prolongs.refl ..).continues, by simp⟩⟩
  · rw [hr, hload]
    obtain ⟨m, hm⟩ := Session.load_model hload
    obtain ⟨ms, rs, h, g', hs, -, -, hcloses⟩ :=
      walk_recounted b (⟨b, a, w⟩ :: above) (g := g.withWorld w) hm limit (givenContext x)
    rw [← journal_of_model hm] at hs
    generalize b.walk (enterFrames limit a 0 b.frames) limit (⟨b, a, w⟩ :: above) a (givenContext x)
      (g.withWorld w) = result at hcloses ⊢
    have hwithin : ∀ m ∈ ms, (w.journal a).Continues (m.world.journal a) := fun m hm => (hs.within m hm).1.continues
    have hend : (w.journal a).Continues (g'.world.journal a) ∧
        ∀ m ∈ ms, Timeline.Prolongs (w.journal a).length (m.world.journal a) (g'.world.journal a) :=
      ⟨hs.grows.continues, fun m hm => (hs.within m hm).2⟩
    cases hcloses with
    | raised f => exact ⟨ms, hs.trace, hwithin, hs.ordered, .inr hend⟩
    | unfinished => exact ⟨ms, hs.trace, hwithin, hs.ordered, .inr hend⟩
    | @ended e w' hmodel =>
      -- what is told last is that the walk is finished, with the journal as it is then
      refine ⟨⟨⟨b, a, w⟩ :: above, .finished, g'.world⟩ :: ms, ?_, ?_, ?_, ?_⟩
      · dsimp only
        rw [hs.trace]
        rfl
      · intro m hmem
        rcases List.mem_cons.mp hmem with rfl | hmem
        · exact hend.1
        · exact hwithin m hmem
      · exact List.pairwise_cons.mpr ⟨fun m hmem => .inr (hend.2 m hmem), hs.ordered⟩
      · refine hmodel.imp id fun hsame => ?_
        rw [journal_congr (w := g'.world) hsame]
        refine ⟨hend.1, fun m hmem => ?_⟩
        rcases List.mem_cons.mp hmem with rfl | hmem
        · exact .refl ..
        · exact hend.2 m hmem

/-- **The records of a run are the steps that it took, in order**, as its events tell them; each carries the name and
the position of its frame. After a board below is entered, or a stop predicate holds, the board journals nothing more
and asks for nothing more. -/
theorem run_recounted (hstarts : b.starts a g.world = true) (hc : 0 ≤ (b.loaded a g.world).cursor) :
    ∃ ms rs h g₁, Closes (⟨b, a, (b.session.load a g.world).2⟩ :: above) a g₁ h (enterBoard limit a b above x g) ∧
      g₁.trace = ms ++ g.trace ∧ g₁.world.journal a = b.loaded a g.world ++ rs ∧
      Recounts b (givenContext x) (b.loaded a g.world) (b.loaded a g.world).cursor (told (above.length + 1) ms) rs h ∧
      (∀ r ∈ rs, b.Names r) ∧ (∀ r ∈ rs.dropLast, ¬ EndRecord r) ∧
      ∀ e ∈ (told (above.length + 1) ms).dropLast, ¬ e.EndsBoard := by
  unfold loaded starts at *
  rw [enterBoard_eq]
  rcases runWith_cases b (enterFrames limit a 0 b.frames) limit a above x g with
    ⟨f, w, hload, -⟩ | ⟨f, w, hload, hstrict, -⟩ | ⟨answer, w, hload, hr⟩
  · simp [hload] at hstarts
  · simp [hload, hstrict] at hstarts
  · rw [hload] at hc ⊢
    rw [hr]
    obtain ⟨m, hm⟩ := Session.load_model hload
    obtain ⟨ms, rs, h, g', hs, hmodel, hrecounts, hcloses⟩ :=
      walk_recounted b (⟨b, a, w⟩ :: above) (g := g.withWorld w) hm limit (givenContext x)
    dsimp only at hc ⊢
    rw [journal_of_model hm] at hc ⊢
    exact ⟨ms, rs, h, g', hcloses, hs.trace, journal_of_model hmodel, hrecounts, hrecounts.tail hc⟩

end

/-- Two events tell of the run: the work of the first frame, and that the second one was entered. -/
theorem outer_recounted : ∃ es rs h, Recounts outer (.dict []) (outer.loaded [] (.blank ())) 0 es rs h ∧
    (∀ r ∈ rs, outer.Names r) ∧ (∀ r ∈ rs.dropLast, ¬ EndRecord r) ∧ es.length = 2 := by
  have hcursor : (outer.loaded [] (.blank ())).cursor = 0 := by decide +kernel
  have htwo : (told 1 (enterBoard 9 [] outer [] .null ⟨.blank (), []⟩).2.trace).length = 2 := by decide +kernel
  obtain ⟨ms, rs, h, g₁, hcloses, htrace, -, hrecounts, hnames, hlast, -⟩ :=
    run_recounted 9 outer [] [] .null ⟨.blank (), []⟩ (by decide +kernel) (by decide +kernel)
  rw [hcloses.told, htrace, List.append_nil] at htwo
  rw [hcursor] at hrecounts
  exact ⟨_, rs, h, hrecounts, hnames, hlast, htwo⟩

end Boardwalk.Board
