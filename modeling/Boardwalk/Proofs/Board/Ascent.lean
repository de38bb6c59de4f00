import Boardwalk.Proofs.Board.Bounds
import Boardwalk.Proofs.Board.Handover
import Boardwalk.Proofs.Board.Pace
/-!
# Boards that only lead forward

If no jump of a board leads back, each of its steps goes on behind the frame that it took. So a run takes the frames in
their order and each of them once at most, and it only stays unfinished if the run of a board below does
(`run_ascends`). This holds for all that the code of the boards may answer or raise.
-/

namespace Boardwalk

variable {σ : Type}

def Moment.stepped? (depth : Nat) (m : Moment σ) : Option Int :=
  if m.levels.length = depth then m.read? else none

namespace Board

/-! ## The cursors of the steps -/

/-- From the first stage to the second one every moment that is recorded has a property. -/
def Traces (P : Moment σ → Prop) (g g' : Stage σ) : Prop := ∃ ms, g'.trace = ms ++ g.trace ∧ ∀ m ∈ ms, P m

section

variable {P : Moment σ → Prop} {g g' g'' : Stage σ}

theorem Traces.of_trace (h : g'.trace = g.trace) : Traces P g g' := ⟨[], h, nofun⟩

theorem Traces.one {m : Moment σ} (h : g'.trace = m :: g.trace) (hm : P m) : Traces P g g' :=
  ⟨[m], h, fun _ hmem => List.mem_singleton.mp hmem ▸ hm⟩

theorem Traces.trans (h : Traces P g g') (h' : Traces P g' g'') : Traces P g g'' := by
  obtain ⟨ms, ht, hms⟩ := h
  obtain ⟨ms', ht', hms'⟩ := h'
  refine ⟨ms' ++ ms, by rw [ht', ht, List.append_assoc], fun m hm => ?_⟩
  rcases List.mem_append.mp hm with hm | hm
  · exact hms' m hm
  · exact hms m hm

theorem Traces.and {Q : Moment σ → Prop} (h : Traces P g g') (h' : Traces Q g g') :
    Traces (fun m => P m ∧ Q m) g g' := by
  obtain ⟨ms, ht, hms⟩ := h
  obtain ⟨ms', ht', hms'⟩ := h'
  obtain rfl := List.append_cancel_right (ht.symm.trans ht')
  exact ⟨ms, ht, fun m hm => ⟨hms m hm, hms' m hm⟩⟩

end

def cursors (depth : Nat) (ms : List (Moment σ)) : List Int := (ms.filterMap (Moment.stepped? depth)).reverse

theorem cursors_append (depth : Nat) (ms' ms : List (Moment σ)) :
    cursors depth (ms' ++ ms) = cursors depth ms ++ cursors depth ms' := by
  simp [cursors]

theorem cursors_turned (ls : List (Level σ)) (cursor : Int) (turn : Turn) (w : World σ) (ms : List (Moment σ)) :
    cursors ls.length (⟨ls, .turned cursor turn, w⟩ :: ms) = cursors ls.length ms ++ [cursor] := by
  simp [cursors, Moment.stepped?, Moment.read?]

abbrev Idle (depth : Nat) : Stage σ → Stage σ → Prop := Traces fun m => m.stepped? depth = none

theorem cursors_idle {depth : Nat} {ms : List (Moment σ)} (h : ∀ m ∈ ms, m.stepped? depth = none) :
    cursors depth ms = [] := by
  unfold cursors
  rw [List.reverse_eq_nil_iff]
  exact List.filterMap_eq_nil_iff.mpr h

theorem idle_within (depth : Nat) : ClosedWithin (fun _ => True) (@Idle σ depth) where
  refl _ := .of_trace rfl
  trans := .trans
  note g ls _ e he := by
    refine .one (m := ⟨ls, e, g.world⟩) rfl ?_
    unfold Moment.stepped? Moment.read?
    cases e with
    | turned => cases he
    | _ => exact ite_self none
  report _ _ := .of_trace rfl

theorem idle_closedAt (depth : Nat) (b : Board σ) (a : Address) : ClosedAt (Idle depth) b a where
  call _ _ := .of_trace rfl
  journal _ _ := .of_trace rfl
  save _ := .of_trace rfl
  load _ := .of_trace rfl
  clear _ := .of_trace rfl

theorem Below.idle {depth : Nat} {a : Address} {g g' : Stage σ} (h : Below depth a g g') : Idle depth g g' := by
  obtain ⟨ms, ht, hms, -⟩ := h
  exact ⟨ms, ht, fun m hm => if_neg (Nat.ne_of_gt (hms m hm).1)⟩

/-- The end of a step is recorded behind what happens in it, also in the boards below. -/
theorem turn_idle (b : Board σ) (limit : Nat) (ls : List (Level σ)) (a : Address) (x : Value) (cursor : Int)
    (g : Stage σ) : Idle ls.length g (b.turn (enterFrames limit a 0 b.frames) ls a x cursor g).2 := by
  refine ((idle_closedAt ls.length b a).advances (idle_within _) trivial).turn (fun enter hm x g => ?_) x cursor g
  rcases mem_enterFrames hm with ⟨i, c, condition, provider, -, rfl⟩ | rfl
  · exact (enterBoard_below limit c (address_apart a i) ls x g).idle
  · exact .of_trace rfl

/-! ## Steps forward -/

/-- **A step goes on behind its frame, if no jump leads back**, and not farther than behind the last frame. -/
theorem Tells.forward {b : Board σ} {x : Value} {t : Timeline} {c c' : Int} {es : List Event} {rs : Timeline}
    (h : Tells b x t c es rs (.next c')) (hback : b.NeverBack) (h₀ : 0 ≤ c) (hlt : c < b.frames.length) :
    c < c' ∧ c' ≤ b.frames.length := by
  generalize hturn : Turn.next c' = turn at h
  cases h with
  | skip =>
    cases hturn
    omega
  | work =>
    cases hturn
    omega
  | stop =>
    split at hturn
    · cases hturn
    · cases hturn
      omega
  | jump hs hf hd hk =>
    cases hturn
    obtain ⟨hframe, -, hposition⟩ := spot?_some hs
    have hforward := hback (hframe.trans (congrArg some hf)) hk
    have hend := jumpTarget_lt hk
    have := hposition h₀
    omega
  | _ => cases hturn

structure Climbs (depth : Nat) (c c' : Int) (ms : List (Moment σ)) : Prop where
  ordered : (cursors depth ms).Pairwise (· < ·)
  within : ∀ i ∈ cursors depth ms, c ≤ i ∧ i < c'
  upward : ∀ m ∈ ms, m.levels.length = depth → ∀ i k, m.event = .turned i (.next k) → i < k
  count : ((cursors depth ms).length : Int) ≤ c' - c

section

variable {depth : Nat} {c c' c'' : Int} {ms ms' : List (Moment σ)}

theorem climbs_nil (depth : Nat) {c c' : Int} (h : c ≤ c') : Climbs depth c c' ([] : List (Moment σ)) := by
  refine ⟨.nil, nofun, nofun, ?_⟩
  show (0 : Int) ≤ c' - c
  omega

theorem Climbs.mono (h : Climbs depth c c' ms) (hle : c' ≤ c'') : Climbs depth c c'' ms := by
  refine ⟨h.ordered, fun i hi => ?_, h.upward, by have := h.count; omega⟩
  obtain ⟨hl, hr⟩ := h.within i hi
  exact ⟨hl, by omega⟩

theorem Climbs.around {ms₀ : List (Moment σ)} (h : Climbs depth c c' ms) (hms' : ∀ m ∈ ms', m.stepped? depth = none)
    (hms₀ : ∀ m ∈ ms₀, m.stepped? depth = none) : Climbs depth c c' (ms' ++ (ms ++ ms₀)) := by
  have hcursors : cursors depth (ms' ++ (ms ++ ms₀)) = cursors depth ms := by
    simp only [cursors_append, cursors_idle hms', cursors_idle hms₀, List.append_nil, List.nil_append]
  have hidle : ∀ {m : Moment σ} {i k}, m.stepped? depth = none → m.levels.length = depth →
      m.event ≠ .turned i (.next k) := by
    intro m i k hnone hdepth he
    simp [Moment.stepped?, Moment.read?, hdepth, he] at hnone
  refine ⟨hcursors ▸ h.ordered, hcursors ▸ h.within, fun m hm hdepth i k he => ?_, hcursors ▸ h.count⟩
  rcases List.mem_append.mp hm with hm | hm
  · exact absurd he (hidle (hms' m hm) hdepth)
  · rcases List.mem_append.mp hm with hm | hm
    · exact h.upward m hm hdepth i k he
    · exact absurd he (hidle (hms₀ m hm) hdepth)

theorem Climbs.idle (h : Climbs depth c c' ms) (hms' : ∀ m ∈ ms', m.stepped? depth = none) :
    Climbs depth c c' (ms' ++ ms) := by
  have h' : Climbs depth c c' (ms' ++ (ms ++ [])) := h.around hms' nofun
  rwa [List.append_nil] at h'

theorem Climbs.turned {ls : List (Level σ)} {turn : Turn} (h : Climbs ls.length c c' ms) (w : World σ)
    (hle : c ≤ c') (hlt : c' < c'') (hturn : ∀ k, turn = .next k → c' < k) :
    Climbs ls.length c c'' (⟨ls, .turned c' turn, w⟩ :: ms) where
  ordered := by
    rw [cursors_turned]
    refine List.pairwise_append.mpr ⟨h.ordered, List.pairwise_singleton .., fun i hi j hj => ?_⟩
    rw [List.mem_singleton.mp hj]
    exact (h.within i hi).2
  within i hi := by
    rw [cursors_turned] at hi
    rcases List.mem_append.mp hi with hi | hi
    · obtain ⟨hl, hr⟩ := h.within i hi
      exact ⟨hl, by omega⟩
    · rw [List.mem_singleton.mp hi]
      exact ⟨hle, hlt⟩
  upward m hm hdepth i k he := by
    rcases List.mem_cons.mp hm with rfl | hm
    · cases he
      exact hturn k rfl
    · exact h.upward m hm hdepth i k he
  count := by
    have := h.count
    rw [cursors_turned, List.length_append, List.length_singleton]
    omega

end

/-! ## Steps that stay unfinished -/

/-- Between two stages a board below a frame of this one was run, and its run stayed unfinished. -/
def Detained (b : Board σ) (limit : Nat) (a : Address) (ls : List (Level σ)) (g g' : Stage σ) : Prop :=
  ∃ i c condition provider x g₁ g₂, b.frames[i]? = some (.story c condition provider) ∧ Extends g g₁ ∧
    enterBoard limit (a ++ [i]) c ls x g₁ = (.unfinished, g₂) ∧ Extends g₂ g'

section

variable {b : Board σ} {limit : Nat} {ls : List (Level σ)} {a : Address} {m : Model} {g g' g'' : Stage σ}

theorem Detained.after (h : b.Detained limit a ls g' g'') (hg : Extends g g') : b.Detained limit a ls g g'' := by
  obtain ⟨i, c, condition, provider, x, g₁, g₂, hf, h₁, hrun, h₂⟩ := h
  exact ⟨i, c, condition, provider, x, g₁, g₂, hf, extends_closed.trans hg h₁, hrun, h₂⟩

theorem Detained.before (h : b.Detained limit a ls g g') (hg : Extends g' g'') : b.Detained limit a ls g g'' := by
  obtain ⟨i, c, condition, provider, x, g₁, g₂, hf, h₁, hrun, h₂⟩ := h
  exact ⟨i, c, condition, provider, x, g₁, g₂, hf, h₁, hrun, extends_closed.trans h₂ hg⟩

theorem Tells.enters_of_unfinished {x : Value} {t : Timeline} {c : Int} {es : List Event} {rs : Timeline}
    (h : Tells b x t c es rs (.halt .unfinished)) : ∃ i, .entered i ∈ es := by
  generalize hturn : Turn.halt .unfinished = turn at h
  cases h with
  | @story s _ _ _ es es' => exact ⟨s.position, by simp⟩
  | stop =>
    split at hturn
    · cases hturn
    · cases hturn
  | _ => cases hturn

theorem conclude_ne_unfinished (b : Board σ) (ls : List (Level σ)) (a : Address) (output : Json) (g : Stage σ) :
    (b.conclude ls a output g).1 ≠ .unfinished := by
  unfold conclude
  split
  · exact nofun
  · dsimp only
    split
    · exact nofun
    · exact nofun

theorem receive_unfinished {s : Spot σ} {r : Ending × Stage σ} (h : b.receive ls a s r = (.unfinished, g')) :
    r = (.unfinished, g') := by
  obtain ⟨ending, g⟩ := r
  unfold receive at h
  cases ending with
  | raised f => cases h
  | unfinished =>
    cases h
    rfl
  | failure f => cases h
  | success o =>
    dsimp only at h
    split at h
    · cases h
    · exact absurd (congrArg Prod.fst h) (conclude_ne_unfinished b ls a _ g)

/-- **A step stays unfinished only with the run of a board below.** -/
theorem turn_detained (hm : g.world.model? a = some m) {x : Value} {cursor : Int}
    (h : b.turn (enterFrames limit a 0 b.frames) ls a x cursor g = (.halt .unfinished, g')) :
    b.Detained limit a ls g g' := by
  have hhands := @turn_hands σ b limit ls a m g hm x cursor
  rcases hhands with ⟨ms, ht, hquiet⟩ | ⟨s, c, x', g₁, h', g₂, hh, -, hturn⟩
  · obtain ⟨ms', rs, hdoes⟩ : ∃ ms rs, Does b ls a 0 x cursor m g ms rs _ _ :=
      turn_does hm (Nat.zero_le _) limit x cursor
    rw [h] at ht hdoes
    obtain rfl := List.append_cancel_right (ht.symm.trans hdoes.spans.trace)
    obtain ⟨i, hi⟩ := hdoes.tells.enters_of_unfinished
    exact absurd hi (hquiet i)
  · rw [h] at hturn
    cases hturn
    obtain ⟨condition, provider, hf⟩ := hh.frame
    obtain ⟨ms, ht, -⟩ := hh.quiet
    obtain ⟨⟨answer, w, hentering⟩, -⟩ := entering_trace (b := b) hh.model ls s
    refine ⟨s.position, c, condition, provider, x', b.entering ls a s g₁, g', ?_, ?_, ?_, [], rfl⟩
    · exact (spot?_some hh.spot).1.trans (congrArg some hf)
    · exact extends_closed.trans ⟨ms, ht⟩ ⟨[_, _], hentering⟩
    · exact receive_unfinished hh.result.symm

end

/-! ## Walks -/

section

variable {b : Board σ} {ls : List (Level σ)} {a : Address} {m : Model} {g₀ : Stage σ}

/-- Between two steps of a walk with a limit: the steps so far lead up to the cursor. -/
structure Ascends (b : Board σ) (depth : Nat) (a : Address) (limit : Nat) (c : Int) (g₀ : Stage σ) (n : Nat)
    (cursor : Int) (g : Stage σ) : Prop where
  model : ∃ m, g.world.model? a = some m
  above : c ≤ cursor
  top : cursor ≤ max c b.frames.length
  steps : ∃ ms, g.trace = ms ++ g₀.trace ∧ Climbs depth c cursor ms ∧ n + (cursors depth ms).length = limit

theorem Ascends.next {limit : Nat} {c cursor c' : Int} {n k : Nat} {x : Value} {g g' : Stage σ} (hback : b.NeverBack)
    (h₀ : 0 ≤ c) (h : Ascends b ls.length a k c g₀ (n + 1) cursor g) (hlt : cursor < b.frames.length)
    (hturn : b.turn (enterFrames limit a 0 b.frames) ls a x cursor g = (.next c', g')) :
    Ascends b ls.length a k c g₀ n c' (g'.record ⟨ls, .turned cursor (.next c'), g.world⟩) := by
  obtain ⟨m, hm⟩ := h.model
  obtain ⟨ms, htrace, hclimbs, hcount⟩ := h.steps
  obtain ⟨ms', rs, hdoes⟩ : ∃ ms rs, Does b ls a 0 x cursor m g ms rs _ _ :=
    turn_does hm (Nat.zero_le _) limit x cursor
  obtain ⟨ms₁, htrace₁, hidle⟩ := turn_idle b limit ls a x cursor g
  rw [hturn] at hdoes htrace₁
  have habove := h.above
  obtain ⟨hup, hend⟩ := hdoes.tells.forward hback (by omega) hlt
  refine ⟨⟨_, hdoes.model⟩, by omega, by omega, ⟨ls, .turned cursor (.next c'), g.world⟩ :: (ms₁ ++ ms), ?_, ?_, ?_⟩
  · rw [Stage.record_trace, htrace₁, htrace, List.cons_append, List.append_assoc]
  · exact (hclimbs.idle hidle).turned g.world habove hup fun k hk => Turn.next.inj hk ▸ hup
  · rw [cursors_turned, cursors_append, cursors_idle hidle, List.append_nil, List.length_append, List.length_singleton]
    omega

/-- **The steps of a walk lead upward**, and there are enough of them if there are as many as frames. -/
theorem steps_ascend {limit : Nat} (hback : b.NeverBack) (hm : g₀.world.model? a = some m) {c : Int} (h₀ : 0 ≤ c)
    {n : Nat} {x : Value} {h : Halt} {g' : Stage σ}
    (hsteps : b.steps (enterFrames limit a 0 b.frames) ls a x n c g₀ = (h, g')) :
    ∃ ms, g'.trace = ms ++ g₀.trace ∧ Climbs ls.length c (max c b.frames.length) ms ∧
      (b.frames.length ≤ n → h = .unfinished → b.Detained limit a ls g₀ g') := by
  have hstart : Ascends b ls.length a n c g₀ n c g₀ :=
    ⟨⟨m, hm⟩, Int.le_refl c, Int.le_max_left .., [], rfl, climbs_nil _ (Int.le_refl c), rfl⟩
  obtain ⟨n', cursor, g, hp, hends⟩ := steps_ends (P := Ascends b ls.length a n c g₀)
    (extends_closed.enterFrames fun p d _ => extends_closedAt d (a ++ p))
    (fun hp hlt hturn _ => hp.next hback h₀ hlt hturn) n hstart hsteps
  obtain ⟨ms, htrace, hclimbs, hcount⟩ := hp.steps
  have hbelow := hclimbs.count
  cases hends with
  | past => exact ⟨ms, htrace, hclimbs.mono hp.top, fun _ he => nomatch he⟩
  | limit hlt =>
    -- each of the steps so far took another frame, so there is none left
    refine ⟨ms, htrace, hclimbs.mono hp.top, fun hle _ => ?_⟩
    omega
  | halt hlt hturn =>
    obtain ⟨ms₁, htrace₁, hidle⟩ := turn_idle b limit ls a x cursor g
    rw [hturn] at htrace₁
    refine ⟨⟨ls, .turned cursor (.halt h), g.world⟩ :: (ms₁ ++ ms), ?_, ?_, fun _ he => ?_⟩
    · rw [Stage.record_trace, htrace₁, htrace, List.cons_append, List.append_assoc]
    · exact (hclimbs.idle hidle).turned g.world hp.above (by omega) fun _ he => nomatch he
    · subst he
      obtain ⟨m', hm'⟩ := hp.model
      exact ((turn_detained hm' hturn).after ⟨ms, htrace⟩).before ⟨[_], rfl⟩

end

/-! ## Runs -/

theorem finish_ne_unfinished (b : Board σ) (ls : List (Level σ)) (a : Address) (g : Stage σ) :
    (b.finish ls a g).1 ≠ .unfinished := by
  unfold finish
  dsimp only
  split
  · exact nofun
  · split
    · exact nofun
    · exact nofun

theorem close_unfinished {b : Board σ} {ls : List (Level σ)} {a : Address} {h : Halt} {g : Stage σ}
    (hc : (b.close ls a (h, g)).1 = .unfinished) : h = .unfinished := by
  cases h with
  | raised f => cases hc
  | unfinished => rfl
  | ended => exact absurd hc (finish_ne_unfinished b ls a g)

theorem close_idle (b : Board σ) (ls : List (Level σ)) (a : Address) (depth : Nat) (h : Halt) (g : Stage σ) :
    Idle depth g (b.close ls a (h, g)).2 := by
  have hcloses := @close_closes σ b ls a h g
  generalize b.close ls a (h, g) = result at hcloses ⊢
  cases hcloses with
  | raised f => exact .of_trace rfl
  | unfinished => exact .of_trace rfl
  | ended => exact .one rfl (ite_self none)

/-- **A run of a board that no jump leads back takes the frames in their order**, each of them once at most, from the
cursor of the loaded journal on. So it takes no more steps than there are frames, and if the limit grants as many, it
stays unfinished only with the run of a board below. -/
theorem run_ascends {b : Board σ} (hback : b.NeverBack) (limit : Nat) (a : Address) (above : List (Level σ)) (x : Value)
    (g : Stage σ) (h₀ : 0 ≤ (b.loaded a g.world).cursor) :
    ∃ ms, (enterBoard limit a b above x g).2.trace = ms ++ g.trace ∧
      (∀ m ∈ ms, m.levels.length = above.length + 1 → ∀ i k, m.event = .turned i (.next k) → i < k) ∧
      (cursors (above.length + 1) ms).Pairwise (· < ·) ∧
      (∀ i ∈ cursors (above.length + 1) ms, (b.loaded a g.world).cursor ≤ i ∧ i < b.frames.length) ∧
      (cursors (above.length + 1) ms).length ≤ b.frames.length ∧
      (b.frames.length ≤ limit → (enterBoard limit a b above x g).1 = .unfinished →
        b.Detained limit a (⟨b, a, (b.session.load a g.world).2⟩ :: above) g (enterBoard limit a b above x g).2) := by
  unfold loaded at *
  rw [enterBoard_eq]
  rcases runWith_cases b (enterFrames limit a 0 b.frames) limit a above x g with
    ⟨f, w, -, hr⟩ | ⟨f, w, -, -, hr⟩ | ⟨answer, w, hload, hr⟩
  · -- a board that does not start takes no step
    rw [hr]
    exact ⟨[], rfl, nofun, .nil, nofun, Nat.zero_le _, fun _ he => nomatch he⟩
  · rw [hr]
    exact ⟨[], rfl, nofun, .nil, nofun, Nat.zero_le _, fun _ he => nomatch he⟩
  · rw [hload] at h₀ ⊢
    rw [hr]
    obtain ⟨m, hm⟩ := Session.load_model hload
    dsimp only at h₀ ⊢
    generalize hls : (⟨b, a, w⟩ :: above : List (Level σ)) = ls
    have hdepth : above.length + 1 = ls.length := by
      rw [← hls]
      rfl
    rw [walk_eq, Stage.withWorld_world, hdepth]
    have hmo : (b.opened ls a (g.withWorld w)).world.model? a = some m := hm
    have hopened : (b.opened ls a (g.withWorld w)).trace = ⟨ls, .started (w.journal a).cursor, w⟩ :: g.trace := rfl
    cases hsteps : b.steps (enterFrames limit a 0 b.frames) ls a (givenContext x) limit (w.journal a).cursor
        (b.opened ls a (g.withWorld w)) with
    | mk h g' =>
      obtain ⟨ms, htrace, hclimbs, hdetained⟩ := steps_ascend hback hmo h₀ hsteps
      obtain ⟨ms', htrace', hidle⟩ := close_idle b ls a ls.length h g'
      -- no step is over when the walk starts or after its end
      have hstarted : ∀ m ∈ [(⟨ls, .started (w.journal a).cursor, w⟩ : Moment σ)], m.stepped? ls.length = none := by
        simp [Moment.stepped?, Moment.read?]
      have hall : Climbs ls.length (w.journal a).cursor (max (w.journal a).cursor b.frames.length)
          (ms' ++ (ms ++ [⟨ls, .started (w.journal a).cursor, w⟩])) := hclimbs.around hidle hstarted
      refine ⟨ms' ++ (ms ++ [⟨ls, .started (w.journal a).cursor, w⟩]), ?_, hall.upward, hall.ordered, ?_, ?_, ?_⟩
      · rw [htrace', htrace, hopened]
        simp
      · intro i hi
        obtain ⟨hl, hr⟩ := hall.within i hi
        omega
      · have := hall.count
        omega
      · intro hle hend
        have := hdetained hle (close_unfinished hend)
        exact (this.after ⟨[_], hopened⟩).before ⟨ms', htrace'⟩

def leaps : Board Unit :=
  ⟨"b", .plain none "b", none,
    [.work .key "A" none none fun _ w => (.ok (.str "A"), w.scene), .jump (.name "C") none,
      .work .key "B" none none fun _ w => (.ok (.str "B"), w.scene),
      .work .key "C" none none fun _ w => (.ok (.str "C"), w.scene)]⟩

theorem leaps_neverBack : leaps.NeverBack := by
  intro p target condition k hf hk
  match p, hf with
  | 0, hf => cases hf
  | 2, hf => cases hf
  | 3, hf => cases hf
  | 1, hf =>
    cases hf
    have hjump : leaps.jumpTarget (.name "C") = .ok 3 := rfl
    cases hjump.symm.trans hk
    decide

/-- Three of the four frames are taken, and a limit of four steps is enough. -/
theorem leaps_ascends : ∃ ms, (enterBoard 4 [] leaps [] .null ⟨.blank (), []⟩).2.trace = ms ++ [] ∧
    cursors 1 ms = [0, 1, 3] ∧ (cursors 1 ms).Pairwise (· < ·) ∧
    (enterBoard 4 [] leaps [] .null ⟨.blank (), []⟩).1 ≠ .unfinished := by
  obtain ⟨ms, htrace, -, hordered, -, -, hdetained⟩ :=
    run_ascends leaps_neverBack 4 [] [] .null ⟨.blank (), []⟩ (by decide +kernel)
  have hcursors : cursors 1 (enterBoard 4 [] leaps [] .null ⟨.blank (), []⟩).2.trace = [0, 1, 3] := by
    decide +kernel
  rw [htrace, List.append_nil] at hcursors
  refine ⟨ms, htrace, hcursors, hordered, fun hend => ?_⟩
  obtain ⟨i, c, condition, provider, -, -, -, hf, -⟩ := hdetained (Nat.le_refl 4) hend
  match i, hf with
  | 0, hf => cases hf
  | 1, hf => cases hf
  | 2, hf => cases hf
  | 3, hf => cases hf

end Board

end Boardwalk
