import Boardwalk.Proofs.Board.Journal
import Boardwalk.Proofs.Record.Prolonged
/-!
# Stretches of a run

What a stretch of a run records, what the board on a level tells of it (`told`), and what it does to a journal: at
each moment the journal prolongs the ones before (`Spans`). A run of a board below only records moments of deeper
levels, and leaves the journals above alone (`enterBoard_below`).
-/

namespace Boardwalk

variable {σ : Type}

/-- Code of the innermost board is evaluated or a board below it entered, if it runs at this depth. -/
def Moment.own? (depth : Nat) (m : Moment σ) : Option Event :=
  if m.levels.length = depth then
    match m.event with
    | .evaluated position role answer => some (.evaluated position role answer)
    | .entered position => some (.entered position)
    | _ => none
  else none

/-- The end of a step is recorded late: with the world that the step set in with. -/
def Moment.isLate (m : Moment σ) : Bool :=
  match m.event with
  | .turned .. => true
  | _ => false

namespace Board

/-! ## What a board tells -/

def told (depth : Nat) (ms : List (Moment σ)) : List Event := (ms.filterMap (Moment.own? depth)).reverse

@[simp] theorem told_nil (depth : Nat) : told depth ([] : List (Moment σ)) = [] := rfl

@[simp] theorem told_append (depth : Nat) (ms' ms : List (Moment σ)) :
    told depth (ms' ++ ms) = told depth ms ++ told depth ms' := by
  simp [told]

@[simp] theorem told_evaluated (ls : List (Level σ)) (position : Nat) (role : Role) (answer : Except Fault Value)
    (w : World σ) (ms : List (Moment σ)) :
    told ls.length (⟨ls, .evaluated position role answer, w⟩ :: ms) =
      told ls.length ms ++ [.evaluated position role answer] := by
  simp [told, Moment.own?]

@[simp] theorem told_entered (ls : List (Level σ)) (position : Nat) (w : World σ) (ms : List (Moment σ)) :
    told ls.length (⟨ls, .entered position, w⟩ :: ms) = told ls.length ms ++ [.entered position] := by
  simp [told, Moment.own?]

theorem mem_told {depth : Nat} {m : Moment σ} {e : Event} {ms : List (Moment σ)} (hm : m ∈ ms)
    (h : m.own? depth = some e) : e ∈ told depth ms :=
  List.mem_reverse.mpr (List.mem_filterMap.mpr ⟨m, hm, h⟩)

theorem told_cons_of_none {depth : Nat} {m : Moment σ} (h : m.own? depth = none) (ms : List (Moment σ)) :
    told depth (m :: ms) = told depth ms := by
  simp [told, h]

@[simp] theorem told_saved (depth : Nat) (ls : List (Level σ)) (answer : Session.Answer Unit) (w : World σ)
    (ms : List (Moment σ)) : told depth (⟨ls, .saved answer, w⟩ :: ms) = told depth ms :=
  told_cons_of_none (by simp [Moment.own?]) ms

@[simp] theorem told_turned (depth : Nat) (ls : List (Level σ)) (cursor : Int) (turn : Turn) (w : World σ)
    (ms : List (Moment σ)) : told depth (⟨ls, .turned cursor turn, w⟩ :: ms) = told depth ms :=
  told_cons_of_none (by simp [Moment.own?]) ms

@[simp] theorem told_started (depth : Nat) (ls : List (Level σ)) (cursor : Int) (w : World σ)
    (ms : List (Moment σ)) : told depth (⟨ls, .started cursor, w⟩ :: ms) = told depth ms :=
  told_cons_of_none (by simp [Moment.own?]) ms

@[simp] theorem told_finished (depth : Nat) (ls : List (Level σ)) (w : World σ) (ms : List (Moment σ)) :
    told depth (⟨ls, .finished, w⟩ :: ms) = told depth ms :=
  told_cons_of_none (by simp [Moment.own?]) ms

theorem told_deeper {depth : Nat} {ms : List (Moment σ)} (h : ∀ m ∈ ms, depth < m.levels.length) :
    told depth ms = [] := by
  induction ms with
  | nil => rfl
  | cons m ms ih =>
    have hm : m.own? depth = none := if_neg (Nat.ne_of_gt (h m List.mem_cons_self))
    rw [told_cons_of_none hm]
    exact ih fun m' hm' => h m' (List.mem_cons_of_mem _ hm')

/-! ## What happens to a journal -/

/-- From the first stage to the second one these moments are recorded, and the journal at an address only grows. -/
structure Spans (n : Nat) (a : Address) (ms : List (Moment σ)) (g g' : Stage σ) : Prop where
  trace : g'.trace = ms ++ g.trace
  grows : Timeline.Prolongs n (g.world.journal a) (g'.world.journal a)
  within : ∀ m ∈ ms, Timeline.Prolongs n (g.world.journal a) (m.world.journal a) ∧
    Timeline.Prolongs n (m.world.journal a) (g'.world.journal a)
  ordered : ms.Pairwise fun m' m => m'.isLate = true ∨ Timeline.Prolongs n (m.world.journal a) (m'.world.journal a)

theorem journal_congr {w w' : World σ} {a : Address} (h : w'.model? a = w.model? a) : w'.journal a = w.journal a := by
  unfold World.journal
  rw [h]

section

variable {n : Nat} {a : Address} {ms ms' : List (Moment σ)} {g g' g'' : Stage σ}

theorem Spans.trans (h : Spans n a ms g g') (h' : Spans n a ms' g' g'') : Spans n a (ms' ++ ms) g g'' where
  trace := by rw [h'.trace, h.trace, List.append_assoc]
  grows := h.grows.trans h'.grows
  within m hm := by
    rcases List.mem_append.mp hm with hm | hm
    · obtain ⟨hl, hr⟩ := h'.within m hm
      exact ⟨h.grows.trans hl, hr⟩
    · obtain ⟨hl, hr⟩ := h.within m hm
      exact ⟨hl, hr.trans h'.grows⟩
  ordered := by
    refine List.pairwise_append.mpr ⟨h'.ordered, h.ordered, fun m' hm' m hm => .inr ?_⟩
    exact (h.within m hm).2.trans (h'.within m' hm').1

theorem Spans.of_still (ht : g'.trace = ms ++ g.trace) (hms : ∀ m ∈ ms, m.world.model? a = g.world.model? a)
    (h : g'.world.model? a = g.world.model? a) : Spans n a ms g g' where
  trace := ht
  grows := by
    rw [journal_congr h]
    exact .refl ..
  within m hm := by
    rw [journal_congr h, journal_congr (hms m hm)]
    exact ⟨.refl .., .refl ..⟩
  ordered := List.pairwise_of_forall_mem_list fun m' hm' m hm => .inr (by
    rw [journal_congr (hms m hm), journal_congr (hms m' hm')]
    exact .refl ..)

theorem Spans.withWorld {w : World σ} (h : Timeline.Prolongs n (g.world.journal a) (w.journal a)) :
    Spans n a [] g (g.withWorld w) where
  trace := rfl
  grows := h
  within _ hm := absurd hm List.not_mem_nil
  ordered := List.Pairwise.nil

theorem Spans.turned (h : Spans n a ms g g') (ls : List (Level σ)) (cursor : Int) (turn : Turn) :
    Spans n a (⟨ls, .turned cursor turn, g.world⟩ :: ms) g (g'.record ⟨ls, .turned cursor turn, g.world⟩) where
  trace := by simp [h.trace]
  grows := h.grows
  within m hm := by
    rcases List.mem_cons.mp hm with rfl | hm
    · exact ⟨.refl .., h.grows⟩
    · exact h.within m hm
  ordered := List.pairwise_cons.mpr ⟨fun _ _ => .inl rfl, h.ordered⟩

end

/-! ## Runs of boards below -/

/-- From the first stage to the second one only deeper levels record moments, and the journal stays as it is. -/
def Below (depth : Nat) (a : Address) (g g' : Stage σ) : Prop :=
  ∃ ms, g'.trace = ms ++ g.trace ∧ (∀ m ∈ ms, depth < m.levels.length ∧ m.world.model? a = g.world.model? a) ∧
    g'.world.model? a = g.world.model? a

theorem below_closed (depth : Nat) (a : Address) :
    ClosedOn (fun ls : List (Level σ) => depth < ls.length) (Below depth a) where
  refl g := ⟨[], rfl, fun _ h => absurd h List.not_mem_nil, rfl⟩
  trans := by
    rintro g g' g'' ⟨ms, ht, hms, hm⟩ ⟨ms', ht', hms', hm'⟩
    refine ⟨ms' ++ ms, by rw [ht', ht, List.append_assoc], fun m hmem => ?_, hm'.trans hm⟩
    rcases List.mem_append.mp hmem with hmem | hmem
    · obtain ⟨hd, hmodel⟩ := hms' m hmem
      exact ⟨hd, hmodel.trans hm⟩
    · exact hms m hmem
  record := by
    rintro g g' ⟨ms, ht, hms, hm⟩ ls hls e
    refine ⟨⟨ls, e, g.world⟩ :: ms, by simp [ht], fun m hmem => ?_, hm⟩
    rcases List.mem_cons.mp hmem with rfl | hmem
    · exact ⟨hls, rfl⟩
    · exact hms m hmem
  report g e := ⟨[], rfl, fun _ h => absurd h List.not_mem_nil, rfl⟩

theorem below_closedAt (depth : Nat) (b : Board σ) {a a' : Address} (h : a ≠ a') :
    ClosedAt (Below depth a) b a' := by
  have hclosed := model_closedAt b h
  have hnil : ∀ {g : Stage σ} {w : World σ}, w.model? a = g.world.model? a → Below depth a g (g.withWorld w) :=
    fun hw => ⟨[], rfl, fun _ hm => absurd hm List.not_mem_nil, hw⟩
  exact ⟨fun hc g => hnil (hclosed.call hc g), fun t g => hnil (hclosed.journal t g), fun g => hnil (hclosed.save g),
    fun g => hnil (hclosed.load g), fun g => hnil (hclosed.clear g)⟩

theorem enterBoard_below (limit : Nat) (c : Board σ) {a a' : Address} (h : ∀ p, a ≠ a' ++ p) (ls : List (Level σ))
    (x : Value) (g : Stage σ) : Below ls.length a g (enterBoard limit a' c ls x g).2 := by
  refine (below_closed ls.length a).enterBoard (fun hls L => ?_) limit c a'
    (fun p d _ => below_closedAt ls.length d (h p)) ls (fun L => ?_) x g
  · exact Nat.lt_succ_of_lt hls
  · exact Nat.lt_succ_self _

theorem Below.spans {a : Address} {depth : Nat} {g g' : Stage σ} (h : Below depth a g g') (n : Nat) :
    ∃ ms, Spans n a ms g g' ∧ told depth ms = [] := by
  obtain ⟨ms, ht, hms, hm⟩ := h
  exact ⟨ms, .of_still ht (fun m hmem => (hms m hmem).2) hm, told_deeper fun m hmem => (hms m hmem).1⟩

end Board

end Boardwalk
