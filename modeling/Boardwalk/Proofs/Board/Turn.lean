import Boardwalk.Proofs.Board.Journal
/-!
# One step of a board

A step either ends the run with a fault and leaves the file as it was, or it adds records to the journal and
saves them, or it hands over to the board of a story frame (`turn_cases`). Which records it adds, and where it
goes on, only depends on the journal, the cursor and the answers of the code (`Takes`).
-/

namespace Boardwalk

variable {σ : Type}

def Moment.isQuiet (m : Moment σ) : Bool :=
  match m.event with
  | .turned .. => false
  | .entered _ => false
  | _ => true

namespace Board

def acted (ms : List (Moment σ)) : List Nat := ms.filterMap Moment.acted?

/-! ## What a step records -/

/-- The second stage has recorded more than the first one, but no end of a step and no board entered. -/
def Notes (acts : List Nat) (g g' : Stage σ) : Prop :=
  ∃ ms, g'.trace = ms ++ g.trace ∧ (∀ m ∈ ms, m.isQuiet = true) ∧ acted ms = acts

theorem Notes.refl (g : Stage σ) : Notes [] g g := ⟨[], rfl, fun _ h => absurd h List.not_mem_nil, rfl⟩

theorem Notes.trans {acts acts' : List Nat} {g g' g'' : Stage σ} (h : Notes acts g g') (h' : Notes acts' g' g'') :
    Notes (acts' ++ acts) g g'' := by
  obtain ⟨ms, ht, hq, ha⟩ := h
  obtain ⟨ms', ht', hq', ha'⟩ := h'
  refine ⟨ms' ++ ms, by rw [ht', ht, List.append_assoc], fun m hm => ?_, ?_⟩
  · rcases List.mem_append.mp hm with hm | hm
    · exact hq' m hm
    · exact hq m hm
  · unfold acted at ha ha' ⊢
    rw [List.filterMap_append, ha, ha']

theorem notes_cons {g g' : Stage σ} {m : Moment σ} (h : g'.trace = m :: g.trace)
    (hq : m.isQuiet = true) : Notes m.acted?.toList g g' := by
  refine ⟨[m], h, fun m' hm' => ?_, ?_⟩
  · cases List.mem_singleton.mp hm'
    exact hq
  · unfold acted
    rw [List.filterMap_cons]
    cases m.acted? with
    | none => rfl
    | some i => rfl

/-! ## What the code does -/

/-- The second world is the first one after code of the board was called. -/
inductive Runs (b : Board σ) (w : World σ) : World σ → Prop where
  | refl : Runs b w w
  | call {w' : World σ} {code : Code σ Value} : Runs b w w' → b.Calls code → Runs b w (w'.call code).2

theorem Runs.model? {b : Board σ} {w w' : World σ} (h : Runs b w w') (a : Address) : w'.model? a = w.model? a := by
  induction h with
  | refl => rfl
  | call _ _ ih => exact ih

theorem Runs.held {b : Board σ} {w w' : World σ} (h : Runs b w w') : w'.held = w.held := by
  induction h with
  | refl => rfl
  | call _ _ ih => exact ih

theorem Runs.keeps {b : Board σ} (hspares : ∀ {code}, b.Calls code → b.session.Spares code) {w w' : World σ}
    (h : Runs b w w') : b.session.Keeps w.disk w'.disk := by
  induction h with
  | refl => exact .refl _ _
  | call _ hc ih => exact ih.trans (hspares hc _)

structure Evaluates (b : Board σ) (acts : List Nat) (g g' : Stage σ) : Prop where
  runs : Runs b g.world g'.world
  notes : Notes acts g g'

structure Raises (b : Board σ) (f : Fault) (g g' : Stage σ) : Prop extends Evaluates b [] g g' where
  moment : ∃ m ∈ g'.trace, ∃ i role, i < b.frames.length ∧ m.event = .evaluated i role (.error f)

def Answers (code : Code σ Value) (y : Value) : Prop := ∃ w, (code w).1 = .ok y

def Passes (s : Spot σ) (v : View) : Prop :=
  ∀ c, s.frame.condition? = some c → ∃ y, Answers (c v) y ∧ y.truth = true

def Gives (provider : Option (Provider σ)) (v : View) (x x' : Value) : Prop :=
  match provider with
  | some p => Answers (p v x) x'
  | none => x' = x

theorem Evaluates.refl (b : Board σ) (g : Stage σ) : Evaluates b [] g g := ⟨.refl, .refl g⟩

theorem Runs.trans {b : Board σ} {w w' w'' : World σ} (h : Runs b w w') (h' : Runs b w' w'') : Runs b w w'' := by
  induction h' with
  | refl => exact h
  | call _ hc ih => exact .call ih hc

theorem Evaluates.trans {b : Board σ} {acts acts' : List Nat} {g g' g'' : Stage σ} (h : Evaluates b acts g g')
    (h' : Evaluates b acts' g' g'') : Evaluates b (acts' ++ acts) g g'' :=
  ⟨h.runs.trans h'.runs, h.notes.trans h'.notes⟩

theorem Evaluates.raises {b : Board σ} {f : Fault} {g g' g'' : Stage σ} (h : Evaluates b [] g g')
    (h' : Raises b f g' g'') : Raises b f g g'' := ⟨h.trans h'.toEvaluates, h'.moment⟩

section

variable {b : Board σ}

theorem call_cases {code : Code σ Value} (hc : b.Calls code) (g : Stage σ) (ls : List (Level σ)) {position : Nat}
    {f : Frame σ} (hf : b.frames[position]? = some f) (role : Role) :
    (∃ f, (g.call ls position role code).1 = .error f ∧ Raises b f g (g.call ls position role code).2) ∨
    ∃ y, (g.call ls position role code).1 = .ok y ∧ Answers code y ∧
      Evaluates b (if role = .action then [position] else []) g (g.call ls position role code).2 := by
  have hn : Notes _ g (g.call ls position role code).2 := notes_cons rfl rfl
  cases hr : (code g.world).1 with
  | error f =>
    obtain ⟨hlt, -⟩ := List.getElem?_eq_some_iff.mp hf
    refine .inl ⟨f, hr, ⟨.call .refl hc, ?_⟩, _, List.mem_cons_self, position, role, hlt, by rw [hr]⟩
    unfold Moment.acted? at hn
    dsimp only at hn
    rw [hr] at hn
    cases role <;> exact hn
  | ok y =>
    refine .inr ⟨y, hr, ⟨g.world, hr⟩, .call .refl hc, ?_⟩
    unfold Moment.acted? at hn
    dsimp only at hn
    rw [hr] at hn
    cases role <;> exact hn

theorem taken_cases {s : Spot σ} (hs : b.frames[s.position]? = some s.frame) (ls : List (Level σ)) (v : View)
    (g : Stage σ) :
    (∃ f, (taken ls s v g).1 = .error f ∧ Raises b f g (taken ls s v g).2) ∨
    ((taken ls s v g).1 = .ok true ∧ Passes s v ∧ Evaluates b [] g (taken ls s v g).2) ∨
    ((taken ls s v g).1 = .ok false ∧ Evaluates b [] g (taken ls s v g).2 ∧
      ∃ c y, s.frame.condition? = some c ∧ Answers (c v) y ∧ y.truth = false) := by
  unfold taken
  cases hc : s.frame.condition? with
  | none =>
    refine .inr (.inl ⟨rfl, fun c h => ?_, .refl b g⟩)
    rw [hc] at h
    cases h
  | some c =>
    unfold holds
    rcases call_cases (.condition v hs hc) g ls hs .condition with ⟨f, hf, hr⟩ | ⟨y, hy, ha, he⟩
    · refine .inl ⟨f, ?_, hr⟩
      dsimp only
      rw [hf]
      rfl
    · dsimp only
      rw [hy]
      cases ht : y.truth with
      | true =>
        refine .inr (.inl ⟨congrArg _ ht, fun c' h => ?_, he⟩)
        rw [hc] at h
        cases h
        exact ⟨y, ha, ht⟩
      | false => exact .inr (.inr ⟨congrArg _ ht, he, c, y, rfl, ha, ht⟩)

theorem contextOf_cases {i : Nat} {f : Frame σ} (hf : b.frames[i]? = some f) (ls : List (Level σ)) (v : View)
    (x : Value) (g : Stage σ) :
    (∃ e, (contextOf ls i f.provider? v x g).1 = .error e ∧
      Raises b e g (contextOf ls i f.provider? v x g).2) ∨
    ∃ x', (contextOf ls i f.provider? v x g).1 = .ok x' ∧ Gives f.provider? v x x' ∧
      Evaluates b [] g (contextOf ls i f.provider? v x g).2 := by
  unfold contextOf Gives
  cases hp : f.provider? with
  | none => exact .inr ⟨x, rfl, rfl, .refl b g⟩
  | some p =>
    rcases call_cases (.provider v x hf hp) g ls hf .provider with ⟨e, he, hr⟩ | ⟨y, hy, ha, he⟩
    · exact .inl ⟨e, he, hr⟩
    · exact .inr ⟨y, hy, ha, he⟩

end

/-! ## What a step adds to the journal -/

def skipped (b : Board σ) : Timeline → List Int → Timeline
  | t, [] => t
  | t, i :: is =>
    skipped b (t ++ [t.entry (((b.spot? i).map Spot.name).getD "") emptyKind i (.dict []) true]) is

/-- The step at a cursor may leave this journal and go on at this cursor, or be the last one; the third result is
the position whose work was done. -/
inductive Takes (b : Board σ) (x : Value) (t : Timeline) (cursor : Int) :
    Timeline → Option Int → Option Nat → Prop where
  | skip {s : Spot σ} {c : Condition σ} {y : Value} : b.spot? cursor = some s →
      s.frame.condition? = some c → Answers (c ⟨t, cursor⟩) y → y.truth = false →
      Takes b x t cursor (t ++ [t.entry s.name emptyKind s.position (.dict []) true]) (some (cursor + 1)) none
  | work {s : Spot σ} {kind : WorkKind} {name : String} {condition : Option (Condition σ)}
      {provider : Option (Provider σ)} {action : Action σ} {x' y : Value} : b.spot? cursor = some s →
      s.frame = .work kind name condition provider action → Passes s ⟨t, cursor⟩ →
      Gives provider ⟨t, cursor⟩ x x' → Answers (action x') y →
      Takes b x t cursor (t ++ [t.entry s.name s.kind s.position y true]) (some (cursor + 1)) (some s.position)
  | stop {s : Spot σ} {given : Option String} {c : Condition σ} {y : Value} : b.spot? cursor = some s →
      s.frame = .stop given c → Answers (c ⟨t, cursor⟩) y →
      Takes b x t cursor (t ++ [t.entry s.name s.kind s.position (.bool y.truth) true])
        (if y.truth then none else some (cursor + 1)) none
  | jump {s : Spot σ} {target : Target} {condition : Option (Condition σ)} {k : Nat} : b.spot? cursor = some s →
      s.frame = .jump target condition → Passes s ⟨t, cursor⟩ → b.jumpTarget target = .ok k →
      Takes b x t cursor
        (b.skipped (t ++ [t.entry s.name s.kind s.position (.int s.cursor) true]) (between s.cursor k))
        (some k) none

/-- What a step amounts to, if its saves succeed. -/
inductive TurnsTo (b : Board σ) (enters : List (Enter σ)) (ls : List (Level σ)) (a : Address) (x : Value)
    (cursor : Int) (m : Model) (g : Stage σ) : Turn → Stage σ → Prop where
  | raised {f : Fault} {g' : Stage σ} : Raises b f g g' →
      TurnsTo b enters ls a x cursor m g (.halt (.raised f)) g'
  | lost {s : Spot σ} {target : Target} {condition : Option (Condition σ)} {f : Fault} {g₁ : Stage σ} {w : World σ} :
      b.spot? cursor = some s → s.frame = .jump target condition → b.jumpTarget target = .error f →
      Evaluates b [] g g₁ → (∃ rs, Adds a rs g₁.world w) →
      TurnsTo b enters ls a x cursor m g (.halt (.raised f)) (g₁.withWorld w)
  | next {c : Int} (act : Option Nat) {rs : Timeline} {g₁ g' : Stage σ} :
      Evaluates b act.toList g g₁ → Takes b x m.timeline cursor (m.timeline ++ rs) (some c) act →
      Journals b a m rs g₁.world g'.world → Notes [] g₁ g' → TurnsTo b enters ls a x cursor m g (.next c) g'
  | ended {rs : Timeline} {g₁ g' : Stage σ} :
      Evaluates b [] g g₁ → Takes b x m.timeline cursor (m.timeline ++ rs) none none →
      Journals b a m rs g₁.world g'.world → Notes [] g₁ g' → TurnsTo b enters ls a x cursor m g (.halt .ended) g'
  | story {s : Spot σ} {c : Board σ} {condition : Option (Condition σ)} {provider : Option (Provider σ)}
      {enter : Enter σ} {x' : Value} {g₁ : Stage σ} : b.spot? cursor = some s →
      s.frame = .story c condition provider → enters[s.position]? = some enter → Evaluates b [] g g₁ →
      TurnsTo b enters ls a x cursor m g (.halt (b.story ls a s enter none ⟨m.timeline, cursor⟩ x' g₁).1)
        (b.story ls a s enter none ⟨m.timeline, cursor⟩ x' g₁).2
  | closed {s : Spot σ} {c : Board σ} {condition : Option (Condition σ)} {provider : Option (Provider σ)}
      {g₁ : Stage σ} : b.spot? cursor = some s → s.frame = .story c condition provider →
      enters[s.position]? = none → Evaluates b [] g g₁ → TurnsTo b enters ls a x cursor m g (.halt .unfinished) g₁

section

variable {b : Board σ} {ls : List (Level σ)} {a : Address} {m : Model}

theorem adds_skipped_eq (b : Board σ) (a : Address) (m : Model) (is : List Int) :
    ∀ {w : World σ} {t : Timeline}, w.model? a = some ⟨m.board, t⟩ →
      ∃ rs, Adds a rs w (is.foldl (b.addSkipped a) w) ∧ b.skipped t is = t ++ rs := by
  induction is with
  | nil => exact fun {w t} _ => ⟨[], .nil a w, (List.append_nil t).symm⟩
  | cons i is ih =>
    intro w t hm
    have ha := adds_add a (((b.spot? i).map Spot.name).getD "") emptyKind i (.dict []) true w
    rw [journal_of_model hm] at ha
    have hm' := @Adds.model _ _ _ _ _ ha ⟨m.board, t⟩ hm
    obtain ⟨rs, hr, ht⟩ := ih hm'
    refine ⟨_, ha.trans hr, ?_⟩
    rw [skipped, ← List.append_assoc]
    exact ht

theorem notes_persist {g : Stage σ} (hs : SavesSucceed (b.persist ls a g).trace) :
    Notes [] g (b.persist ls a g) := by
  have hn := notes_cons (persist_trace hs) rfl
  exact hn

theorem journals_complete {g : Stage σ} (hm : g.world.model? a = some m) (s : Spot σ) (kind : String)
    (output : Value) (hs : SavesSucceed (b.complete ls a s kind output g).trace) :
    Journals b a m [m.timeline.entry s.name kind s.position output true] g.world
      (b.complete ls a s kind output g).world ∧ Notes [] g (b.complete ls a s kind output g) := by
  have ha := adds_add a s.name kind s.position output true g.world
  rw [journal_of_model hm] at ha
  exact ⟨persist_journals hm ha hs, notes_persist hs⟩

variable {enters : List (Enter σ)} {g : Stage σ} (hm : g.world.model? a = some m) {x : Value}
include hm

theorem skip_cases {s : Spot σ} {c : Condition σ} {y : Value} {g₁ : Stage σ}
    (hspot : b.spot? s.cursor = some s) (hc : s.frame.condition? = some c)
    (hy : Answers (c ⟨m.timeline, s.cursor⟩) y) (hf : y.truth = false) (he : Evaluates b [] g g₁)
    (hs : SavesSucceed (b.skip ls a s g₁).2.trace) :
    TurnsTo b enters ls a x s.cursor m g (b.skip ls a s g₁).1 (b.skip ls a s g₁).2 := by
  unfold skip at hs ⊢
  have hm₁ : g₁.world.model? a = some m := (he.runs.model? a).trans hm
  have hd := journals_complete (g := b.report Log.debug "Frame skipped" [("frame", .str s.name)] g₁) hm₁ s _ _ hs
  have hj : Journals b a m _ g₁.world _ :=
    ⟨hd.1.model, hd.1.holds, hd.1.stays, hd.1.others, hd.1.held, hd.1.user⟩
  exact .next none he (.skip hspot hc hy hf) hj hd.2

theorem work_cases {s : Spot σ} {kind : WorkKind} {name : String} {condition : Option (Condition σ)}
    {provider : Option (Provider σ)} {action : Action σ} {g₁ : Stage σ}
    (hspot : b.spot? s.cursor = some s) (hf : s.frame = .work kind name condition provider action)
    (hp : Passes s ⟨m.timeline, s.cursor⟩) (he : Evaluates b [] g g₁)
    (hs : SavesSucceed (b.work ls a s provider action ⟨m.timeline, s.cursor⟩ x g₁).2.trace) :
    TurnsTo b enters ls a x s.cursor m g (b.work ls a s provider action ⟨m.timeline, s.cursor⟩ x g₁).1
      (b.work ls a s provider action ⟨m.timeline, s.cursor⟩ x g₁).2 := by
  have hframe : b.frames[s.position]? = some (.work kind name condition provider action) :=
    (spot?_some hspot).1.trans (congrArg some hf)
  have hc := contextOf_cases hframe ls ⟨m.timeline, s.cursor⟩ x g₁
  simp only [Frame.provider?] at hc
  unfold work at hs ⊢
  cases hx : contextOf ls s.position provider ⟨m.timeline, s.cursor⟩ x g₁ with
  | mk answer g₂ =>
    rw [hx] at hc hs
    rcases hc with ⟨f, hf', hr⟩ | ⟨x', hx', hgives, he'⟩
    · cases hf'
      exact .raised (he.raises hr)
    · cases hx'
      have hcall := call_cases (.action x' hframe) g₂ ls hframe .action
      dsimp only at hs ⊢
      cases ha : g₂.call ls s.position .action (action x') with
      | mk answer g₃ =>
        rw [ha] at hcall hs
        rcases hcall with ⟨f, hf', hr⟩ | ⟨y, hy, hanswers, he''⟩
        · cases hf'
          exact .raised ((he.trans he').raises hr)
        · cases hy
          have he₃ := (he.trans he').trans he''
          have hd := journals_complete ((he₃.runs.model? a).trans hm) s _ _ hs
          exact .next (some s.position) he₃
            (.work hspot hf hp hgives hanswers) hd.1 hd.2

theorem stop_cases {s : Spot σ} {given : Option String} {c : Condition σ} {g₁ : Stage σ}
    (hspot : b.spot? s.cursor = some s) (hf : s.frame = .stop given c) (he : Evaluates b [] g g₁)
    (hs : SavesSucceed (b.stop ls a s c ⟨m.timeline, s.cursor⟩ g₁).2.trace) :
    TurnsTo b enters ls a x s.cursor m g (b.stop ls a s c ⟨m.timeline, s.cursor⟩ g₁).1
      (b.stop ls a s c ⟨m.timeline, s.cursor⟩ g₁).2 := by
  have hframe : b.frames[s.position]? = some (.stop given c) := (spot?_some hspot).1.trans (congrArg some hf)
  have hcall := call_cases (.predicate ⟨m.timeline, s.cursor⟩ hframe) g₁ ls hframe .predicate
  unfold stop holds at hs ⊢
  cases ha : g₁.call ls s.position .predicate (c ⟨m.timeline, s.cursor⟩) with
  | mk answer g₂ =>
    rw [ha] at hcall hs
    rcases hcall with ⟨f, hf', hr⟩ | ⟨y, hy, hanswers, he'⟩
    · cases hf'
      exact .raised (he.raises hr)
    · cases hy
      simp only [Except.map] at hs ⊢
      have he₂ := he.trans he'
      have htake := Takes.stop (x := x) hspot hf hanswers
      cases ht : y.truth with
      | true =>
        rw [ht] at hs htake
        have hd := journals_complete ((he₂.runs.model? a).trans hm) s _ _ hs
        exact .ended he₂ htake (hd.1.report _) hd.2
      | false =>
        rw [ht] at hs htake
        have hd := journals_complete ((he₂.runs.model? a).trans hm) s _ _ hs
        exact .next none he₂ htake hd.1 hd.2

theorem jump_cases {s : Spot σ} {target : Target} {condition : Option (Condition σ)} {g₁ : Stage σ}
    (hspot : b.spot? s.cursor = some s) (hf : s.frame = .jump target condition)
    (hp : Passes s ⟨m.timeline, s.cursor⟩) (he : Evaluates b [] g g₁)
    (hs : SavesSucceed (b.jump ls a s target g₁).2.trace) :
    TurnsTo b enters ls a x s.cursor m g (b.jump ls a s target g₁).1 (b.jump ls a s target g₁).2 := by
  have hm₁ : g₁.world.model? a = some m := (he.runs.model? a).trans hm
  have ha := adds_add a s.name s.kind s.position (.int s.cursor) true g₁.world
  unfold jump at hs ⊢
  cases ht : b.jumpTarget target with
  | error f => exact .lost hspot hf ht he ⟨_, ha⟩
  | ok k =>
    rw [ht] at hs
    rw [journal_of_model hm₁] at ha
    obtain ⟨rs, hr, hskip⟩ := adds_skipped_eq b a m (between s.cursor k) (ha.model hm₁)
    have hall := ha.trans hr
    have hd := persist_journals hm₁ hall hs
    refine .next none he ?_ (hd.report _) (notes_persist hs)
    rw [← List.append_assoc, ← hskip]
    exact .jump hspot hf hp ht

omit hm in
theorem story_cases {s : Spot σ} {c : Board σ} {condition : Option (Condition σ)}
    {provider : Option (Provider σ)} {enter : Enter σ} {g₁ : Stage σ} (hspot : b.spot? s.cursor = some s)
    (hf : s.frame = .story c condition provider) (henter : enters[s.position]? = some enter)
    (he : Evaluates b [] g g₁) :
    TurnsTo b enters ls a x s.cursor m g (.halt (b.story ls a s enter provider ⟨m.timeline, s.cursor⟩ x g₁).1)
      (b.story ls a s enter provider ⟨m.timeline, s.cursor⟩ x g₁).2 := by
  have hframe : b.frames[s.position]? = some (.story c condition provider) :=
    (spot?_some hspot).1.trans (congrArg some hf)
  have hc := contextOf_cases hframe ls ⟨m.timeline, s.cursor⟩ x g₁
  simp only [Frame.provider?] at hc
  cases hx : contextOf ls s.position provider ⟨m.timeline, s.cursor⟩ x g₁ with
  | mk answer g₂ =>
    rw [hx] at hc
    rcases hc with ⟨f, hf', hr⟩ | ⟨x', hx', -, he'⟩
    · cases hf'
      unfold story
      rw [hx]
      exact .raised (he.raises hr)
    · cases hx'
      have heq : b.story ls a s enter provider ⟨m.timeline, s.cursor⟩ x g₁ =
          b.story ls a s enter none ⟨m.timeline, s.cursor⟩ x' g₂ := by
        unfold story
        rw [hx]
        rfl
      rw [heq]
      exact .story hspot hf henter (he.trans he')

/-- **What a step amounts to.** -/
theorem turn_cases {cursor : Int} (h₀ : 0 ≤ cursor) (hlt : cursor < b.frames.length)
    (hs : SavesSucceed (b.turn enters ls a x cursor g).2.trace) :
    TurnsTo b enters ls a x cursor m g (b.turn enters ls a x cursor g).1 (b.turn enters ls a x cursor g).2 := by
  obtain ⟨s, hspot⟩ := spot?_of_lt h₀ hlt
  obtain ⟨hframe, rfl, -⟩ := spot?_some hspot
  unfold turn at hs ⊢
  rw [hspot] at hs ⊢
  dsimp only at hs ⊢
  rw [journal_of_model hm] at hs ⊢
  have htaken := taken_cases hframe ls ⟨m.timeline, s.cursor⟩ g
  cases ht : taken ls s ⟨m.timeline, s.cursor⟩ g with
  | mk answer g₁ =>
    rw [ht] at hs htaken
    rcases htaken with ⟨f, hf, hr⟩ | ⟨hyes, hp, he⟩ | ⟨hno, he, c, y, hc, hy, hfalse⟩
    · cases hf
      exact .raised hr
    · cases hyes
      cases hf : s.frame with
      | work kind name condition provider action =>
        simp only [hf] at hs ⊢
        exact work_cases hm hspot hf hp he hs
      | stop given condition =>
        simp only [hf] at hs ⊢
        exact stop_cases hm hspot hf he hs
      | jump target condition =>
        simp only [hf] at hs ⊢
        exact jump_cases hm hspot hf hp he hs
      | story c condition provider =>
        simp only [hf] at hs ⊢
        cases henter : enters[s.position]? with
        | none => exact .closed hspot hf henter he
        | some enter => exact story_cases hspot hf henter he
    · cases hno
      exact skip_cases hm hspot hc hy hfalse he hs

theorem turnsTo_of_turn {cursor : Int} {t : Turn} {g' : Stage σ} (h₀ : 0 ≤ cursor)
    (hlt : cursor < b.frames.length) (ht : b.turn enters ls a x cursor g = (t, g')) (hs : SavesSucceed g'.trace) :
    TurnsTo b enters ls a x cursor m g t g' := by
  have hturns := turn_cases hm h₀ hlt (by
    rw [ht]
    exact hs)
  rw [ht] at hturns
  exact hturns

end

end Board

end Boardwalk
