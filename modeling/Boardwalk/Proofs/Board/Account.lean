import Boardwalk.Proofs.Board.Span
import Boardwalk.Proofs.Board.Turn
/-!
# What a step tells and journals

Every step of a board tells of the code that it calls, and adds records to the journal: which ones, the events and the
answers in them decide (`Tells`). A step that raises a fault of its own leaves the file alone; every other step is
saved with its records (`turn_does`). Nothing here depends on whether earlier saves succeeded.
-/

namespace Boardwalk

variable {σ : Type}

def Spot.inFlight (s : Spot σ) (t : Timeline) : Record := t.entry s.name s.kind s.position (.dict []) false

/-- The record of a story frame whose board came to an outcome. The update takes null for a field that is left out, so
the record keeps the output that it had in flight. -/
def Spot.concluded (s : Spot σ) (t : Timeline) (output : Json) : Record :=
  t.entry s.name s.kind s.position (if (Value.ofJson output).isNull then .dict [] else Value.ofJson output) true

/-- The step is not cut short: the walk goes on, or it is over. -/
def Turn.Completes (turn : Turn) : Prop := ∀ h, turn = .halt h → h = .ended

theorem Turn.completes_next (cursor : Int) : Completes (.next cursor) := fun _ he => nomatch he

theorem Turn.completes_ended : Completes (.halt .ended) := fun _ he => (Turn.halt.inj he).symm

/-- After this the board does nothing more: a board below was entered, or a stop predicate held. -/
def Event.EndsBoard : Event → Prop
  | .entered _ => True
  | .evaluated _ .predicate (.ok y) => y.truth = true
  | _ => False

namespace Board

/-! ## The account of a step -/

def Says (code : Code σ Value) (answer : Except Fault Value) : Prop := ∃ w, (code w).1 = answer

inductive Decides (s : Spot σ) (v : View) : List Event → Except Fault Bool → Prop where
  | free : s.frame.condition? = none → Decides s v [] (.ok true)
  | asked {c : Condition σ} {answer : Except Fault Value} : s.frame.condition? = some c → Says (c v) answer →
      Decides s v [.evaluated s.position .condition answer] (answer.map Value.truth)

inductive Provides (s : Spot σ) (v : View) (x : Value) : List Event → Except Fault Value → Prop where
  | free : s.frame.provider? = none → Provides s v x [] (.ok x)
  | asked {p : Provider σ} {answer : Except Fault Value} : s.frame.provider? = some p → Says (p v x) answer →
      Provides s v x [.evaluated s.position .provider answer] answer

inductive Tells (b : Board σ) (x : Value) (t : Timeline) (cursor : Int) : List Event → Timeline → Turn → Prop where
  | outside : b.spot? cursor = none → Tells b x t cursor [] [] (.halt (.raised (.noFrame (isVast cursor))))
  | undecided {s : Spot σ} {es : List Event} {f : Fault} : b.spot? cursor = some s →
      Decides s ⟨t, cursor⟩ es (.error f) → Tells b x t cursor es [] (.halt (.raised f))
  | skip {s : Spot σ} {es : List Event} : b.spot? cursor = some s → Decides s ⟨t, cursor⟩ es (.ok false) →
      Tells b x t cursor es [t.entry s.name emptyKind s.position (.dict []) true] (.next (cursor + 1))
  | unprovided {s : Spot σ} {es es' : List Event} {f : Fault} : b.spot? cursor = some s →
      Decides s ⟨t, cursor⟩ es (.ok true) → Provides s ⟨t, cursor⟩ x es' (.error f) →
      Tells b x t cursor (es ++ es') [] (.halt (.raised f))
  | unworked {s : Spot σ} {kind : WorkKind} {name : String} {condition : Option (Condition σ)}
      {provider : Option (Provider σ)} {action : Action σ} {es es' : List Event} {x' : Value} {f : Fault} :
      b.spot? cursor = some s → s.frame = .work kind name condition provider action →
      Decides s ⟨t, cursor⟩ es (.ok true) → Provides s ⟨t, cursor⟩ x es' (.ok x') → Says (action x') (.error f) →
      Tells b x t cursor (es ++ es' ++ [.evaluated s.position .action (.error f)]) [] (.halt (.raised f))
  | work {s : Spot σ} {kind : WorkKind} {name : String} {condition : Option (Condition σ)}
      {provider : Option (Provider σ)} {action : Action σ} {es es' : List Event} {x' y : Value} :
      b.spot? cursor = some s → s.frame = .work kind name condition provider action →
      Decides s ⟨t, cursor⟩ es (.ok true) → Provides s ⟨t, cursor⟩ x es' (.ok x') → Says (action x') (.ok y) →
      Tells b x t cursor (es ++ es' ++ [.evaluated s.position .action (.ok y)])
        [t.entry s.name s.kind s.position y true] (.next (cursor + 1))
  | unstopped {s : Spot σ} {given : Option String} {c : Condition σ} {f : Fault} : b.spot? cursor = some s →
      s.frame = .stop given c → Says (c ⟨t, cursor⟩) (.error f) →
      Tells b x t cursor [.evaluated s.position .predicate (.error f)] [] (.halt (.raised f))
  | stop {s : Spot σ} {given : Option String} {c : Condition σ} {y : Value} : b.spot? cursor = some s →
      s.frame = .stop given c → Says (c ⟨t, cursor⟩) (.ok y) →
      Tells b x t cursor [.evaluated s.position .predicate (.ok y)]
        [t.entry s.name s.kind s.position (.bool y.truth) true]
        (if y.truth then .halt .ended else .next (cursor + 1))
  | lost {s : Spot σ} {target : Target} {condition : Option (Condition σ)} {es : List Event} {f : Fault} :
      b.spot? cursor = some s → s.frame = .jump target condition → Decides s ⟨t, cursor⟩ es (.ok true) →
      b.jumpTarget target = .error f →
      Tells b x t cursor es [t.entry s.name s.kind s.position (.int cursor) true] (.halt (.raised f))
  | jump {s : Spot σ} {target : Target} {condition : Option (Condition σ)} {es : List Event} {k : Nat}
      {gaps : Timeline} : b.spot? cursor = some s → s.frame = .jump target condition →
      Decides s ⟨t, cursor⟩ es (.ok true) → b.jumpTarget target = .ok k →
      b.skipped (t ++ [t.entry s.name s.kind s.position (.int cursor) true]) (between cursor k) =
        t ++ [t.entry s.name s.kind s.position (.int cursor) true] ++ gaps →
      Tells b x t cursor es (t.entry s.name s.kind s.position (.int cursor) true :: gaps) (.next k)
  | story {s : Spot σ} {c : Board σ} {condition : Option (Condition σ)} {provider : Option (Provider σ)}
      {es es' : List Event} {x' : Value} {h : Halt} : b.spot? cursor = some s →
      s.frame = .story c condition provider → Decides s ⟨t, cursor⟩ es (.ok true) →
      Provides s ⟨t, cursor⟩ x es' (.ok x') → h ≠ .ended →
      Tells b x t cursor (es ++ es' ++ [.entered s.position])
        [s.inFlight t] (.halt h)
  | concluded {s : Spot σ} {c : Board σ} {condition : Option (Condition σ)} {provider : Option (Provider σ)}
      {es es' : List Event} {x' y : Value} : b.spot? cursor = some s →
      s.frame = .story c condition provider → Decides s ⟨t, cursor⟩ es (.ok true) →
      Provides s ⟨t, cursor⟩ x es' (.ok x') →
      Tells b x t cursor (es ++ es' ++ [.entered s.position])
        [t.entry s.name s.kind s.position y true] (.halt .ended)

def Quits (es : List Event) (turn : Turn) : Prop := (∀ p, .entered p ∉ es) ∧ ∃ f, turn = .halt (.raised f)

theorem Decides.goes_on {s : Spot σ} {v : View} {es : List Event} {r : Except Fault Bool} (h : Decides s v es r) :
    ∀ e ∈ es, ¬ e.EndsBoard := by
  cases h <;> simp [Event.EndsBoard]

theorem Decides.quiet {s : Spot σ} {v : View} {es : List Event} {r : Except Fault Bool} (h : Decides s v es r) :
    ∀ p, .entered p ∉ es := fun _ hp => h.goes_on _ hp trivial

theorem Decides.eq_nil {s : Spot σ} {v : View} {es : List Event} {r : Except Fault Bool} (h : Decides s v es r)
    (hc : s.frame.condition? = none) : es = [] := by
  cases h with
  | free => rfl
  | asked hc' => simp [hc] at hc'

theorem Provides.goes_on {s : Spot σ} {v : View} {x : Value} {es : List Event} {r : Except Fault Value}
    (h : Provides s v x es r) : ∀ e ∈ es, ¬ e.EndsBoard := by
  cases h <;> simp [Event.EndsBoard]

theorem Provides.quiet {s : Spot σ} {v : View} {x : Value} {es : List Event} {r : Except Fault Value}
    (h : Provides s v x es r) : ∀ p, .entered p ∉ es := fun _ hp => h.goes_on _ hp trivial

theorem Tells.quits {b : Board σ} {x : Value} {t : Timeline} {cursor : Int} {es : List Event} {turn : Turn}
    (h : Tells b x t cursor es [] turn) : Quits es turn := by
  cases h with
  | outside => exact ⟨by simp, _, rfl⟩
  | undecided _ hd => exact ⟨hd.quiet, _, rfl⟩
  | unprovided _ hd hp => exact ⟨by simp [hd.quiet, hp.quiet], _, rfl⟩
  | unworked _ _ hd hp => exact ⟨by simp [hd.quiet, hp.quiet], _, rfl⟩
  | unstopped => exact ⟨by simp, _, rfl⟩

/-- No board below shares the file of the session, and no code of the tree writes it. -/
structure OwnsFile (b : Board σ) : Prop where
  apart : b.FileApart
  spares : ∀ {p c code}, b.Has p c → c.Calls code →
    ∀ w, (code w).2.disk.node? b.session.file = w.disk.node? b.session.file

/-! ## The code of a step -/

/-- From the first stage to the second one only code of the board is called. -/
structure Asks (b : Board σ) (ls : List (Level σ)) (es : List Event) (g g' : Stage σ) : Prop where
  moments : ∃ ms, g'.trace = ms ++ g.trace ∧ told ls.length ms = es ∧
    ∀ m ∈ ms, ∀ a, m.world.model? a = g.world.model? a
  model : ∀ a, g'.world.model? a = g.world.model? a
  file : b.OwnsFile → g'.world.disk.node? b.session.file = g.world.disk.node? b.session.file

section

variable {b : Board σ} {ls : List (Level σ)} {es es' : List Event} {g g' g'' : Stage σ}

theorem Asks.refl (b : Board σ) (ls : List (Level σ)) (g : Stage σ) : Asks b ls [] g g :=
  ⟨⟨[], rfl, rfl, fun _ hm => absurd hm List.not_mem_nil⟩, fun _ => rfl, fun _ => rfl⟩

theorem Asks.trans (h : Asks b ls es g g') (h' : Asks b ls es' g' g'') : Asks b ls (es ++ es') g g'' := by
  obtain ⟨ms, ht, rfl, hms⟩ := h.moments
  obtain ⟨ms', ht', rfl, hms'⟩ := h'.moments
  refine ⟨⟨ms' ++ ms, by rw [ht', ht, List.append_assoc], told_append .., fun m hm a => ?_⟩,
    fun a => (h'.model a).trans (h.model a), fun hb => (h'.file hb).trans (h.file hb)⟩
  rcases List.mem_append.mp hm with hm | hm
  · exact (hms' m hm a).trans (h.model a)
  · exact hms m hm a

theorem Asks.report (h : Asks b ls es g g') (e : Log.Entry) : Asks b ls es g (g'.withWorld (g'.world.report e)) :=
  ⟨h.moments, h.model, h.file⟩

theorem Asks.spans (h : Asks b ls es g g') (n : Nat) (a : Address) :
    ∃ ms, Spans n a ms g g' ∧ told ls.length ms = es := by
  obtain ⟨ms, ht, he, hms⟩ := h.moments
  exact ⟨ms, .of_still ht (fun m hm => hms m hm a) (h.model a), he⟩

variable (ls) in
theorem call_asks {code : Code σ Value} (hc : b.Calls code) (g : Stage σ) (position : Nat) (role : Role) :
    ∃ answer, (g.call ls position role code).1 = answer ∧ Says code answer ∧
      Asks b ls [.evaluated position role answer] g (g.call ls position role code).2 := by
  refine ⟨(code g.world).1, rfl, ⟨g.world, rfl⟩, ⟨[⟨ls, .evaluated position role (code g.world).1, g.world⟩], rfl,
    by simp, ?_⟩, fun _ => rfl, fun hb => hb.spares (.here b) hc g.world⟩
  simp

variable (ls) in
theorem taken_asks {s : Spot σ} (hs : b.frames[s.position]? = some s.frame) (v : View) (g : Stage σ) :
    ∃ es, Decides s v es (taken ls s v g).1 ∧ Asks b ls es g (taken ls s v g).2 := by
  unfold taken
  cases hc : s.frame.condition? with
  | none => exact ⟨[], .free hc, .refl b ls g⟩
  | some c =>
    obtain ⟨answer, rfl, hsays, hasks⟩ := call_asks ls (.condition v hs hc) g s.position .condition
    exact ⟨_, .asked hc hsays, hasks⟩

variable (ls) in
theorem contextOf_asks {s : Spot σ} (hs : b.frames[s.position]? = some s.frame) (v : View) (x : Value)
    (g : Stage σ) : ∃ es, Provides s v x es (contextOf ls s.position s.frame.provider? v x g).1 ∧
      Asks b ls es g (contextOf ls s.position s.frame.provider? v x g).2 := by
  unfold contextOf
  cases hp : s.frame.provider? with
  | none => exact ⟨[], .free hp, .refl b ls g⟩
  | some p =>
    obtain ⟨answer, rfl, hsays, hasks⟩ := call_asks ls (.provider v x hs hp) g s.position .provider
    exact ⟨_, .asked hp hsays, hasks⟩

end

/-! ## Steps -/

/-- A step from the first stage to the second one, with the moments and the records that it adds. -/
structure Does (b : Board σ) (ls : List (Level σ)) (a : Address) (n : Nat) (x : Value) (cursor : Int) (m : Model)
    (g : Stage σ) (ms : List (Moment σ)) (rs : Timeline) (turn : Turn) (g' : Stage σ) : Prop where
  spans : Spans n a ms g g'
  model : g'.world.model? a = some ⟨m.board, m.timeline ++ rs⟩
  tells : Tells b x m.timeline cursor (told ls.length ms) rs turn
  spares : b.OwnsFile → Quits (told ls.length ms) turn →
    g'.world.disk.node? b.session.file = g.world.disk.node? b.session.file
  saves : turn.Completes ∨ b.OwnsFile → SavesSucceed ms → ¬ Quits (told ls.length ms) turn →
    b.session.FileHolds ⟨m.board, m.timeline ++ rs⟩ g'.world.disk

/-- At the end of this stretch the journal is in memory, and on a condition also in the file if it was saved. -/
structure Commits (P : Prop) (b : Board σ) (a : Address) (n : Nat) (m : Model) (ms : List (Moment σ))
    (g g' : Stage σ) : Prop where
  spans : Spans n a ms g g'
  model : g'.world.model? a = some m
  holds : P → SavesSucceed ms → b.session.FileHolds m g'.world.disk

theorem savesSucceed_append {ms ms' : List (Moment σ)} (h : SavesSucceed (ms' ++ ms)) :
    SavesSucceed ms' ∧ SavesSucceed ms :=
  ⟨fun m hm => h m (List.mem_append_left _ hm), fun m hm => h m (List.mem_append_right _ hm)⟩

theorem Spans.commits {P : Prop} {b : Board σ} {a : Address} {n : Nat} {m : Model} {ms ms' : List (Moment σ)}
    {g g' g'' : Stage σ} (h : Spans n a ms g g') (h' : Commits P b a n m ms' g' g'') :
    Commits P b a n m (ms' ++ ms) g g'' :=
  ⟨h.trans h'.spans, h'.model, fun hp hs => h'.holds hp (savesSucceed_append hs).1⟩

theorem persist_commits (b : Board σ) (ls : List (Level σ)) {a : Address} {g : Stage σ} {m : Model}
    (hm : g.world.model? a = some m) (n : Nat) :
    ∃ answer, Commits True b a n m [⟨ls, .saved answer, g.world⟩] g (b.persist ls a g) := by
  have hrest : (b.session.save a g.world).2.model? a = g.world.model? a := by
    unfold World.model?
    rw [(Session.save_rest b.session a g.world).1]
  have hsaved := @Session.save_ok σ b.session a g.world
  unfold persist
  cases h : b.session.save a g.world with
  | mk answer w =>
    rw [h] at hrest hsaved
    cases answer with
    | ok u =>
      obtain ⟨m', hm', hholds⟩ := hsaved rfl
      rw [hm] at hm'
      cases hm'
      exact ⟨.ok (), .of_still rfl (by simp) hrest, hrest.trans hm, fun _ _ => hholds⟩
    | error f =>
      refine ⟨.error f, .of_still rfl (by simp) hrest, hrest.trans hm, fun _ hs => ?_⟩
      exact absurd rfl (hs _ List.mem_cons_self f)

theorem adds_commits (b : Board σ) (ls : List (Level σ)) {a : Address} {n : Nat} {m : Model} {rs : Timeline}
    {g : Stage σ} {w : World σ} (hm : g.world.model? a = some m) (ha : Adds a rs g.world w)
    (hp : Timeline.Prolongs n m.timeline (m.timeline ++ rs)) :
    ∃ answer, Commits True b a n ⟨m.board, m.timeline ++ rs⟩ [⟨ls, .saved answer, w⟩] g
      (b.persist ls a (g.withWorld w)) := by
  have hmw := ha.model hm
  have hw : Spans n a [] g (g.withWorld w) := .withWorld (by
    rw [journal_of_model hm, journal_of_model hmw]
    exact hp)
  obtain ⟨answer, h⟩ := persist_commits b ls (g := g.withWorld w) hmw n
  exact ⟨answer, hw.commits h⟩

section

variable {b : Board σ} {ls : List (Level σ)} {a : Address} {n : Nat} {x : Value} {cursor : Int} {m : Model}
  {g g₁ : Stage σ} {es : List Event} (hm : g.world.model? a = some m) (hn : n ≤ m.timeline.length)

theorem Does.report {ms : List (Moment σ)} {rs : Timeline} {turn : Turn} {g' : Stage σ}
    (h : Does b ls a n x cursor m g ms rs turn g') (e : Log.Entry) :
    Does b ls a n x cursor m g ms rs turn (g'.withWorld (g'.world.report e)) :=
  ⟨⟨h.spans.trace, h.spans.grows, h.spans.within, h.spans.ordered⟩, h.model, h.tells, h.spares, h.saves⟩

include hm

theorem does_raised (he : Asks b ls es g g₁) {f : Fault} (ht : Tells b x m.timeline cursor es [] (.halt (.raised f))) :
    ∃ ms, Does b ls a n x cursor m g ms [] (.halt (.raised f)) g₁ := by
  obtain ⟨ms, hs, rfl⟩ := he.spans n a
  refine ⟨ms, hs, ?_, ht, fun hb _ => he.file hb, fun _ _ hq => absurd ht.quits hq⟩
  rw [he.model a, List.append_nil]
  exact hm

omit hm in
theorem Commits.does {P : Prop} {rs : Timeline} {ms : List (Moment σ)} {turn : Turn}
    (h : Commits P b a n ⟨m.board, m.timeline ++ rs⟩ ms g g₁)
    (ht : Tells b x m.timeline cursor (told ls.length ms) rs turn) (hq : ¬ Quits (told ls.length ms) turn)
    (hp : turn.Completes ∨ b.OwnsFile → P) : Does b ls a n x cursor m g ms rs turn g₁ :=
  ⟨h.spans, h.model, ht, fun _ hq' => absurd hq' hq, fun hc hs _ => h.holds (hp hc) hs⟩

theorem does_persist (he : Asks b ls es g g₁) {rs : Timeline} {w : World σ} (ha : Adds a rs g₁.world w)
    (hp : Timeline.Prolongs n m.timeline (m.timeline ++ rs)) {turn : Turn}
    (ht : Tells b x m.timeline cursor es rs turn) (hturn : ∀ f, turn ≠ .halt (.raised f)) :
    ∃ ms, Does b ls a n x cursor m g ms rs turn (b.persist ls a (g₁.withWorld w)) := by
  obtain ⟨ms, hs, rfl⟩ := he.spans n a
  obtain ⟨answer, h⟩ := adds_commits b ls ((he.model a).trans hm) ha hp
  refine ⟨_, (hs.commits h).does ?_ ?_ fun _ => trivial⟩
  · simpa using ht
  · rintro ⟨-, f, hf⟩
    exact hturn f hf

end

theorem prolongs_skipped (b : Board σ) (n : Nat) (is : List Int) (t : Timeline) :
    Timeline.Prolongs n t (b.skipped t is) := by
  induction is generalizing t with
  | nil => exact .refl n t
  | cons i is ih =>
    rw [skipped]
    exact (Timeline.Prolongs.concat n t rfl).trans (ih _)

section

variable {b : Board σ} {ls : List (Level σ)} {a : Address} {n : Nat} {x : Value} {m : Model} {g g₁ : Stage σ}
  {es : List Event} {s : Spot σ} (hm : g.world.model? a = some m) (hspot : b.spot? s.cursor = some s)
include hm hspot

theorem skip_does (he : Asks b ls es g g₁) (hd : Decides s ⟨m.timeline, s.cursor⟩ es (.ok false)) :
    ∃ ms rs, Does b ls a n x s.cursor m g ms rs (b.skip ls a s g₁).1 (b.skip ls a s g₁).2 := by
  have he' : Asks b ls es g (b.report Log.debug "Frame skipped" [("frame", .str s.name)] g₁) := he.report _
  have ha := adds_entry ((he'.model a).trans hm) s.name emptyKind s.position (.dict []) true
  obtain ⟨ms, h⟩ := does_persist hm he' ha (.concat n _ rfl) (.skip hspot hd) (by simp)
  exact ⟨ms, _, h⟩

variable (hd : Decides s ⟨m.timeline, s.cursor⟩ es (.ok true))
include hd

theorem work_does {kind : WorkKind} {name : String} {condition : Option (Condition σ)}
    {provider : Option (Provider σ)} {action : Action σ} (hf : s.frame = .work kind name condition provider action)
    (he : Asks b ls es g g₁) :
    ∃ ms rs, Does b ls a n x s.cursor m g ms rs (b.work ls a s provider action ⟨m.timeline, s.cursor⟩ x g₁).1
      (b.work ls a s provider action ⟨m.timeline, s.cursor⟩ x g₁).2 := by
  have hframe := (spot?_some hspot).1
  obtain ⟨es', hp, he'⟩ := contextOf_asks ls hframe ⟨m.timeline, s.cursor⟩ x g₁
  have hprovider : s.frame.provider? = provider := by simp [hf, Frame.provider?]
  rw [hprovider] at hp he'
  unfold work
  cases hc : contextOf ls s.position provider ⟨m.timeline, s.cursor⟩ x g₁ with
  | mk r g₂ =>
    rw [hc] at hp he'
    cases r with
    | error f =>
      obtain ⟨ms, h⟩ := does_raised hm (he.trans he') (.unprovided hspot hd hp)
      exact ⟨ms, [], h⟩
    | ok x' =>
      obtain ⟨answer, hr, hsays, he''⟩ :=
        call_asks ls (.action x' (hframe.trans (congrArg some hf))) g₂ s.position .action
      have hall := (he.trans he').trans he''
      dsimp only
      cases hcall : g₂.call ls s.position .action (action x') with
      | mk r g₃ =>
        rw [hcall] at hr hall
        subst hr
        cases r with
        | error f =>
          obtain ⟨ms, h⟩ := does_raised hm hall (.unworked hspot hf hd hp hsays)
          exact ⟨ms, [], h⟩
        | ok y =>
          have ha := adds_entry ((hall.model a).trans hm) s.name s.kind s.position y true
          obtain ⟨ms, h⟩ := does_persist hm hall ha (.concat n _ rfl) (.work hspot hf hd hp hsays) (by simp)
          exact ⟨ms, _, h⟩

theorem jump_does {target : Target} {condition : Option (Condition σ)} (hf : s.frame = .jump target condition)
    (he : Asks b ls es g g₁) :
    ∃ ms rs, Does b ls a n x s.cursor m g ms rs (b.jump ls a s target g₁).1 (b.jump ls a s target g₁).2 := by
  have hm₁ := (he.model a).trans hm
  have ha := adds_entry hm₁ s.name s.kind s.position (.int s.cursor) true
  unfold jump
  cases ht : b.jumpTarget target with
  | error f =>
    -- the record of the jump is in memory, but not in the file
    obtain ⟨ms, hs, rfl⟩ := he.spans n a
    have hw : Spans n a [] g₁ (g₁.withWorld (add a s.name s.kind s.position (.int s.cursor) true g₁.world)) :=
      .withWorld (by
        rw [journal_of_model hm₁, journal_of_model (ha.model hm₁)]
        exact .concat n _ rfl)
    refine ⟨[] ++ ms, _, hs.trans hw, ha.model hm₁, .lost hspot hf hd ht, fun hb _ => ?_, fun _ _ hq => ?_⟩
    · rw [Stage.withWorld_world, ha.disk]
      exact he.file hb
    · exact absurd ⟨hd.quiet, f, rfl⟩ hq
  | ok k =>
    obtain ⟨gaps, hgaps, hskip⟩ := adds_skipped_eq b a m (between s.cursor k) (ha.model hm₁)
    have hp := (Timeline.Prolongs.concat n m.timeline (r := m.timeline.entry s.name s.kind s.position (.int s.cursor) true)
      rfl).trans (prolongs_skipped b n (between s.cursor k) _)
    rw [hskip, List.append_assoc] at hp
    obtain ⟨ms, h⟩ := does_persist hm he (ha.trans hgaps) hp (.jump hspot hf hd ht hskip) (by simp)
    exact ⟨ms, _, h.report _⟩

end

section

variable {b : Board σ} {ls : List (Level σ)} {a : Address} {n : Nat} {x : Value} {m : Model} {g g₁ : Stage σ}
  {es : List Event} {s : Spot σ} (hm : g.world.model? a = some m) (hspot : b.spot? s.cursor = some s)
include hm hspot

theorem stop_does {given : Option String} {c : Condition σ} (hf : s.frame = .stop given c) (he : Asks b ls [] g g₁) :
    ∃ ms rs, Does b ls a n x s.cursor m g ms rs (b.stop ls a s c ⟨m.timeline, s.cursor⟩ g₁).1
      (b.stop ls a s c ⟨m.timeline, s.cursor⟩ g₁).2 := by
  obtain ⟨answer, hr, hsays, he'⟩ := call_asks ls
    (.predicate ⟨m.timeline, s.cursor⟩ ((spot?_some hspot).1.trans (congrArg some hf))) g₁ s.position .predicate
  have hall := he.trans he'
  unfold stop holds
  cases hcall : g₁.call ls s.position .predicate (c ⟨m.timeline, s.cursor⟩) with
  | mk r g₂ =>
    rw [hcall] at hr hall
    subst hr
    cases r with
    | error f =>
      obtain ⟨ms, h⟩ := does_raised hm hall (.unstopped hspot hf hsays)
      exact ⟨ms, [], h⟩
    | ok y =>
      have ha := adds_entry ((hall.model a).trans hm) s.name s.kind s.position (.bool y.truth) true
      have htells := Tells.stop (x := x) hspot hf hsays
      simp only [Except.map]
      cases hy : y.truth with
      | true =>
        rw [hy] at ha htells
        obtain ⟨ms, h⟩ := does_persist hm hall ha (.concat n _ rfl) htells (by simp)
        exact ⟨ms, _, h.report _⟩
      | false =>
        rw [hy] at ha htells
        obtain ⟨ms, h⟩ := does_persist hm hall ha (.concat n _ rfl) htells (by simp)
        exact ⟨ms, _, h⟩

end

/-! ## Story frames -/

theorem OwnsFile.below {b c : Board σ} (hb : b.OwnsFile) {i : Nat} {condition : Option (Condition σ)}
    {provider : Option (Provider σ)} (hf : b.frames[i]? = some (.story c condition provider)) (limit : Nat)
    (a : Address) (ls : List (Level σ)) (x : Value) (g : Stage σ) {content : Node}
    (h : g.world.disk.node? b.session.file = some content) :
    (enterBoard limit a c ls x g).2.world.disk.node? b.session.file = some content := by
  refine enterBoard_disk limit c a ls x g
    (K := fun d d' => ∀ n, d.node? b.session.file = some n → d'.node? b.session.file = some n) ?_ content h
  intro p d hd
  have hhas : b.Has (i :: p) d := .story hf hd
  exact ⟨fun _ _ hn => hn, fun h h' n hn => h' n (h n hn), fun hc w _ hn => (hb.spares hhas hc w).trans hn,
    fun hs n hn => hs _ n hn (.inl (hb.apart hhas (List.cons_ne_nil _ _)))⟩

def entering (b : Board σ) (ls : List (Level σ)) (a : Address) (s : Spot σ) (g : Stage σ) : Stage σ :=
  (b.persist ls a (g.withWorld (add a s.name s.kind s.position (.dict []) false g.world))).note ls (.entered s.position)

section

variable {b c : Board σ} {ls : List (Level σ)} {a : Address} {n : Nat} {x : Value} {m : Model} {g g₁ : Stage σ}
  {es : List Event} {s : Spot σ} {condition : Option (Condition σ)} {provider : Option (Provider σ)}
  (hspot : b.spot? s.cursor = some s) (hf : s.frame = .story c condition provider)
include hspot hf

variable (ls) in
theorem story_enters (hm : g.world.model? a = some m) (limit : Nat) (x' : Value) :
    ∃ ms, told ls.length ms = [.entered s.position] ∧
      Commits b.OwnsFile b a n ⟨m.board, m.timeline ++ [s.inFlight m.timeline]⟩ ms g
        (enterBoard limit (a ++ [s.position]) c ls x' (b.entering ls a s g)).2 := by
  obtain ⟨answer, h⟩ := adds_commits b ls hm (adds_entry hm s.name s.kind s.position (.dict []) false)
    (.concat n _ rfl)
  unfold entering
  generalize add a s.name s.kind s.position (.dict []) false g.world = w at h ⊢
  generalize b.persist ls a (g.withWorld w) = g₁ at h ⊢
  have hnote : Spans n a [⟨ls, .entered s.position, g₁.world⟩] g₁ (g₁.note ls (.entered s.position)) :=
    .of_still rfl (by simp) rfl
  -- nothing below has this address, and nothing below writes this file
  have hapart : ∀ p, a ≠ a ++ [s.position] ++ p := by simp
  have hbelow := enterBoard_below limit c hapart ls x' (g₁.note ls (.entered s.position))
  obtain ⟨ms, hs, htold⟩ := hbelow.spans n
  refine ⟨_, ?_, (h.spans.trans hnote).trans hs, ?_, fun hb hsaves => ?_⟩
  · simp [htold]
  · obtain ⟨-, -, -, hmodel⟩ := hbelow
    exact hmodel.trans h.model
  · have hsaved := (savesSucceed_append (savesSucceed_append hsaves).2).2
    obtain ⟨content, hc, hn⟩ := h.holds trivial hsaved
    exact ⟨content, hc, hb.below ((spot?_some hspot).1.trans (congrArg some hf)) limit _ ls x' _ hn⟩

variable (ls) in
omit hspot in
theorem conclude_commits {t : Timeline} {name : String}
    (hm : g.world.model? a = some ⟨name, t ++ [s.inFlight t]⟩) (hn : n ≤ t.length) (output : Json) :
    ∃ ms, (b.conclude ls a output g).1 = .ended ∧ told ls.length ms = [] ∧
      Commits True b a n ⟨name, t ++ [s.concluded t output]⟩ ms g (b.conclude ls a output g).2 := by
  have hkind : s.kind = "story_frame" := by
    simp [Spot.kind, hf, Frame.kind]
  -- the record in flight is the last one, so the edit reaches it
  have hupdate := Timeline.update_concat t s.name s.kind s.position (.dict []) (Value.ofJson output)
  have hmw := model?_withJournal hm (t ++ [s.concluded t output])
  have hw : Spans n a [] g (g.withWorld (g.world.withJournal a (t ++ [s.concluded t output]))) :=
    .withWorld (by
      rw [journal_of_model hm, journal_of_model hmw]
      exact .concluded hn ⟨hkind, rfl, _, rfl⟩)
  obtain ⟨answer, h⟩ := persist_commits b ls hmw n
    (g := g.withWorld (g.world.withJournal a (t ++ [s.concluded t output])))
  unfold Spot.inFlight at hm
  unfold Spot.concluded at h hw ⊢
  unfold conclude
  simp only [journal_of_model hm, List.getLast?_concat, hupdate]
  exact ⟨_, trivial, by simp, hw.commits h⟩

theorem story_does (hm : g.world.model? a = some m) (hn : n ≤ m.timeline.length)
    (hd : Decides s ⟨m.timeline, s.cursor⟩ es (.ok true)) (he : Asks b ls es g g₁) (limit : Nat) :
    ∃ ms rs, Does b ls a n x s.cursor m g ms rs
      (.halt (b.story ls a s (enterBoard limit (a ++ [s.position]) c) provider ⟨m.timeline, s.cursor⟩ x g₁).1)
      (b.story ls a s (enterBoard limit (a ++ [s.position]) c) provider ⟨m.timeline, s.cursor⟩ x g₁).2 := by
  obtain ⟨es', hp, he'⟩ := contextOf_asks ls (spot?_some hspot).1 ⟨m.timeline, s.cursor⟩ x g₁
  have hprovider : s.frame.provider? = provider := by simp [hf, Frame.provider?]
  rw [hprovider] at hp he'
  unfold story
  cases hc : contextOf ls s.position provider ⟨m.timeline, s.cursor⟩ x g₁ with
  | mk r g₂ =>
    rw [hc] at hp he'
    have hall := he.trans he'
    cases r with
    | error f =>
      obtain ⟨ms, h⟩ := does_raised hm hall (.unprovided hspot hd hp)
      exact ⟨ms, [], h⟩
    | ok x' =>
      obtain ⟨ms, hs, htold⟩ := hall.spans n a
      obtain ⟨ms', htold', hcommits⟩ :=
        story_enters (n := n) ls hspot hf ((hall.model a).trans hm) limit x'
      have hentered : told ls.length (ms' ++ ms) = es ++ es' ++ [.entered s.position] := by simp [htold, htold']
      -- a board below was entered, so the step does not quit, however it ends
      have hquits : ∀ {es'' turn}, ¬ Quits (es ++ es' ++ [.entered s.position] ++ es'') turn :=
        fun hq => hq.1 s.position (by simp)
      -- unless the run below succeeds with an outcome that can be written, the record stays in flight
      have hhalts : ∀ {h : Halt} {g₃ : Stage σ}, h ≠ .ended →
          Commits b.OwnsFile b a n ⟨m.board, m.timeline ++ [s.inFlight m.timeline]⟩ ms' g₂ g₃ →
          ∃ ms rs, Does b ls a n x s.cursor m g ms rs (.halt h) g₃ := fun hne hc => by
        refine ⟨ms' ++ ms, _, (hs.commits hc).does ?_ ?_ ?_⟩
        · rw [hentered]
          exact .story hspot hf hd hp hne
        · rw [hentered]
          exact fun hq => hq.1 s.position (by simp)
        · exact fun hcond => hcond.resolve_left fun hcompletes => hne (hcompletes _ rfl)
      unfold entering at hcommits
      dsimp only
      cases hrun : enterBoard limit (a ++ [s.position]) c ls x' ((b.persist ls a (g₂.withWorld
          (add a s.name s.kind s.position (.dict []) false g₂.world))).note ls (.entered s.position)) with
      | mk ending g₃ =>
        rw [hrun] at hcommits
        cases ending with
        | raised f => exact hhalts (by simp) hcommits
        | unfinished => exact hhalts (by simp) hcommits
        | failure f => exact hhalts (by simp) hcommits
        | success o =>
          dsimp only
          cases o.toValue.normal with
          | error f => exact hhalts (by simp) hcommits
          | ok output =>
            dsimp only
            obtain ⟨ms'', hended, htold'', hconcluded⟩ :=
              conclude_commits (n := n) ls hf hcommits.model hn output
            rw [hended]
            refine ⟨ms'' ++ (ms' ++ ms), _, ((hs.trans hcommits.spans).commits hconcluded).does ?_ ?_ fun _ => trivial⟩
            · rw [told_append, hentered, htold'', List.append_nil]
              exact .concluded hspot hf hd hp
            · rw [told_append, hentered]
              exact hquits

end

/-- **What a step tells, journals and saves.** -/
theorem turn_does {b : Board σ} {ls : List (Level σ)} {a : Address} {n : Nat} {m : Model} {g : Stage σ}
    (hm : g.world.model? a = some m) (hn : n ≤ m.timeline.length) (limit : Nat) (x : Value) (cursor : Int) :
    ∃ ms rs, Does b ls a n x cursor m g ms rs (b.turn (enterFrames limit a 0 b.frames) ls a x cursor g).1
      (b.turn (enterFrames limit a 0 b.frames) ls a x cursor g).2 := by
  unfold turn
  cases hspot : b.spot? cursor with
  | none =>
    obtain ⟨ms, h⟩ := does_raised hm (.refl b ls g) (.outside hspot)
    exact ⟨ms, [], h⟩
  | some s =>
    obtain ⟨hframe, rfl, -⟩ := spot?_some hspot
    obtain ⟨es, hd, he⟩ := taken_asks ls hframe ⟨m.timeline, s.cursor⟩ g
    rw [journal_of_model hm]
    dsimp only
    cases ht : taken ls s ⟨m.timeline, s.cursor⟩ g with
    | mk r g₁ =>
      rw [ht] at hd he
      cases r with
      | error f =>
        obtain ⟨ms, h⟩ := does_raised hm he (.undecided hspot hd)
        exact ⟨ms, [], h⟩
      | ok yes =>
        cases yes with
        | false => exact skip_does hm hspot he hd
        | true =>
          cases hf : s.frame with
          | work kind name condition provider action => exact work_does hm hspot hd hf he
          | stop given condition =>
            obtain rfl := hd.eq_nil (by simp [hf, Frame.condition?])
            exact stop_does hm hspot hf he
          | jump target condition => exact jump_does hm hspot hd hf he
          | story c condition provider =>
            have hstory := hframe.trans (congrArg some hf)
            simp only [enterFrames_story hstory]
            exact story_does hspot hf hm hn hd he limit

end Board

end Boardwalk
