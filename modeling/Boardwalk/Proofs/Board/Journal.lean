import Boardwalk.Proofs.Board.Course
/-!
# Journaling

A step adds records to the journal in memory (`Adds`) and saves it. If the save succeeds, the file holds the
journal with the new records (`persist_journals`).
-/

namespace Boardwalk

variable {σ : Type}

def Moment.acted? (m : Moment σ) : Option Nat :=
  match m.event with
  | .evaluated position .action (.ok _) => some position
  | _ => none

def Moment.isUnsaved (m : Moment σ) : Bool :=
  match m.event with
  | .saved (.error _) => true
  | _ => false

namespace Board

theorem journal_of_model {w : World σ} {a : Address} {m : Model} (h : w.model? a = some m) :
    w.journal a = m.timeline := by
  unfold World.journal
  rw [h]
  rfl

theorem model?_withJournal {w : World σ} {a : Address} {m : Model} (h : w.model? a = some m) (t : Timeline) :
    (w.withJournal a t).model? a = some { m with timeline := t } := by
  unfold World.withJournal
  rw [h]
  exact World.model?_remember_self w a _

/-! ## Adding records -/

structure Adds (a : Address) (rs : Timeline) (w w' : World σ) : Prop where
  model : ∀ {m}, w.model? a = some m → w'.model? a = some ⟨m.board, m.timeline ++ rs⟩
  others : ∀ {a'}, a' ≠ a → w'.model? a' = w.model? a'
  disk : w'.disk = w.disk
  held : w'.held = w.held
  user : w'.user = w.user

theorem Adds.nil (a : Address) (w : World σ) : Adds a [] w w where
  model h := by
    rw [List.append_nil]
    exact h
  others _ := rfl
  disk := rfl
  held := rfl
  user := rfl

theorem Adds.trans {a : Address} {rs rs' : Timeline} {w w' w'' : World σ} (h : Adds a rs w w')
    (h' : Adds a rs' w' w'') : Adds a (rs ++ rs') w w'' where
  model hm := by
    rw [← List.append_assoc]
    exact h'.model (h.model hm)
  others hn := (h'.others hn).trans (h.others hn)
  disk := h'.disk.trans h.disk
  held := h'.held.trans h.held
  user := h'.user.trans h.user

theorem adds_add (a : Address) (name kind : String) (frameIndex : Int) (output : Value) (completed : Bool)
    (w : World σ) : Adds a [(w.journal a).entry name kind frameIndex output completed] w
      (add a name kind frameIndex output completed w) where
  model hm := by
    unfold add World.append
    exact (model?_withJournal hm _).trans (by rw [journal_of_model hm])
  others hn := model?_withJournal_ne w _ hn
  disk := withJournal_disk w a _
  held := withJournal_held w a _
  user := by
    unfold add World.append World.withJournal
    split
    · rfl
    · rfl

theorem adds_entry {a : Address} {w : World σ} {m : Model} (hm : w.model? a = some m) (name kind : String)
    (frameIndex : Int) (output : Value) (completed : Bool) :
    Adds a [m.timeline.entry name kind frameIndex output completed] w
      (add a name kind frameIndex output completed w) := by
  rw [← journal_of_model hm]
  exact adds_add a name kind frameIndex output completed w

/-! ## Saving -/

def FileApart (b : Board σ) : Prop := ∀ {p c}, b.Has p c → p ≠ [] → b.session.file ≠ c.session.file

def SavesSucceed (ms : List (Moment σ)) : Prop := ∀ m ∈ ms, ∀ f, m.event ≠ .saved (.error f)

theorem savesSucceed_iff {ms : List (Moment σ)} : SavesSucceed ms ↔ ∀ m ∈ ms, m.isUnsaved = false := by
  apply forall₂_congr
  intro m _
  unfold Moment.isUnsaved
  cases m.event with
  | saved answer => cases answer <;> simp
  | _ => simp

instance (ms : List (Moment σ)) : Decidable (SavesSucceed ms) := decidable_of_iff' _ savesSucceed_iff

theorem SavesSucceed.of_extends {g g' : Stage σ} (h : SavesSucceed g'.trace) (he : Extends g g') :
    SavesSucceed g.trace := fun m hm => h m (he.mem hm)

structure Journals (b : Board σ) (a : Address) (m : Model) (rs : Timeline) (w w' : World σ) : Prop where
  model : w'.model? a = some ⟨m.board, m.timeline ++ rs⟩
  holds : b.session.FileHolds ⟨m.board, m.timeline ++ rs⟩ w'.disk
  stays : Disk.StaysBut b.session.file w.disk w'.disk
  others : ∀ {a'}, a' ≠ a → w'.model? a' = w.model? a'
  held : w'.held = w.held
  user : w'.user = w.user

theorem Journals.report {b : Board σ} {a : Address} {m : Model} {rs : Timeline} {w w' : World σ}
    (h : Journals b a m rs w w') (e : Log.Entry) : Journals b a m rs w (w'.report e) :=
  ⟨h.model, h.holds, h.stays, h.others, h.held, h.user⟩

/-- **What is added and saved is in memory and in the file.** -/
theorem persist_journals {b : Board σ} {ls : List (Level σ)} {a : Address} {g : Stage σ} {w : World σ}
    {m : Model} {rs : Timeline} (hm : g.world.model? a = some m) (ha : Adds a rs g.world w)
    (hs : SavesSucceed (b.persist ls a (g.withWorld w)).trace) :
    Journals b a m rs g.world (b.persist ls a (g.withWorld w)).world := by
  have hmodel := ha.model hm
  have hstays := Session.stays_save b.session a w
  obtain ⟨hmemory, huser, hheld⟩ := Session.save_rest b.session a w
  have hrest : ∀ a', (b.session.save a w).2.model? a' = w.model? a' := fun a' => by
    unfold World.model?
    rw [hmemory]
  have hsaved := @Session.save_ok σ b.session a w
  unfold persist at hs ⊢
  rw [Stage.withWorld_world] at hs ⊢
  cases h : b.session.save a w with
  | mk answer w' =>
    rw [h] at hs hstays huser hheld hrest hsaved
    cases answer with
    | error f => exact absurd rfl (hs _ List.mem_cons_self f)
    | ok u =>
      obtain ⟨m', hm', hholds⟩ := hsaved rfl
      rw [hmodel] at hm'
      cases hm'
      refine ⟨(hrest a).trans hmodel, hholds, ?_, fun hn => (hrest _).trans (ha.others hn),
        hheld.trans ha.held, huser.trans ha.user⟩
      rw [← ha.disk]
      exact hstays

theorem persist_trace {b : Board σ} {ls : List (Level σ)} {a : Address} {g : Stage σ}
    (hs : SavesSucceed (b.persist ls a g).trace) :
    (b.persist ls a g).trace = ⟨ls, .saved (.ok ()), g.world⟩ :: g.trace := by
  unfold persist at hs ⊢
  cases h : b.session.save a g.world with
  | mk answer w =>
    rw [h] at hs
    cases answer with
    | error f => exact absurd rfl (hs _ List.mem_cons_self f)
    | ok u => rfl

end Board

end Boardwalk
