import Boardwalk.Proofs.Board.Course
import Boardwalk.Proofs.Board.Reentry
/-!
# What lies beside a tree

A run writes, makes and removes no file but those of the sessions of its tree and their locks, and it removes no
directory (`run_isolated`). Whatever else happens to a file or a directory is done by the code of the boards, so
what that code leaves alone at one place stands there at every moment (`file?_throughout`, `dir_throughout`).
-/

namespace Boardwalk

namespace Disk

theorem file?_eq_some {d : Disk} {p : Place} {c : ByteArray} : d.file? p = some c ↔ d.node? p = some (.file c) := by
  unfold file?
  split
  · rename_i c' h
    rw [h]
    simp
  · rename_i h
    exact ⟨fun e => (nomatch e), fun e => absurd e (h c)⟩

theorem file?_congr {d d' : Disk} {p : Place} (h : d'.node? p = d.node? p) : d'.file? p = d.file? p := by
  unfold file?
  rw [h]

theorem file?_of_stays {f p : Place} {d d' : Disk} (hs : StaysBut f d d') (hb : BringsNone p d d') (hp : p ≠ f) :
    d'.file? p = d.file? p := by
  apply Option.ext
  intro c
  rw [file?_eq_some, file?_eq_some]
  exact ⟨hb c, fun hc => hs p _ hc (.inl hp)⟩

end Disk

theorem Session.load_file? {σ : Type} {s : Session σ}
    (hask : ∀ message w, (s.confirm message w).2.disk.file? s.file = w.disk.file? s.file) (a : Address) (w : World σ) :
    (s.load a w).2.disk.file? s.file = w.disk.file? s.file :=
  load_disk (K := fun d d' => d'.file? s.file = d.file? s.file) (fun h h' => h'.trans h)
    (Disk.file?_of_stays (stays_readFile s.lock s w) (brings_readFile (file_ne_lock s s) w) (file_ne_lock s s)) hask a

namespace Board

variable {σ : Type}

def OwnPlace (b : Board σ) (p : Place) : Prop := ∃ a c, b.Has a c ∧ (p = c.session.file ∨ p = c.session.lock)

/-! ## What holds throughout a run -/

/-- The disk has a property now, and had it at every moment on record. -/
def Throughout (Q : Disk → Prop) (g : Stage σ) : Prop := Q g.world.disk ∧ ∀ m ∈ g.trace, Q m.world.disk

theorem throughout_closed (Q : Disk → Prop) :
    ClosedOn (fun _ => True) fun g g' : Stage σ => Throughout Q g → Throughout Q g' where
  refl _ h := h
  trans h h' hg := h' (h hg)
  record h _ _ _ hg := by
    refine ⟨(h hg).1, fun m hm => ?_⟩
    rcases List.mem_cons.mp hm with rfl | hm
    · exact hg.1
    · exact (h hg).2 m hm
  report _ _ h := h

/-- What the parts of a run do to a property of the disk. -/
structure Upholds (Q : Disk → Prop) (b : Board σ) : Prop where
  call : ∀ {code}, b.Calls code → ∀ w, Q w.disk → Q (code w).2.disk
  read : ∀ w, Q w.disk → Q (b.session.readFile w).2.disk
  save : ∀ a w, Q w.disk → Q (b.session.save a w).2.disk
  clear : ∀ a w, Q w.disk → Q (b.session.clear a w).2.disk

theorem Upholds.load {Q : Disk → Prop} {b : Board σ} (h : Upholds Q b) (a : Address) (w : World σ) (hw : Q w.disk) :
    Q (b.session.load a w).2.disk :=
  @Session.load_disk σ b.session (fun d d' => Q d → Q d') (fun h h' hd => h' (h hd)) w (h.read w)
    (fun message w => h.call (.question message) w) a hw

theorem Upholds.closedAt {Q : Disk → Prop} {b : Board σ} (h : Upholds Q b) (a : Address) :
    ClosedAt (fun g g' : Stage σ => Throughout Q g → Throughout Q g') b a where
  call hc g hg := ⟨h.call hc g.world hg.1, hg.2⟩
  journal t g hg := by
    refine ⟨?_, hg.2⟩
    rw [Stage.withWorld_world, withJournal_disk]
    exact hg.1
  save g hg := ⟨h.save a g.world hg.1, hg.2⟩
  load g hg := ⟨h.load a g.world hg.1, hg.2⟩
  clear g hg := ⟨h.clear a g.world hg.1, hg.2⟩

/-- **What every part of a run upholds holds throughout the run.** -/
theorem run_upholds {Q : Disk → Prop} {b : Board σ} (h : ∀ {a c}, b.Has a c → Upholds Q c) (limit : Nat) (x : Value)
    {w : World σ} (hw : Q w.disk) :
    Q (b.run limit x w).2.disk ∧ ∀ m ∈ b.trace limit x w, Q m.world.disk := by
  have hrun : Throughout Q (enterBoard limit [] b [] x ⟨w, []⟩).2 := by
    refine (throughout_closed Q).enterBoard (fun _ _ => trivial) limit b [] ?_ [] (fun _ => trivial) x ⟨w, []⟩ ⟨hw, ?_⟩
    · exact fun p c hc => (h hc).closedAt _
    · exact fun m hm => (List.not_mem_nil hm).elim
  exact ⟨hrun.1, fun m hm => hrun.2 m (List.mem_reverse.mp hm)⟩

/-! ## Files and directories -/

section

variable {b : Board σ} {p : Place}

theorem file?_upheld (hown : ¬ b.OwnPlace p)
    (hcode : ∀ {a c code}, b.Has a c → c.Calls code → ∀ w, (code w).2.disk.file? p = w.disk.file? p)
    (content : Option ByteArray) {a : Address} {c : Board σ} (hc : b.Has a c) :
    Upholds (fun d => d.file? p = content) c := by
  have hfile : p ≠ c.session.file := fun e => hown ⟨a, c, hc, .inl e⟩
  have hlock : p ≠ c.session.lock := fun e => hown ⟨a, c, hc, .inr e⟩
  refine ⟨fun h w hw => (hcode hc h w).trans hw, fun w hw => ?_, fun a w hw => ?_, fun a w hw => ?_⟩
  · exact (Disk.file?_of_stays (Session.stays_readFile _ c.session w) (Session.brings_readFile hlock w) hfile).trans hw
  · exact (Disk.file?_of_stays (Session.stays_save c.session a w) (Session.brings_save hlock hfile a w) hfile).trans hw
  · exact (Disk.file?_of_stays (Session.stays_clear c.session a w) (Session.brings_clear hlock a w) hfile).trans hw

theorem file?_closed (p : Place) : Closed fun g g' : Stage σ => g'.world.disk.file? p = g.world.disk.file? p where
  refl _ := rfl
  trans h h' := h'.trans h
  record _ _ := rfl
  report _ _ := rfl

theorem file?_closedAt (hown : ¬ b.OwnPlace p)
    (hcode : ∀ {a c code}, b.Has a c → c.Calls code → ∀ w, (code w).2.disk.file? p = w.disk.file? p)
    {a : Address} {c : Board σ} (hc : b.Has a c) (q : Address) :
    ClosedAt (fun g g' : Stage σ => g'.world.disk.file? p = g.world.disk.file? p) c q where
  call h g := hcode hc h g.world
  journal t g := congrArg (Disk.file? · p) (withJournal_disk g.world q t)
  save g := (file?_upheld hown hcode _ hc).save q g.world rfl
  load g := (file?_upheld hown hcode _ hc).load q g.world rfl
  clear g := (file?_upheld hown hcode _ hc).clear q g.world rfl

theorem dir_upheld
    (hcode : ∀ {a c code}, b.Has a c → c.Calls code → ∀ w, w.disk.node? p = some .dir → (code w).2.disk.node? p = some .dir)
    {a : Address} {c : Board σ} (hc : b.Has a c) : Upholds (fun d => d.node? p = some .dir) c :=
  ⟨hcode hc, fun w => (Session.stays_readFile c.session.file c.session w).keepsDirs p,
    fun a w => (Session.stays_save c.session a w).keepsDirs p, fun a w => (Session.stays_clear c.session a w).keepsDirs p⟩

variable (limit : Nat) (x : Value) {w : World σ}

theorem file?_throughout (hown : ¬ b.OwnPlace p)
    (hcode : ∀ {a c code}, b.Has a c → c.Calls code → ∀ w, (code w).2.disk.file? p = w.disk.file? p) :
    (b.run limit x w).2.disk.file? p = w.disk.file? p ∧
      ∀ m ∈ b.trace limit x w, m.world.disk.file? p = w.disk.file? p :=
  run_upholds (file?_upheld hown hcode (w.disk.file? p)) limit x rfl

theorem dir_throughout
    (hcode : ∀ {a c code}, b.Has a c → c.Calls code → ∀ w, w.disk.node? p = some .dir → (code w).2.disk.node? p = some .dir)
    (hw : w.disk.node? p = some .dir) : (b.run limit x w).2.disk.node? p = some .dir ∧
      ∀ m ∈ b.trace limit x w, m.world.disk.node? p = some .dir :=
  run_upholds (dir_upheld hcode) limit x hw

end

/-- **A run stays within the places of its tree.** If the code of the boards writes no file, every other file has
its content before and after the run, and no other one appears or disappears. A directory is only missing
afterwards if that code removes directories. -/
theorem run_isolated {b : Board σ}
    (hcode : ∀ {a c code}, b.Has a c → c.Calls code → ∀ w p, (code w).2.disk.file? p = w.disk.file? p)
    (limit : Nat) (x : Value) (w : World σ) :
    (∀ p, ¬ b.OwnPlace p → (b.run limit x w).2.disk.file? p = w.disk.file? p) ∧
      ((∀ {a c code}, b.Has a c → c.Calls code → ∀ w : World σ, w.disk.KeepsDirs (code w).2.disk) →
        w.disk.KeepsDirs (b.run limit x w).2.disk) :=
  ⟨fun p hown => (file?_throughout limit x hown fun hc h w => hcode hc h w p).1,
    fun hdirs p hp => (dir_throughout limit x (fun hc h w => hdirs hc h w p) hp).1⟩

/-- Beside the files of the tree there is one of somebody else, and an empty directory. -/
def shared : World Nat :=
  { World.blank 0 with disk := ⟨[(["n.json"], .file (String.toUTF8 "{}")), (["attic"], .dir)]⟩ }

/-- The board below fails at once, and leaves a lock of its own beside the file and the lock of the one above. -/
theorem whole_isolated :
    ((whole.run 9 .null shared).1.isRaised = true ∧
      ∀ p ∈ [whole.session.file, whole.session.lock, part.session.lock],
        shared.disk.exists? p = false ∧ (whole.run 9 .null shared).2.disk.exists? p = true) ∧
      (whole.run 9 .null shared).2.disk.file? ["n.json"] = some (String.toUTF8 "{}") ∧
      (whole.run 9 .null shared).2.disk.node? ["attic"] = some .dir := by
  have hown : ¬ whole.OwnPlace ["n.json"] := by
    rintro ⟨a, c, hc, he⟩
    rcases whole_has hc with ⟨rfl, rfl⟩ | ⟨rfl, rfl⟩
    all_goals
      exact absurd he (by decide)
  obtain ⟨hfiles, hdirs⟩ := run_isolated (b := whole) (fun hc h w p => by rw [whole_disk hc h w]) 9 .null shared
  refine ⟨by decide +kernel, (hfiles _ hown).trans (by decide +kernel), ?_⟩
  refine hdirs (fun hc h w p hp => ?_) ["attic"] rfl
  rw [whole_disk hc h w]
  exact hp

end Board

end Boardwalk
