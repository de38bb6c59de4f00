import Boardwalk.Proofs.Board.Cleanup
import Boardwalk.Proofs.Board.Entry
import Boardwalk.Proofs.Board.Recount
import Boardwalk.Proofs.Session.Fresh
/-!
# Starting over

A board below does not learn that the board above starts afresh. It starts from an empty journal unless its own file
holds a run when it is entered, and until then nothing is written to this file (`enterBoard_layered`). So a run that
starts over goes on with no record of an earlier one if no file of a board below holds a run (`started_over`).
-/

namespace Boardwalk

variable {σ : Type}

namespace Level

def StartsAfresh (L : Level σ) : Prop := L.start.journal L.address = []

def Continues (L : Level σ) (w : World σ) : Prop := (L.start.journal L.address).Continues (w.journal L.address)

end Level

/-- The innermost board enters the board of a level, which loads its session and starts. -/
structure Moment.Enters (m : Moment σ) (L : Level σ) : Prop where
  frame : ∃ M above i condition provider, m.levels = M :: above ∧ m.event = .entered i ∧
    M.board.frames[i]? = some (.story L.board condition provider) ∧ L.address = M.address ++ [i]
  starts : ∃ r, L.board.session.load L.address m.world = (.ok r, L.start)

theorem Moment.Enters.afresh {m : Moment σ} {L : Level σ} (h : m.Enters L) :
    L.StartsAfresh ↔ ¬ L.board.session.Resumes m.world := by
  obtain ⟨r, hload⟩ := h.starts
  exact Session.load_journal hload

namespace Board

/-! ## What a board does by itself -/

/-- Only the board on these levels does something, and makes no file for a board elsewhere than above it. -/
structure OwnPart (root : Board σ) (ls : List (Level σ)) (a : Address) (g g' : Stage σ) : Prop where
  trace : ∃ ms, g'.trace = ms ++ g.trace ∧ ∀ m ∈ ms, m.levels = ls
  files : root.FilesApart → root.SparesFiles → ∀ {p d}, root.Has p d → ¬ p <+: a →
    Disk.BringsNone d.session.file g.world.disk g'.world.disk

section

variable {root : Board σ} {ls : List (Level σ)} {a : Address}

theorem ownPart_closed (root : Board σ) (ls : List (Level σ)) (a : Address) : ClosedOn (· = ls) (OwnPart root ls a) where
  refl g := ⟨(tellsOn_closed ls).refl g, fun _ _ _ _ _ _ _ h => h⟩
  trans h h' := ⟨(tellsOn_closed ls).trans h.trace h'.trace, fun hapart hspares _ _ hd hp =>
    (h.files hapart hspares hd hp).trans (h'.files hapart hspares hd hp)⟩
  record h _ hls e := ⟨(tellsOn_closed ls).record h.trace hls e, h.files⟩
  report g e := ⟨(tellsOn_closed ls).report g e, fun _ _ _ _ _ _ _ h => h⟩

theorem ownPart_withWorld {g : Stage σ} {w : World σ} (h : root.FilesApart → root.SparesFiles →
    ∀ {p d}, root.Has p d → ¬ p <+: a → Disk.BringsNone d.session.file g.world.disk w.disk) :
    OwnPart root ls a g (g.withWorld w) :=
  ⟨⟨[], rfl, nofun⟩, h⟩

theorem ownPart_record (root : Board σ) (ls : List (Level σ)) (a : Address) (g : Stage σ) (e : Event) (w : World σ) :
    OwnPart root ls a g (g.record ⟨ls, e, w⟩) :=
  ⟨tellsOn_record ls g e w, fun _ _ _ _ _ _ _ h => h⟩

variable {c : Board σ} (hc : root.Has a c)
include hc

theorem ownPart_closedAt (ls : List (Level σ)) : ClosedAt (OwnPart root ls a) c a where
  call hcode g := ownPart_withWorld fun _ hspares p d hd _ n hn => by
    rwa [← hspares hc hcode hd g.world]
  journal t g := ownPart_withWorld fun _ _ p d _ _ n hn => by
    rwa [← withJournal_disk g.world a t]
  save g := ownPart_withWorld fun hapart _ p d hd hp =>
    Session.brings_save (Session.file_ne_lock _ _) (hapart hd hc fun e => hp (e ▸ List.prefix_refl p)) a g.world
  load g := ownPart_withWorld fun _ hspares p d hd _ =>
    @Session.load_disk σ c.session (Disk.BringsNone d.session.file) Disk.BringsNone.trans g.world
      (Session.brings_readFile (Session.file_ne_lock _ _) g.world)
      (fun message w n hn => by rwa [← hspares hc (.question message) hd w]) a
  clear g := ownPart_withWorld fun _ _ p d _ _ => Session.brings_clear (Session.file_ne_lock _ _) a g.world

theorem ownPart_finish (g : Stage σ) : OwnPart root ls a g (c.finish ls a g).2 :=
  (ownPart_closed root ls a).finish (ownPart_closedAt hc ls).clear
    (fun _ g => ownPart_withWorld fun _ _ _ _ _ _ => Session.brings_clear (Session.file_ne_lock _ _) _ g.world) rfl g

end

theorem walk_continues {b : Board σ} {a : Address} {m : Model} {g : Stage σ} (ls : List (Level σ))
    (hm : g.world.model? a = some m) (limit : Nat) (x : Value) :
    ∃ ms, (b.walk (enterFrames limit a 0 b.frames) limit ls a x g).2.trace = ms ++ g.trace ∧
      ∀ m' ∈ ms, (g.world.journal a).Continues (m'.world.journal a) := by
  obtain ⟨ms, rs, h, g', hspans, -, -, hcloses⟩ := walk_recounted b ls hm limit x
  rw [← journal_of_model hm] at hspans
  have hwithin : ∀ m' ∈ ms, (g.world.journal a).Continues (m'.world.journal a) :=
    fun m' hm' => (hspans.within m' hm').1.continues
  generalize b.walk (enterFrames limit a 0 b.frames) limit ls a x g = result at hcloses ⊢
  cases hcloses with
  | raised f => exact ⟨ms, hspans.trace, hwithin⟩
  | unfinished => exact ⟨ms, hspans.trace, hwithin⟩
  | ended e =>
    refine ⟨⟨ls, .finished, g'.world⟩ :: ms, by rw [hspans.trace, List.cons_append], fun m' hm' => ?_⟩
    rcases List.mem_cons.mp hm' with rfl | hm'
    · exact hspans.grows.continues
    · exact hwithin m' hm'

/-! ## The boards below -/

/-- The level was entered in these moments, below a board of the tree, and until then its board got no file. -/
structure EnteredBelow (root : Board σ) (a : Address) (g : Stage σ) (ms : List (Moment σ)) (L : Level σ) : Prop where
  has : root.Has L.address L.board
  below : ¬ L.address <+: a
  entry : ∃ m ∈ ms, m.Enters L ∧ (root.FilesApart → root.SparesFiles →
    Disk.BringsNone L.board.session.file g.world.disk m.world.disk)

/-- The boards that run at a moment of a run: its own board, and those below that have been entered in these moments. -/
structure Layered (root c : Board σ) (a : Address) (above : List (Level σ)) (g : Stage σ) (ms : List (Moment σ))
    (m : Moment σ) (w : World σ) (inner : List (Level σ)) : Prop where
  load : ∃ r, c.session.load a g.world = (.ok r, w)
  levels : m.levels = inner ++ ⟨c, a, w⟩ :: above
  continues : ∀ L ∈ inner ++ [⟨c, a, w⟩], L.Continues m.world
  entered : ∀ L ∈ inner, EnteredBelow root a g ms L

section

variable {root c d : Board σ} {a : Address} {i : Nat} {w w' : World σ} {above : List (Level σ)} {g g' : Stage σ}
  {ms ms' : List (Moment σ)} {condition : Option (Condition σ)} {provider : Option (Provider σ)} (hc : root.Has a c)
  (hf : c.frames[i]? = some (.story d condition provider)) (hg : OwnPart root (⟨c, a, w⟩ :: above) a g g')

include hg in
theorem EnteredBelow.later {L : Level σ} (h : EnteredBelow root (a ++ [i]) g' ms' L) (hms : ∀ m ∈ ms', m ∈ ms) :
    EnteredBelow root a g ms L := by
  have hbelow : ¬ L.address <+: a := fun hp => h.below (hp.trans (List.prefix_append a [i]))
  obtain ⟨m, hm, henters, hfile⟩ := h.entry
  refine ⟨h.has, hbelow, m, hms m hm, henters, fun hapart hspares => ?_⟩
  exact (hg.files hapart hspares h.has hbelow).trans (hfile hapart hspares)

include hc hf hg

theorem enteredBelow_of_load {r : Session.Answer Model}
    (hload : d.session.load (a ++ [i]) g'.world = (.ok r, w'))
    (hentered : ⟨⟨c, a, w⟩ :: above, .entered i, g'.world⟩ ∈ ms) : EnteredBelow root a g ms ⟨d, a ++ [i], w'⟩ := by
  have hbelow : ¬ (a ++ [i]) <+: a := fun hp => by
    have := hp.length_le
    rw [List.length_append, List.length_singleton] at this
    omega
  refine ⟨hc.snoc hf, hbelow, _, hentered, ⟨⟨_, above, i, condition, provider, rfl, rfl, hf, rfl⟩, r, hload⟩, ?_⟩
  exact fun hapart hspares => hg.files hapart hspares (hc.snoc hf) hbelow

theorem Layered.within {m : Moment σ} {inner : List (Level σ)}
    (h : Layered root d (a ++ [i]) (⟨c, a, w⟩ :: above) g' ms' m w' inner)
    (hload : ∃ r, c.session.load a g.world = (.ok r, w)) (hcontinues : Level.Continues ⟨c, a, w⟩ m.world)
    (hentered : ⟨⟨c, a, w⟩ :: above, .entered i, g'.world⟩ ∈ ms) (hms : ∀ m ∈ ms', m ∈ ms) :
    Layered root c a above g ms m w (inner ++ [⟨d, a ++ [i], w'⟩]) where
  load := hload
  levels := by rw [h.levels, List.append_assoc, List.singleton_append]
  continues L hL := by
    rcases List.mem_append.mp hL with hL | hL
    · exact h.continues L hL
    · obtain rfl := List.mem_singleton.mp hL
      exact hcontinues
  entered L hL := by
    rcases List.mem_append.mp hL with hL | hL
    · exact (h.entered L hL).later hg hms
    · obtain rfl := List.mem_singleton.mp hL
      obtain ⟨r, hload'⟩ := h.load
      exact enteredBelow_of_load hc hf hg hload' hentered

end

/-- **At every moment of a run each board that runs goes on with the journal that it started with, and those below have
been entered in this run.** -/
theorem enterBoard_layered (root : Board σ) (limit : Nat) (c : Board σ) : ∀ {a : Address}, root.Has a c →
    ∀ (above : List (Level σ)) (x : Value) (g : Stage σ), ∃ ms,
      (enterBoard limit a c above x g).2.trace = ms ++ g.trace ∧
        ∀ m ∈ ms, ∃ w inner, Layered root c a above g ms m w inner := by
  induction c using Board.induction with
  | step c ih =>
    intro a hc above x g
    rw [enterBoard_eq]
    rcases runWith_cases c (enterFrames limit a 0 c.frames) limit a above x g with
      ⟨f, w, -, hr⟩ | ⟨f, w, -, -, hr⟩ | ⟨answer, w, hload, hr⟩
    · rw [hr]
      exact ⟨[], rfl, nofun⟩
    · rw [hr]
      exact ⟨[], rfl, nofun⟩
    · rw [hr]
      have hR := ownPart_closed root (⟨c, a, w⟩ :: above) a
      have hb := ownPart_closedAt hc (⟨c, a, w⟩ :: above)
      obtain ⟨m₀, hm₀⟩ := Session.load_model hload
      obtain ⟨ms, htrace, hcontinues⟩ :=
        walk_continues (⟨c, a, w⟩ :: above) (g := g.withWorld w) hm₀ limit (givenContext x)
      have hown : ∀ m ∈ ms, m.levels = ⟨c, a, w⟩ :: above → Layered root c a above g ms m w [] :=
        fun m hm hlevels => ⟨⟨answer, hload⟩, hlevels, by simpa [Level.Continues] using hcontinues m hm, nofun⟩
      refine ⟨ms, htrace, fun m hm => ?_⟩
      -- the moments are those of the board itself, and of the one below if it enters one
      cases hb.walk_enters hR (enterFrames limit a 0 c.frames) rfl (ownPart_record root _ a) (ownPart_finish hc) limit
          (givenContext x) (g.withWorld w) with
      | alone h =>
        obtain ⟨ms', ht, hlevels⟩ := h.trace
        obtain rfl := List.append_cancel_right (htrace.symm.trans ht)
        exact ⟨w, [], hown m hm (hlevels m hm)⟩
      | @below i d condition provider enter x' g₁ hf hi hbefore hafter =>
        rw [enterFrames_story hf] at hi
        cases hi
        have hloaded := hb.load g
        rw [hload] at hloaded
        have hentered := hR.trans (hR.trans hloaded hbefore) (hR.note g₁ rfl (.entered i))
        obtain ⟨ms₁, ht₁, hlevels₁⟩ := hbefore.trace
        obtain ⟨ms₂, ht₂, hlevels₂⟩ := hafter.trace
        obtain ⟨ms', ht', hbelow⟩ := ih i d condition provider hf (hc.snoc hf) (⟨c, a, w⟩ :: above) x'
          (g₁.note (⟨c, a, w⟩ :: above) (.entered i))
        -- the moments of the board below stand between those of the board itself
        obtain rfl : ms = ms₂ ++ (ms' ++ (⟨⟨c, a, w⟩ :: above, .entered i, g₁.world⟩ :: ms₁)) := by
          refine List.append_cancel_right (htrace.symm.trans (ht₂.trans ?_))
          rw [ht', Stage.note_trace, ht₁]
          simp
        rcases List.mem_append.mp hm with hm₂ | hrest
        · exact ⟨w, [], hown m hm (hlevels₂ m hm₂)⟩
        rcases List.mem_append.mp hrest with hm' | hm₁
        · obtain ⟨w', inner, h⟩ := hbelow m hm'
          exact ⟨w, _, h.within hc hf hentered ⟨answer, hload⟩ (hcontinues m hm) (by simp) (fun m hm => by simp [hm])⟩
        · refine ⟨w, [], hown m hm ?_⟩
          rcases List.mem_cons.mp hm₁ with rfl | hm₁
          · rfl
          · exact hlevels₁ m hm₁

/-- **A run that starts over starts every board over** whose file holds no run to resume when it is entered. If no file
of a board below holds one, no journal of the run begins with records of an earlier one, and the outcome is made of
such a journal. -/
theorem started_over (limit : Nat) (b : Board σ) (x : Value) {w : World σ} (hfresh : b.loaded [] w = []) :
    (∀ m ∈ b.trace limit x w, ∀ L ∈ m.levels, L.Continues m.world ∧
      (L.address = [] ∧ L.StartsAfresh ∨
        ∃ m' ∈ b.trace limit x w, m'.Enters L ∧ (L.StartsAfresh ↔ ¬ L.board.session.Resumes m'.world))) ∧
    (b.FilesApart → b.SparesFiles → (∀ {p c t}, b.Has p c → p ≠ [] → c.session.Stores w.disk t → t = []) →
      ∀ m ∈ b.trace limit x w, ∀ L ∈ m.levels, L.StartsAfresh) ∧
    ∀ {o}, (b.run limit x w).1 = .success o → ∃ w', ∃ m ∈ b.trace limit x w, m.levels = [⟨b, [], w'⟩] ∧
      m.event = .finished ∧ b.resolve (m.world.journal []) = .ok o := by
  obtain ⟨ms, htrace, hlayered⟩ := enterBoard_layered b limit b (.here b) [] x ⟨w, []⟩
  have hmem : ∀ {m}, m ∈ b.trace limit x w ↔ m ∈ ms := by
    simp [trace, htrace]
  have hlevels : ∀ m ∈ ms, ∀ L ∈ m.levels, L.Continues m.world ∧
      (L.address = [] ∧ L.StartsAfresh ∨ EnteredBelow b [] ⟨w, []⟩ ms L) := by
    intro m hm L hL
    obtain ⟨w', inner, ⟨r, hload⟩, hlevels, hcontinues, hentered⟩ := hlayered m hm
    rw [hlevels] at hL
    refine ⟨hcontinues L hL, ?_⟩
    rcases List.mem_append.mp hL with hL | hL
    · exact .inr (hentered L hL)
    · obtain rfl := List.mem_singleton.mp hL
      unfold loaded at hfresh
      rw [hload] at hfresh
      exact .inl ⟨rfl, hfresh⟩
  refine ⟨fun m hm L hL => ?_, fun hapart hspares hfiles m hm L hL => ?_, fun {o} ho => ?_⟩
  · obtain ⟨hcontinues, htop | hbelow⟩ := hlevels m (hmem.mp hm) L hL
    · exact ⟨hcontinues, .inl htop⟩
    · obtain ⟨m', hm', henters, -⟩ := hbelow.entry
      exact ⟨hcontinues, .inr ⟨m', hmem.mpr hm', henters, henters.afresh⟩⟩
  · -- a run that is resumed would have been in the file of the board from the start
    obtain ⟨-, htop | hbelow⟩ := hlevels m (hmem.mp hm) L hL
    · exact htop.2
    · obtain ⟨m', -, henters, hbrings⟩ := hbelow.entry
      refine henters.afresh.mpr fun hresumes => ?_
      obtain ⟨t, hstores, hne⟩ := hresumes.stores (hbrings hapart hspares)
      exact hne (hfiles hbelow.has (fun h => hbelow.below (h ▸ List.prefix_refl _)) hstores)
  · rcases enterBoard_finish limit b [] [] x ⟨w, []⟩ with ⟨w', g, -, hr⟩ | ⟨hno, -⟩
    · obtain ⟨hresolve, -⟩ := finish_success (Prod.ext ((congrArg Prod.fst hr).symm.trans ho) rfl)
      refine ⟨w', ⟨[⟨b, [], w'⟩], .finished, g.world⟩, ?_, rfl, rfl, hresolve⟩
      unfold trace
      rw [hr, finish_trace]
      simp
    · exact absurd ho (hno o)

/-! ### Files of earlier runs -/

/-- The file of the board above cannot be read. -/
def littered : World Unit :=
  { World.blank () with disk := ⟨[(outer.session.file, .file (String.toUTF8 "x"))]⟩ }

theorem outer_started_over : outer.loaded [] littered = [] ∧
    (∀ m ∈ outer.trace 9 .null littered, ∀ L ∈ m.levels, L.StartsAfresh) ∧
    ∃ m ∈ outer.trace 9 .null littered, m.levels.length = 2 := by
  have hfresh : outer.loaded [] littered = [] := List.isEmpty_iff.mp (by decide +kernel)
  refine ⟨hfresh, ?_, by decide +kernel⟩
  refine (started_over 9 outer .null hfresh).2.1 outer_apart outer_spares fun {p c t} hc hp hstores => ?_
  rcases outer_has hc with ⟨rfl, -⟩ | ⟨-, rfl⟩
  · exact absurd rfl hp
  · have hnone : littered.disk.node? inner.session.file = none := by decide +kernel
    cases hstores with
    | nothing => rfl
    | model h =>
      rw [hnone] at h
      cases h

def once : Code Nat Value := fun w =>
  (if w.user = 0 then .error (.raised .other "RuntimeError" "x failed") else .ok .null, ⟨w.disk, w.user + 1⟩)

def chapter : Board Nat :=
  ⟨"n", .plain (some "p") "n", none,
    [.work .key "A" none none fun _ w => (.ok (.int w.user), w.scene), .work .key "B" none none fun _ => once]⟩

def book : Board Nat := ⟨"p", .plain none "p", none, [.story chapter none none]⟩

/-- After a run that raised a fault, the user removed the file of the board above. -/
def torn : World Nat :=
  let w := (book.run 9 .null (.blank 0)).2
  w.withDisk (w.disk.drop book.session.file)

/-- The run starts over, but the board below goes on behind the record of the earlier run. -/
theorem book_not_started_over : (book.loaded [] torn).length = 0 ∧ (book.run 9 .null torn).1.isSuccess = true ∧
    ∃ m ∈ book.trace 9 .null torn, ∃ L ∈ m.levels, L.address = [0] ∧ (L.start.journal L.address).length = 1 := by
  decide +kernel

end Board

end Boardwalk
