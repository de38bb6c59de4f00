import Boardwalk.Proofs.Record.Reread
import Boardwalk.Proofs.Session.Places
/-!
# Sessions that are written and read

Once the file of a session was read, reading it again only looks at the node at its place (`Ready.readFile_eq`).
A save that succeeds leaves the text of the journal there (`save_ok`), and loading the session gives the journal
that the file stores (`load_of_opens`).
-/

namespace Boardwalk

open StateFile

def Model.bytes? (m : Model) : Option ByteArray :=
  match m.normal with
  | .ok j => if j.isWritable then j.bytes? else none
  | .error _ => none

theorem Model.bytes?_inv {m : Model} {c : ByteArray} (h : m.bytes? = some c) :
    ∃ j, m.normal = .ok j ∧ j.isWritable = true ∧ j.bytes? = some c := by
  unfold bytes? at h
  split at h
  · rename_i j hj
    split at h
    · rename_i hw
      exact ⟨j, hj, hw, h⟩
    · cases h
  · cases h

theorem ok_of_toBool {ε α : Type} {e : Except ε α} (h : e.toBool = true) : ∃ x, e = .ok x := by
  cases e with
  | ok x => exact ⟨x, rfl⟩
  | error f => cases h

namespace Session

variable {σ : Type} {s : Session σ}

/-- What every operation of the session finds on the disk after a first one. -/
structure Ready (s : Session σ) (held : List Place) (d : Disk) : Prop where
  directory : ∃ p, d.makeDirs s.directory = (.ok p, d)
  location : s.resolved = .ok s.target
  file : StateFile.Ready held s.target d

/-- The directories, the file and the lock of the session are still what they were. -/
structure Keeps (s : Session σ) (d d' : Disk) : Prop where
  dirs : d.KeepsDirs d'
  file : d'.node? s.file = d.node? s.file
  lock : ∀ c, d.node? s.lock = some (.file c) → ∃ c', d'.node? s.lock = some (.file c')

theorem Keeps.refl (s : Session σ) (d : Disk) : s.Keeps d d := ⟨fun _ h => h, rfl, fun c h => ⟨c, h⟩⟩

theorem Keeps.trans {d d' d'' : Disk} (h : s.Keeps d d') (h' : s.Keeps d' d'') : s.Keeps d d'' := by
  refine ⟨fun p hp => h'.dirs p (h.dirs p hp), h'.file.trans h.file, fun c hc => ?_⟩
  obtain ⟨c', hc'⟩ := h.lock c hc
  exact h'.lock c' hc'

theorem Ready.of_keeps {held : List Place} {d d' : Disk} (h : s.Ready held d) (hk : s.Keeps d d') :
    s.Ready held d' := by
  obtain ⟨p, hp⟩ := h.directory
  exact ⟨⟨p, Disk.makeDirs_again hp hk.dirs⟩, h.location, h.file.of_keeps hk.dirs hk.lock⟩

theorem Ready.of_stays {held : List Place} {d d' : Disk} {t : Session σ} (h : s.Ready held d)
    (hs : Disk.StaysBut t.file d d') : s.Ready held d' := by
  obtain ⟨p, hp⟩ := h.directory
  exact ⟨⟨p, Disk.makeDirs_again hp hs.keepsDirs⟩, h.location, h.file.of_stays hs (file_ne_lock t s)⟩

/-! ## Reading -/

theorem Ready.readFile_eq {w : World σ} (h : s.Ready w.held w.disk) :
    s.readFile w = (stateOfNode (w.disk.node? s.file), w) := by
  obtain ⟨p, hp⟩ := h.directory
  unfold readFile
  rw [hp]
  dsimp only
  rw [h.location]
  dsimp only
  rw [h.file.read_eq]
  rfl

theorem readFile_rest (s : Session σ) (w : World σ) :
    (s.readFile w).2 = w.withDisk (s.readFile w).2.disk := by
  unfold readFile
  split
  · rfl
  · split
    · rfl
    · rfl

theorem stays_readFile (f : Place) (s : Session σ) (w : World σ) :
    Disk.StaysBut f w.disk (s.readFile w).2.disk := by
  have hs := Disk.stays_makeDirs f w.disk s.directory
  unfold readFile
  split
  · rename_i hm
    rw [hm] at hs
    exact hs
  · rename_i d hm
    rw [hm] at hs
    split
    · exact hs
    · exact hs.trans (stays_read f w.held _ d)

theorem brings_readFile {p : Place} (hp : p ≠ s.lock) (w : World σ) :
    Disk.BringsNone p w.disk (s.readFile w).2.disk := by
  have hs := Disk.brings_makeDirs p w.disk s.directory
  unfold readFile
  split
  · rename_i hm
    rw [hm] at hs
    exact hs
  · rename_i d hm
    rw [hm] at hs
    split
    · exact hs
    · rename_i l hl
      rw [eq_target hl]
      exact hs.trans (brings_read hp d)

theorem readFile_ok {w w' : World σ} {o : Option Json} (h : s.readFile w = (.ok o, w')) :
    s.Ready w'.held w'.disk ∧ stateOfNode (w'.disk.node? s.file) = .ok o := by
  unfold readFile at h
  split at h
  · cases h
  · rename_i p d hm
    split at h
    · cases h
    · rename_i l hl
      have ht := eq_target hl
      subst ht
      cases hr : StateFile.read w.held s.target d with
      | mk r d' =>
        rw [hr] at h
        cases h
        obtain ⟨hready, ho⟩ := read_ok hr
        have hk : d.KeepsDirs d' := by
          have := (stays_read [] w.held s.target d).keepsDirs
          rw [hr] at this
          exact this
        exact ⟨⟨⟨p, Disk.makeDirs_again hm hk⟩, hl, hready⟩, ho⟩

/-- The disk stores a journal in the file of the session; nothing is the empty one. -/
inductive Stores (s : Session σ) (d : Disk) : Timeline → Prop where
  | nothing : stateOfNode (d.node? s.file) = .ok none → Stores s d []
  | model {j : Json} {m : Model} : stateOfNode (d.node? s.file) = .ok (some j) → Model.ofState j = .ok m →
      Stores s d m.timeline

theorem Stores.of_node {d d' : Disk} {t : Timeline} (h : s.Stores d t) (hn : d.node? s.file = d'.node? s.file) :
    s.Stores d' t := by
  cases h with
  | nothing h => exact .nothing (by rw [← hn]; exact h)
  | model h hm => exact .model (by rw [← hn]; exact h) hm

theorem Stores.of_keeps {d d' : Disk} {t : Timeline} (h : s.Stores d t) (hk : s.Keeps d d') :
    s.Stores d' t := h.of_node hk.file.symm

structure Opens (s : Session σ) (w : World σ) (t : Timeline) : Prop where
  reads : ∃ o, (s.readFile w).1 = .ok o
  stores : s.Stores (s.readFile w).2.disk t

theorem opens_of_ready {w : World σ} {t : Timeline} (h : s.Ready w.held w.disk) (ht : s.Stores w.disk t) :
    s.Opens w t := by
  have hr := h.readFile_eq
  refine ⟨?_, ?_⟩
  · rw [hr]
    cases ht with
    | nothing h => exact ⟨none, h⟩
    | model h _ => exact ⟨_, h⟩
  · rw [hr]
    exact ht

theorem opens_nothing {w : World σ} (h : (s.readFile w).1 = .ok none) : s.Opens w [] := by
  refine ⟨⟨none, h⟩, .nothing ?_⟩
  exact (readFile_ok (Prod.ext h rfl)).2

theorem Opens.ready {w : World σ} {t : Timeline} (h : s.Opens w t) :
    s.Ready w.held (s.readFile w).2.disk := by
  obtain ⟨o, ho⟩ := h.reads
  have hr := (readFile_ok (Prod.ext ho rfl : s.readFile w = (.ok o, (s.readFile w).2))).1
  rw [readFile_rest] at hr
  exact hr

/-! ## Saving -/

def FileHolds (s : Session σ) (m : Model) (d : Disk) : Prop :=
  ∃ c, m.bytes? = some c ∧ d.node? s.file = some (.file c)

theorem FileHolds.file?_eq {m : Model} {d : Disk} (h : s.FileHolds m d) : d.file? s.file = m.bytes? := by
  obtain ⟨c, hc, hn⟩ := h
  unfold Disk.file?
  rw [hn, hc]

theorem draft_ok {m : Model} {l : Location} {j : Json} (h : s.draft m = .ok (l, j)) :
    l = s.target ∧ m.normal = .ok j := by
  unfold draft at h
  cases hl : s.resolved with
  | error f =>
    rw [hl] at h
    cases h
  | ok l' =>
    cases hj : m.normal with
    | error f =>
      rw [hl, hj] at h
      cases h
    | ok j' =>
      rw [hl, hj] at h
      cases h
      exact ⟨eq_target hl, rfl⟩

theorem save_world {P : World σ → Prop} {w : World σ} (h : P w)
    (hwrite : ∀ bytes?, P (w.withDisk (StateFile.write w.held s.target bytes? w.disk).2))
    (hreport : ∀ {w}, P w → ∀ e, P (w.report e)) (a : Address) : P (s.save a w).2 := by
  unfold save
  split
  · exact h
  · split
    · exact hreport h _
    · rename_i l j hd
      obtain ⟨rfl, -⟩ := draft_ok hd
      split
      · have hw := hwrite j.bytes?
        split
        all_goals
          rename_i hr
          rw [hr] at hw
        · exact hw
        · split
          · exact hreport hw _
          · exact hreport hw _
      · exact hreport h _

theorem save_rest (s : Session σ) (a : Address) (w : World σ) :
    (s.save a w).2.memory = w.memory ∧ (s.save a w).2.user = w.user ∧ (s.save a w).2.held = w.held :=
  save_world (P := fun w' => w'.memory = w.memory ∧ w'.user = w.user ∧ w'.held = w.held) ⟨rfl, rfl, rfl⟩
    (fun _ => ⟨rfl, rfl, rfl⟩) (fun h _ => h) a

theorem stays_save (s : Session σ) (a : Address) (w : World σ) :
    Disk.StaysBut s.file w.disk (s.save a w).2.disk :=
  save_world (P := fun w' => Disk.StaysBut s.file w.disk w'.disk) (.refl _ _)
    (fun bytes? => stays_writeFile w.held s.target bytes? w.disk) (fun h _ => h) a

theorem brings_save {p : Place} (hp : p ≠ s.lock) (hf : p ≠ s.file) (a : Address) (w : World σ) :
    Disk.BringsNone p w.disk (s.save a w).2.disk :=
  save_world (P := fun w' => Disk.BringsNone p w.disk w'.disk) (fun _ hc => hc)
    (fun bytes? => brings_writeFile hp hf w.held bytes? w.disk) (fun h _ => h) a

theorem save_inv {a : Address} {w : World σ} (h : (s.save a w).1 = .ok ()) :
    ∃ m c, w.model? a = some m ∧ s.resolved = .ok s.target ∧ m.bytes? = some c ∧
      StateFile.write w.held s.target (some c) w.disk = (.ok (), (s.save a w).2.disk) := by
  unfold save at h ⊢
  split at h
  · cases h
  · rename_i m hm
    split at h
    · cases h
    · rename_i l j hd
      obtain ⟨rfl, hj⟩ := draft_ok hd
      split at h
      · rename_i hwritable
        split at h
        · rename_i u d hw
          obtain ⟨-, c, -, hc, -⟩ := write_inv hw
          rw [if_pos hwritable]
          refine ⟨m, c, hm, ?_, ?_, hc ▸ hw⟩
          · unfold draft at hd
            cases hl : s.resolved with
            | error f =>
              rw [hl] at hd
              cases hd
            | ok l => rw [eq_target hl]
          · unfold Model.bytes?
            rw [hj]
            dsimp only
            rw [if_pos hwritable, hc]
        · split at h
          · cases h
          · cases h
      · cases h

/-- **A save that succeeds leaves the text of the journal in the file.** -/
theorem save_ok {a : Address} {w : World σ} (h : (s.save a w).1 = .ok ()) :
    ∃ m, w.model? a = some m ∧ s.FileHolds m (s.save a w).2.disk := by
  obtain ⟨m, c, hm, -, hc, hw⟩ := save_inv h
  obtain ⟨c', hc', hnode⟩ := write_ok hw
  cases hc'
  exact ⟨m, hm, c, hc, hnode⟩

theorem form_of_bytes {m : Model} {c : ByteArray} (hc : m.bytes? = some c) :
    ∃ j, m.normal = .ok j ∧ stateOfNode (some (.file c)) = .ok (some j.reread) := by
  obtain ⟨j, hj, hw, hbytes⟩ := Model.bytes?_inv hc
  have hn := Model.nesting_normal hj
  obtain ⟨js, -, rfl⟩ := Model.normal_eq hj
  obtain rfl := Json.bytes?_inv hbytes
  refine ⟨_, hj, ?_⟩
  rw [stateOfNode, stateOfBytes_document hw hn]

theorem FileHolds.form {m : Model} {d : Disk} (h : s.FileHolds m d) :
    ∃ j, m.normal = .ok j ∧ stateOfNode (d.node? s.file) = .ok (some j.reread) := by
  obtain ⟨c, hc, hn⟩ := h
  rw [hn]
  exact form_of_bytes hc

theorem FileHolds.state {m : Model} {d : Disk} (h : s.FileHolds m d) (hv : ∀ r ∈ m.timeline, r.IsValid) :
    ∃ j, stateOfNode (d.node? s.file) = .ok (some j) ∧ Model.ofState j = .ok m.reread := by
  obtain ⟨j, hj, hstate⟩ := h.form
  exact ⟨j.reread, hstate, Model.ofState_reread hv hj⟩

theorem FileHolds.stores {m : Model} {d : Disk} (h : s.FileHolds m d) (hv : ∀ r ∈ m.timeline, r.IsValid) :
    s.Stores d (m.timeline.map Record.reread) := by
  obtain ⟨j, hstate, hm⟩ := h.state hv
  exact .model (m := m.reread) hstate hm

/-! ## Loading -/

/-- If there is a run to resume, it is resumed: the user agrees, or is not asked. -/
def Agrees (s : Session σ) (w : World σ) : Prop :=
  ∀ {j w₁ m}, s.readFile w = (.ok (some j), w₁) → Model.ofState j = .ok m →
    (s.resumeAgreed m w₁).1 = .ok true

theorem agrees_nothing {w : World σ} (h : (s.readFile w).1 = .ok none) : s.Agrees w := by
  intro j w₁ m hr _
  rw [hr] at h
  cases h

def Spares {α : Type} (s : Session σ) (code : Code σ α) : Prop :=
  ∀ w, s.Keeps w.disk (code w).2.disk

theorem resumeAgreed_rest (s : Session σ) (m : Model) (w : World σ) :
    (s.resumeAgreed m w).2.memory = w.memory ∧ (s.resumeAgreed m w).2.held = w.held := by
  unfold resumeAgreed askResume
  split
  · exact ⟨rfl, rfl⟩
  · split
    · exact ⟨rfl, rfl⟩
    · exact ⟨rfl, rfl⟩

theorem resumeAgreed_cases (s : Session σ) (m : Model) (w : World σ) :
    (s.resumeAgreed m w).2 = w ∨ ∃ message, (s.resumeAgreed m w).2 = (w.call (s.confirm message)).2 := by
  unfold resumeAgreed askResume
  split
  · exact .inl rfl
  · split
    · exact .inl rfl
    · exact .inr ⟨_, rfl⟩

theorem resumeAgreed_keeps (hc : s.isNested = true ∨ ∀ message, s.Spares (s.confirm message)) (m : Model)
    (w : World σ) : s.Keeps w.disk (s.resumeAgreed m w).2.disk := by
  rcases hc with hn | hc
  · unfold resumeAgreed
    rw [if_pos hn]
    exact .refl s w.disk
  · rcases resumeAgreed_cases s m w with he | ⟨message, he⟩
    · rw [he]
      exact .refl s w.disk
    · rw [he]
      exact hc message w

theorem load_of_state {w w₁ : World σ} {j : Json} {m : Model} (a : Address)
    (hr : s.readFile w = (.ok (some j), w₁)) (hm : Model.ofState j = .ok m) (ha : s.Agrees w) :
    ∃ w', s.load a w = (.ok (.ok m), w') ∧ w'.model? a = some m ∧ w'.held = w₁.held ∧
      w'.disk = (s.resumeAgreed m w₁).2.disk := by
  have hyes := ha hr hm
  have hheld := (resumeAgreed_rest s m w₁).2
  unfold load storedModel
  rw [hr]
  cases hq : s.resumeAgreed m w₁ with
  | mk answer w₂ =>
    rw [hq] at hyes hheld
    cases hyes
    simp only [hm, hq]
    exact ⟨_, rfl, World.model?_remember_self _ _ _, hheld, rfl⟩

/-- **Loading gives the journal that the file stores**, and leaves the session ready for saving. -/
theorem load_of_opens {w : World σ} {t : Timeline} (a : Address) (h : s.Opens w t) (ha : s.Agrees w)
    (hc : ∀ message, s.Spares (s.confirm message)) :
    ∃ m w', s.load a w = (.ok (.ok m), w') ∧ m.timeline = t ∧ w'.model? a = some m ∧
      s.Ready w'.held w'.disk ∧ s.Stores w'.disk t := by
  have hready := h.ready
  have hrest := readFile_rest s w
  obtain ⟨o, ho⟩ := h.reads
  have hr : s.readFile w = (.ok o, w.withDisk (s.readFile w).2.disk) := Prod.ext ho hrest
  have hn := (readFile_ok hr).2
  have hs := h.stores
  generalize (s.readFile w).2.disk = d at hr hready hs hn
  cases hs with
  | nothing h₀ =>
    have : o = none := Except.ok.inj (hn.symm.trans h₀)
    subst this
    unfold load storedModel
    rw [hr]
    exact ⟨_, _, rfl, rfl, World.model?_remember_self _ _ _, hready, .nothing h₀⟩
  | @model j m h₀ hm =>
    have : o = some j := Except.ok.inj (hn.symm.trans h₀)
    subst this
    obtain ⟨w', hl, hmodel, hheld, hdisk⟩ := load_of_state a hr hm ha
    have hk := resumeAgreed_keeps (.inr hc) m (w.withDisk d)
    rw [← hdisk] at hk
    refine ⟨m, w', hl, rfl, hmodel, ?_, (Stores.model h₀ hm).of_keeps hk⟩
    rw [hheld]
    exact hready.of_keeps hk

/-! ## What loading and clearing leave alone -/

section

variable {P : World σ → Prop} {w : World σ} (hread : P (s.readFile w).2)
  (hask : ∀ {w}, P w → ∀ message, P (w.call (s.confirm message)).2) (hreport : ∀ {w}, P w → ∀ e, P (w.report e))
include hread hask hreport

theorem storedModel_world : P (s.storedModel w).2 := by
  unfold storedModel
  split
  all_goals
    rename_i hr
    rw [hr] at hread
  · exact hread
  · exact hread
  · split
    · exact hread
    · rename_i w₁ _ m _
      have hagreed : P (s.resumeAgreed m w₁).2 := by
        rcases resumeAgreed_cases s m w₁ with he | ⟨message, he⟩
        · rw [he]
          exact hread
        · rw [he]
          exact hask hread message
      split
      all_goals
        rename_i hq
        rw [hq] at hagreed
      · exact hagreed
      · exact hreport hagreed _
      · exact hreport hagreed _

/-- Loading reads the file, asks the user, reports and puts a journal into memory, and does nothing else. -/
theorem load_world {a : Address} (hremember : ∀ {w}, P w → ∀ m, P (w.remember a m)) : P (s.load a w).2 := by
  have hstored := storedModel_world hread hask hreport
  unfold load
  split
  all_goals
    rename_i hr
    rw [hr] at hstored
  · exact hremember hstored _
  · exact hremember hstored _
  · split
    · exact hremember (hreport (hreport hstored _) _) _
    · exact hstored

end

theorem load_held (s : Session σ) (a : Address) (w : World σ) : (s.load a w).2.held = w.held :=
  load_world (P := fun w' => w'.held = w.held) (by rw [readFile_rest]; rfl) (fun h _ => h) (fun h _ => h) (fun h _ => h)

theorem load_model?_ne (s : Session σ) {a a' : Address} (w : World σ) (h : a' ≠ a) :
    (s.load a w).2.model? a' = w.model? a' :=
  load_world (P := fun w' => w'.model? a' = w.model? a') (by rw [readFile_rest]; rfl) (fun h _ => h) (fun h _ => h)
    (fun {w₁} hm m => (World.model?_remember_ne w₁ m h).trans hm)

theorem load_model {a : Address} {w w' : World σ} {r : Answer Model} (h : s.load a w = (.ok r, w')) :
    ∃ m, w'.model? a = some m := by
  unfold load at h
  split at h
  · cases h
    exact ⟨_, World.model?_remember_self _ _ _⟩
  · cases h
    exact ⟨_, World.model?_remember_self _ _ _⟩
  · split at h
    · cases h
      exact ⟨_, World.model?_remember_self _ _ _⟩
    · cases h

theorem load_disk {K : Disk → Disk → Prop} (htrans : ∀ {d d' d''}, K d d' → K d' d'' → K d d'') {w : World σ}
    (hr : K w.disk (s.readFile w).2.disk) (hask : ∀ message w, K w.disk (s.confirm message w).2.disk) (a : Address) :
    K w.disk (s.load a w).2.disk :=
  load_world (P := fun w' => K w.disk w'.disk) hr (fun h message => htrans h (hask message _)) (fun h _ => h)
    (fun h _ => h)

theorem load_file (hask : ∀ message w, (s.confirm message w).2.disk.node? s.file = w.disk.node? s.file) (a : Address)
    (w : World σ) (c : ByteArray) :
    (s.load a w).2.disk.node? s.file = some (.file c) ↔ w.disk.node? s.file = some (.file c) := by
  refine @load_disk σ s (fun d d' => d'.node? s.file = some (.file c) ↔ d.node? s.file = some (.file c))
    (fun h h' => h'.trans h) w ⟨?_, fun hc => ?_⟩ (fun message w => ?_) a
  · exact brings_readFile (file_ne_lock s s) w c
  · exact stays_readFile s.lock s w _ _ hc (.inl (file_ne_lock s s))
  · rw [hask message w]

theorem clear_world {P : World σ → Prop} {w : World σ} {a : Address} (h : P w)
    (hdelete : P (w.withDisk (StateFile.delete w.held s.target w.disk).2))
    (hreport : ∀ {w}, P w → ∀ e, P (w.report e)) (hforget : ∀ {w}, P w → P (w.forget a)) : P (s.clear a w).2 := by
  unfold clear
  split
  · exact h
  · rename_i l hl
    obtain rfl := eq_target hl
    split
    all_goals
      rename_i hd
      rw [hd] at hdelete
    · exact hreport hdelete _
    · dsimp only
      split
      · exact hreport (hforget hdelete) _
      · exact hforget hdelete

theorem clear_held (s : Session σ) (a : Address) (w : World σ) : (s.clear a w).2.held = w.held :=
  clear_world (P := fun w' => w'.held = w.held) rfl rfl (fun h _ => h) id

theorem clear_model?_ne (s : Session σ) {a a' : Address} (w : World σ) (h : a' ≠ a) :
    (s.clear a w).2.model? a' = w.model? a' :=
  clear_world (P := fun w' => w'.model? a' = w.model? a') rfl rfl (fun h _ => h)
    (fun {w₁} hm => (World.model?_forget_ne w₁ h).trans hm)

theorem stays_clear (s : Session σ) (a : Address) (w : World σ) :
    Disk.StaysBut s.file w.disk (s.clear a w).2.disk :=
  clear_world (P := fun w' => Disk.StaysBut s.file w.disk w'.disk) (.refl _ _) (stays_delete w.held s.target w.disk)
    (fun h _ => h) id

theorem brings_clear {p : Place} (hp : p ≠ s.lock) (a : Address) (w : World σ) :
    Disk.BringsNone p w.disk (s.clear a w).2.disk :=
  clear_world (P := fun w' => Disk.BringsNone p w.disk w'.disk) (fun _ hc => hc) (brings_delete hp w.held w.disk)
    (fun h _ => h) id

theorem clear_of_ready {w : World σ} (h : s.Ready w.held w.disk) (a : Address) :
    ∃ r w', s.clear a w = (.ok r, w') ∧ (w'.disk = w.disk ∨ w'.disk.node? s.file = none) := by
  unfold clear
  rw [h.location]
  dsimp only
  rcases h.file.delete_cases with ⟨f, hd⟩ | ⟨removed, d', hd, hn⟩
  · rw [hd]
    exact ⟨_, _, rfl, .inl rfl⟩
  · rw [hd]
    cases removed with
    | true => exact ⟨_, _, rfl, .inr hn⟩
    | false => exact ⟨_, _, rfl, .inr hn⟩

/-! ## Sessions that are resumed -/

theorem spares_of_disk {α : Type} {code : Code σ α} (h : ∀ w, (code w).2.disk = w.disk) : s.Spares code := by
  intro w
  rw [h]
  exact .refl s w.disk

/-- A session in the working directory that is resumed whenever it can be. -/
def plain (parent : Option String) (name : String) : Session σ :=
  ⟨name, ⟨[], []⟩, parent, Settings.defaults, fun _ w => (.ok (.bool true), w.scene)⟩

theorem agrees_plain (parent : Option String) (name : String) (w : World σ) : (plain parent name).Agrees w := by
  intro j w₁ m _ _
  obtain ⟨message, hm⟩ : ∃ message, Text.fill Settings.defaults.resumeMessage "storyboard" m.board = .ok message :=
    ⟨_, rfl⟩
  unfold resumeAgreed askResume plain
  rw [hm]
  split
  · rfl
  · rfl

end Session

def World.blank {σ : Type} (u : σ) : World σ := ⟨"", Disk.empty, [], [], [], u⟩

end Boardwalk
