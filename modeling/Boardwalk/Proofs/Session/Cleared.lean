import Boardwalk.Proofs.Session.Stored
/-!
# Sessions that are cleared

A session can be cleared if its directory is there, its lock can be taken and no directory stands in the place of its
file (`Clearable`): then neither its file nor its journal is left (`clear_of_clearable`). The clearing of other sessions
leaves it what it needs for that, unless it makes directories in its places (`Clearable.between`), and never brings its
file back (`passes_clear`).
-/

namespace Boardwalk

namespace Disk

/-! ## Directories that are there -/

theorem makeDirsAlong_walk {d : Disk} {names : List String} {dir p : Place} (h : d.walk dir names = .ok p)
    (made : Bool) : d.makeDirsAlong dir made names = (.ok p, d) := by
  induction names generalizing dir with
  | nil =>
    cases h
    rfl
  | cons n names ih =>
    unfold walk at h
    rw [makeDirsAlong]
    dsimp only at h ⊢
    split at h
    · cases h
    · rename_i hl
      rw [if_neg hl]
      split at h
      · exact ih h
      · cases h
      · cases h

theorem walk_append (d : Disk) (names rest : List String) (dir : Place) :
    d.walk dir (names ++ rest) = (d.walk dir names).bind fun p => d.walk p rest := by
  induction names generalizing dir with
  | nil => rfl
  | cons n names ih =>
    rw [List.cons_append, walk, walk]
    split
    · rfl
    · split
      · exact ih _
      · rfl
      · rfl

theorem walk_last {d : Disk} {dir p : Place} {n : String} (hp : d.node? p = some .dir) :
    d.walk dir [n] = .ok p ↔ isLongName n = false ∧ dir.enter n = p := by
  unfold walk
  dsimp only
  cases isLongName n with
  | true => simp
  | false =>
    constructor
    · intro h
      split at h
      · contradiction
      · split at h
        · exact ⟨rfl, Except.ok.inj h⟩
        · cases h
        · cases h
    · rintro ⟨-, rfl⟩
      rw [hp]
      rfl

theorem reach_dir_iff {d : Disk} {l : Location} {p : Place} (hp : d.node? p = some .dir) :
    d.reach l = .ok p ↔ l.check = .ok () ∧ d.walk l.start l.way = .ok p := by
  have hparent : l.parent.way = l.way.dropLast := by
    unfold Location.way Location.parent
    rw [List.map_dropLast]
  unfold reach
  rw [hparent]
  cases l.check with
  | error f => simp [bind, Except.bind]
  | ok u =>
    cases hlast : l.way.getLast? with
    | none =>
      rw [List.getLast?_eq_none_iff.mp hlast]
      simp [bind, Except.bind, pure, Except.pure, walk]
    | some n =>
      obtain ⟨names, hway⟩ := List.getLast?_eq_some_iff.mp hlast
      rw [hway, List.dropLast_concat, walk_append]
      cases d.walk l.start names with
      | error f => simp [bind, Except.bind]
      | ok dir =>
        simp only [bind, Except.bind, walk_last hp, true_and]
        cases isLongName n with
        | true => simp [throw, throwThe, MonadExceptOf.throw]
        | false => simp [pure, Except.pure]

theorem nodeAt_dir_iff {d : Disk} {l : Location} : d.nodeAt l = .ok (some .dir) ↔
    l.check = .ok () ∧ ∃ p, d.walk l.start l.way = .ok p ∧ d.node? p = some .dir := by
  constructor
  · intro h
    unfold nodeAt at h
    split at h
    · rename_i p hr
      have hp := Except.ok.inj h
      obtain ⟨hcheck, hwalk⟩ := (reach_dir_iff hp).mp hr
      exact ⟨hcheck, p, hwalk, hp⟩
    · cases h
    · cases h
  · rintro ⟨hcheck, p, hwalk, hp⟩
    unfold nodeAt
    rw [(reach_dir_iff hp).mpr ⟨hcheck, hwalk⟩]
    exact congrArg Except.ok hp

theorem makeDirs_of_dir {d : Disk} {l : Location} (h : d.nodeAt l = .ok (some .dir)) :
    d.makeDirs l = (.ok l.place, d) := by
  obtain ⟨hcheck, p, hwalk, -⟩ := nodeAt_dir_iff.mp h
  have hmake : d.makeDirs l = (.ok p, d) := by
    unfold makeDirs
    rw [hcheck]
    exact makeDirsAlong_walk hwalk false
  rw [hmake, makeDirs_place hmake]

theorem walk_of_keeps {d d' : Disk} (hk : d.KeepsDirs d') {names : List String} {dir p : Place}
    (h : d.walk dir names = .ok p) : d'.walk dir names = .ok p := by
  induction names generalizing dir with
  | nil => exact h
  | cons n names ih =>
    unfold walk at h ⊢
    dsimp only at h ⊢
    split at h
    · cases h
    · rename_i hl
      rw [if_neg hl]
      split at h
      · rename_i hn
        rw [hk _ hn]
        exact ih h
      · cases h
      · cases h

theorem nodeAt_of_keeps {d d' : Disk} (hk : d.KeepsDirs d') {l : Location} (h : d.nodeAt l = .ok (some .dir)) :
    d'.nodeAt l = .ok (some .dir) := by
  obtain ⟨hcheck, p, hwalk, hp⟩ := nodeAt_dir_iff.mp h
  exact nodeAt_dir_iff.mpr ⟨hcheck, p, walk_of_keeps hk hwalk, hk p hp⟩

end Disk

/-! ## Files that can be removed -/

namespace StateFile

open Disk

theorem locked_eq {held : List Place} {l : Location} {d d₀ d₁ : Disk}
    (hdirs : d.makeDirs l.parent = (.ok l.parent.place, d₀)) (hlock : takeLock held l.parent.place l d₀ = .ok d₁)
    {α : Type} (op : Place → Disk → Except Fault α × Disk) : locked held l op d = op (filePlace l) d₁ := by
  unfold locked
  rw [hdirs]
  dsimp only
  rw [hlock]
  rfl

structure Deletable (held : List Place) (l : Location) (d : Disk) : Prop where
  directory : d.nodeAt l.parent = .ok (some .dir)
  lock : ∃ d', takeLock held l.parent.place l d = .ok d'
  file : d.isDir (filePlace l) = false

instance (held : List Place) (l : Location) (d : Disk) : Decidable (Deletable held l d) :=
  decidable_of_iff ((d.nodeAt l.parent matches .ok (some .dir)) ∧ (takeLock held l.parent.place l d matches .ok _) ∧
    d.isDir (filePlace l) = false) <| by
    constructor
    · rintro ⟨hdir, hlock, hfile⟩
      refine ⟨?_, ?_, hfile⟩
      · split at hdir
        · assumption
        · cases hdir
      · split at hlock
        · exact ⟨_, by assumption⟩
        · cases hlock
    · intro h
      obtain ⟨d', hd'⟩ := h.lock
      rw [h.directory, hd']
      exact ⟨rfl, rfl, h.file⟩

theorem isDir_touch {d d' : Disk} {p q : Place} (h : d.touch q = .ok d') (hp : d.isDir p = false) :
    d'.isDir p = false := by
  rcases touch_cases h with ⟨rfl, -⟩ | ⟨hn, rfl⟩
  · exact hp
  · by_cases hpq : p = q
    · subst hpq
      obtain ⟨c, hc⟩ := file?_touch h
      simp [isDir, hc]
    · unfold isDir at hp ⊢
      rwa [node?_put_ne d _ hpq]

theorem Deletable.delete {held : List Place} {l : Location} {d : Disk} (h : Deletable held l d)
    (hb : isBase (filePlace l) = false) :
    ∃ removed d', delete held l d = (.ok removed, d') ∧ d'.node? (filePlace l) = none := by
  obtain ⟨d₁, hlock⟩ := h.lock
  have hfile : d₁.isDir (filePlace l) = false := isDir_touch (takeLock_inv hlock).2.1 h.file
  unfold StateFile.delete
  rw [locked_eq (makeDirs_of_dir h.directory) hlock]
  unfold removeState exists? remove
  cases hn : d₁.node? (filePlace l) with
  | none => exact ⟨false, d₁, rfl, hn⟩
  | some n =>
    cases n with
    | dir => simp [isDir, hn] at hfile
    | file c => exact ⟨true, _, rfl, node?_drop_self d₁ hb⟩

end StateFile

namespace Session

open StateFile

variable {σ : Type} {s t : Session σ}

/-- Directories and the lock of the session stay, and its file does not come back. -/
structure Passes (s : Session σ) (d d' : Disk) : Prop where
  dirs : d.KeepsDirs d'
  lock : ∀ c, d.node? s.lock = some (.file c) → d'.node? s.lock = some (.file c)
  file : Disk.BringsNone s.file d d'

theorem Passes.refl (s : Session σ) (d : Disk) : s.Passes d d := ⟨fun _ h => h, fun _ h => h, fun _ h => h⟩

theorem Passes.trans {d d' d'' : Disk} (h : s.Passes d d') (h' : s.Passes d' d'') : s.Passes d d'' :=
  ⟨fun p hp => h'.dirs p (h.dirs p hp), fun c hc => h'.lock c (h.lock c hc), h.file.trans h'.file⟩

theorem passes_clear (s t : Session σ) (a : Address) (w : World σ) : s.Passes w.disk (t.clear a w).2.disk where
  dirs := (stays_clear t a w).keepsDirs
  lock _ hc := stays_clear t a w _ _ hc (.inl (file_ne_lock t s).symm)
  file := brings_clear (file_ne_lock s t) a w

theorem clear_model?_none (s : Session σ) (a : Address) {a' : Address} {w : World σ} (h : w.model? a' = none) :
    (s.clear a w).2.model? a' = none := by
  refine clear_world (P := fun w => w.model? a' = none) h h (fun h _ => h) (fun {w₁} h₁ => ?_)
  by_cases ha : a' = a
  · rw [ha, World.model?_forget_self]
  · rw [World.model?_forget_ne w₁ ha, h₁]

/-- The directory of the file is there, its lock can be taken, and no directory stands in the place of the file. -/
def Clearable (s : Session σ) (held : List Place) (d : Disk) : Prop := Deletable held s.target d

instance (s : Session σ) (held : List Place) (d : Disk) : Decidable (s.Clearable held d) :=
  inferInstanceAs (Decidable (Deletable held s.target d))

/-- **Of a session that can be cleared neither file nor journal is left.** -/
theorem clear_of_clearable {a : Address} {w w' : World σ} {r : Answer Unit} (h : s.Clearable w.held w.disk)
    (hc : s.clear a w = (.ok r, w')) : w'.model? a = none ∧ w'.disk.node? s.file = none := by
  unfold clear at hc
  split at hc
  · cases hc
  · rename_i l hl
    obtain rfl := eq_target hl
    obtain ⟨removed, d, hd, hn⟩ := h.delete (isBase_file s)
    rw [hd] at hc
    dsimp only at hc
    cases hc
    split
    · exact ⟨World.model?_forget_self _ _, hn⟩
    · exact ⟨World.model?_forget_self _ _, hn⟩

/-- A session that can be cleared at first and in the end can be cleared in between. -/
theorem Clearable.between {held : List Place} {d d' d'' : Disk} (h : s.Clearable held d)
    (h'' : s.Clearable held d'') (hp : s.Passes d d') (hk : d'.KeepsDirs d'') : s.Clearable held d' := by
  have hfile : d'.isDir (filePlace s.target) = false := by
    refine Bool.eq_false_iff.mpr fun hd => ?_
    have hd'' := Disk.isDir_iff.mpr (hk _ (Disk.isDir_iff.mp hd))
    rw [h''.file] at hd''
    cases hd''
  refine ⟨Disk.nodeAt_of_keeps hp.dirs h.directory, ?_, hfile⟩
  obtain ⟨d₁, hlock⟩ := h.lock
  obtain ⟨d₂, hlock'⟩ := h''.lock
  obtain ⟨hcheck, htouch, hfree⟩ := takeLock_inv hlock
  change d.touch s.lock = .ok d₁ at htouch
  suffices ht : ∃ d₃, d'.touch s.lock = .ok d₃ by
    obtain ⟨d₃, ht⟩ := ht
    exact ⟨d₃, takeLock_ok hcheck ht hfree⟩
  cases hn : d'.node? s.lock with
  | none =>
    unfold Disk.touch at htouch ⊢
    rw [if_neg (by simp [Disk.file?, hn])]
    split at htouch
    · rename_i hf
      unfold Disk.file? at hf
      split at hf
      · rename_i c hc
        cases hn.symm.trans (hp.lock c hc)
      · cases hf
    · exact Disk.write_of_keeps htouch hp.dirs (by simp [Disk.isDir, hn]) _
  | some n =>
    cases n with
    | file c => exact ⟨d', Disk.touch_again hn⟩
    | dir =>
      obtain ⟨c, hc⟩ := Disk.file?_touch (takeLock_inv hlock').2.1
      have hd := (Disk.stays_touch [] (takeLock_inv hlock').2.1).keepsDirs _ (hk _ hn)
      cases hc.symm.trans hd

end Session

end Boardwalk
