import Boardwalk.Proofs.Disk.Trodden
/-!
# Reading a file of a directory

In a directory that is there, reading a file only takes that its lock can be taken (`Lockable`): no directories are to
be made for it. What the file holds comes out then (`read_lockable`), and all that is new on the disk is the file that
stands for the lock (`Adds`).
-/

namespace Boardwalk

namespace Disk

variable {d d' d'' : Disk} {dir : Place} {names names' : List String}

/-- The disk stays as it is, but for empty files that stand for the locks on some files of a directory. -/
def Adds (dir : Place) (names : List String) (d d' : Disk) : Prop :=
  ∀ p, d'.node? p = d.node? p ∨ d.node? p = none ∧ d'.node? p = some (.file ByteArray.empty) ∧
    ∃ n ∈ names, p = dir ++ [n ++ ".lock"]

theorem Adds.refl (dir : Place) (names : List String) (d : Disk) : Adds dir names d d := fun _ => .inl rfl

theorem Adds.mono (h : Adds dir names d d') (hn : ∀ n ∈ names, n ∈ names') : Adds dir names' d d' := by
  intro p
  rcases h p with hp | ⟨hnone, hp, n, hmem, he⟩
  · exact .inl hp
  · exact .inr ⟨hnone, hp, n, hn n hmem, he⟩

theorem Adds.trans (h : Adds dir names d d') (h' : Adds dir names d' d'') : Adds dir names d d'' := by
  intro p
  rcases h' p with hp' | ⟨hnone', hp', hlock⟩
  · rw [hp']
    exact h p
  · rcases h p with hp | ⟨-, hp, -⟩
    · exact .inr ⟨hp.symm.trans hnone', hp', hlock⟩
    · cases hnone'.symm.trans hp

theorem Adds.kept (h : Adds dir names d d') {p : Place} {x : Node} (hx : d.node? p = some x) :
    d'.node? p = some x := by
  rcases h p with hp | ⟨hnone, -⟩
  · exact hp.trans hx
  · cases hnone.symm.trans hx

theorem Adds.same (h : Adds dir names d d') {p : Place} (hp : ∀ n ∈ names, p ≠ dir ++ [n ++ ".lock"]) :
    d'.node? p = d.node? p := by
  rcases h p with he | ⟨-, -, n, hn, he⟩
  · exact he
  · exact absurd he (hp n hn)

theorem adds_touch {n : String} (h : d.touch (dir ++ [n ++ ".lock"]) = .ok d') : Adds dir [n] d d' := by
  rcases touch_cases h with ⟨rfl, -⟩ | ⟨hnone, rfl⟩
  · exact .refl dir [n] d'
  · intro p
    by_cases hp : p = dir ++ [n ++ ".lock"]
    · subst hp
      exact .inr ⟨hnone, node?_put_self d _ (isBase_eq_false hnone (by simp)), n, List.mem_singleton_self n, rfl⟩
    · exact .inl (node?_put_ne d _ hp)

theorem touch_ok_iff {n : String} (hdir : d.node? dir = some .dir) : (∃ d', d.touch (dir ++ [n]) = .ok d') ↔
    d.node? (dir ++ [n]) ≠ some .dir ∧ (d.node? (dir ++ [n]) = none → isLongName n = false) := by
  have hparent : d.isDir (dir ++ [n]).dropLast = true := by
    rw [List.dropLast_concat]
    exact isDir_iff.mpr hdir
  have hlast : (dir ++ [n]).getLast?.any isLongName = isLongName n := by
    rw [List.getLast?_concat]
    rfl
  unfold touch write
  rw [hparent, hlast]
  unfold file? isDir
  cases d.node? (dir ++ [n]) with
  | none => cases isLongName n <;> simp
  | some x => cases x <;> simp

end Disk

namespace StateFile

open Disk
open Location (ofPlace)

variable {held : List Place} {d : Disk} {dir : Place} {n : String}

/-- The lock on a file of a directory can be taken: nobody else holds it, and a file can stand for it. -/
structure Lockable (held : List Place) (d : Disk) (dir : Place) (n : String) : Prop where
  directory : (ofPlace dir).check = .ok ()
  lock : ((ofPlace dir).child (n ++ ".lock")).check = .ok ()
  free : held.contains (dir ++ [n ++ ".lock"]) = false
  place : d.node? (dir ++ [n ++ ".lock"]) ≠ some .dir
  short : d.node? (dir ++ [n ++ ".lock"]) = none → isLongName (n ++ ".lock") = false

theorem Lockable.congr {d' : Disk} (h : Lockable held d dir n)
    (hsame : d'.node? (dir ++ [n ++ ".lock"]) = d.node? (dir ++ [n ++ ".lock"])) : Lockable held d' dir n := by
  refine ⟨h.directory, h.lock, h.free, ?_, ?_⟩
  · rw [hsame]
    exact h.place
  · rw [hsame]
    exact h.short

theorem lockName_child (l : Location) (n : String) : lockName (l.child n) = n ++ ".lock" := by
  unfold lockName
  rw [Location.way_child, List.getLast?_concat]

theorem takeLock_child_iff (hdir : d.node? dir = some .dir) (hcheck : (ofPlace dir).check = .ok ()) :
    (∃ d', takeLock held dir ((ofPlace dir).child n) d = .ok d') ↔ Lockable held d dir n := by
  have hlock : lockLocation ((ofPlace dir).child n) = (ofPlace dir).child (n ++ ".lock") := by
    unfold lockLocation
    rw [Location.parent_child, lockName_child]
  constructor
  · rintro ⟨d', h⟩
    obtain ⟨hallowed, htouch, hfree⟩ := takeLock_inv h
    rw [hlock] at hallowed
    rw [lockName_child] at htouch hfree
    obtain ⟨hplace, hshort⟩ := (touch_ok_iff hdir).mp ⟨d', htouch⟩
    exact ⟨hcheck, hallowed, hfree, hplace, hshort⟩
  · intro h
    obtain ⟨d', htouch⟩ := (touch_ok_iff hdir).mpr ⟨h.place, h.short⟩
    refine ⟨d', takeLock_ok ?_ ?_ ?_⟩
    · rw [hlock]
      exact h.lock
    · rw [lockName_child]
      exact htouch
    · rw [lockName_child]
      exact h.free

theorem placeIn_child {l : Location} (hn : n ≠ "..") : placeIn dir (l.child n) = dir ++ [n] := by
  unfold placeIn
  rw [Location.way_child, List.getLast?_concat]
  exact if_neg hn

section

variable (htrod : d.Trodden dir) (hdir : d.node? dir = some .dir)
include htrod hdir

theorem read_lockable (hn : n ≠ "..") (h : Lockable held d dir n) :
    ∃ d', read held ((ofPlace dir).child n) d = (stateOfNode (d.node? (dir ++ [n])), d') ∧ Adds dir [n] d d' := by
  obtain ⟨d', hlock⟩ := (takeLock_child_iff hdir h.directory).mpr h
  have hadds : Adds dir [n] d d' := by
    have htouch := (takeLock_inv hlock).2.1
    rw [lockName_child] at htouch
    exact adds_touch htouch
  have hsame : d'.node? (dir ++ [n]) = d.node? (dir ++ [n]) := by
    refine hadds.same fun m hm he => ?_
    rw [List.mem_singleton.mp hm] at he
    exact ne_lock n (List.singleton_inj.mp (List.append_cancel_left he))
  refine ⟨d', ?_, hadds⟩
  unfold read locked
  rw [Location.parent_child, makeDirs_trodden htrod h.directory]
  dsimp only
  rw [hlock]
  dsimp only
  rw [readState_eq, placeIn_child hn, hsame]

theorem read_unlockable (h : ¬ Lockable held d dir n) :
    ∃ f, read held ((ofPlace dir).child n) d = (.error f, d) ∧ f.isUnreadable = true := by
  unfold read locked
  rw [Location.parent_child]
  cases hcheck : (ofPlace dir).check with
  | error f =>
    unfold makeDirs
    rw [hcheck]
    exact ⟨_, rfl, Fault.isUnreadable_disk f⟩
  | ok u =>
    rw [makeDirs_trodden htrod hcheck]
    dsimp only
    cases hlock : takeLock held dir ((ofPlace dir).child n) d with
    | error f => exact ⟨f, rfl, takeLock_unreadable hlock⟩
    | ok d' => exact absurd ((takeLock_child_iff hdir hcheck).mp ⟨d', hlock⟩) h

end

end StateFile

end Boardwalk
