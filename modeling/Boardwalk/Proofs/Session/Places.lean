import Boardwalk.Proofs.Disk.Child
import Boardwalk.Proofs.Disk.Standing
import Boardwalk.Session
/-!
# The places of a session

A session has one file, and one lock beside it. No session's file is the lock of another one
(`file_ne_lock`), since their names end differently.
-/

namespace Boardwalk

theorem Location.start_ofPlace (p : Place) :
    (p = "/" :: p.tail ∧ ofPlace p = ⟨['/'], p.tail.map String.toList⟩) ∨
      ofPlace p = ⟨[], p.map String.toList⟩ := by
  unfold ofPlace
  split
  · exact .inl ⟨rfl, rfl⟩
  · exact .inr rfl

namespace Session

variable {σ : Type}

def fileName (s : Session σ) : String := stem s.parent s.name ++ ".json"

def target (s : Session σ) : Location := Location.ofPlace s.location.place

def file (s : Session σ) : Place := StateFile.filePlace s.target

def lock (s : Session σ) : Place := StateFile.lockPlace s.target

theorem eq_target {s : Session σ} {l : Location} (h : s.resolved = .ok l) : l = s.target := by
  unfold resolved Location.resolve at h
  split at h
  · cases h
  · cases h
    rfl

theorem fileName_ne {s : Session σ} {n : String} (h : n.toList.length < 5) : s.fileName ≠ n := Location.append_ne h

theorem place_location (s : Session σ) : s.location.place = s.directory.place ++ [s.fileName] :=
  s.directory.place_child (fileName_ne (by decide))

theorem way_target (s : Session σ) : s.target.way.getLast? = some s.fileName := by
  have hm : ∀ p : List String, (p.map String.toList).map String.ofList = p := fun p => by
    rw [List.map_map]
    exact (List.map_congr_left fun x _ => String.ofList_toList).trans (List.map_id p)
  unfold target Location.way
  rcases Location.start_ofPlace s.location.place with ⟨hp, h⟩ | h
  · rw [h, hm]
    rw [place_location] at hp ⊢
    cases hd : s.directory.place with
    | nil =>
      rw [hd] at hp
      exact absurd (List.head_eq_of_cons_eq hp) (fileName_ne (by decide))
    | cons c cs => simp
  · rw [h, hm, place_location]
    exact List.getLast?_concat

theorem file_eq (s : Session σ) : s.file = s.target.parent.place ++ [s.fileName] := by
  unfold file StateFile.filePlace StateFile.placeIn
  rw [way_target]
  exact if_neg (fileName_ne (by decide))

theorem lock_eq (s : Session σ) : s.lock = s.target.parent.place ++ [s.fileName ++ ".lock"] := by
  unfold lock StateFile.lockPlace StateFile.lockName
  rw [way_target]

/-- **No file of a session is the lock of one.** -/
theorem file_ne_lock (s t : Session σ) : s.file ≠ t.lock := by
  intro h
  have hl := congrArg List.getLast? h
  rw [file_eq, lock_eq, List.getLast?_concat, List.getLast?_concat] at hl
  exact Location.append_ne_append rfl rfl (by decide) (Option.some.inj hl)

theorem isBase_file (s : Session σ) : Disk.isBase s.file = false := by
  rw [file_eq]
  exact Disk.isBase_concat (fileName_ne (by decide)) (fileName_ne (by decide))

end Session

end Boardwalk
