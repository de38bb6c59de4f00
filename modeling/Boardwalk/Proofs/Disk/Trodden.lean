import Boardwalk.Proofs.Session.Cleared
/-!
# Ways without pairs of dots

Resolving a location takes the pairs of dots back without a look at the disk. Where the way of the location leads
through directories nothing is lost by that: the names that are left lead through directories to the same place
(`trodden_of_walk`).
-/

namespace Boardwalk

namespace Location

theorem ofPlace_below {c : String} (h : c ≠ "/") (cs : List String) :
    ofPlace (c :: cs) = ⟨[], (c :: cs).map String.toList⟩ := by
  unfold ofPlace
  split
  · rename_i he
    exact absurd (List.head_eq_of_cons_eq he) h
  · rfl

theorem ofPlace_concat {p : Place} {n : String} (h : p ≠ [] ∨ n ≠ "/") : ofPlace (p ++ [n]) = (ofPlace p).child n := by
  cases p with
  | nil => exact ofPlace_below (h.resolve_left (fun hne => hne rfl)) []
  | cons c cs =>
    have hmap (names : List String) : (names ++ [n]).map String.toList = names.map String.toList ++ [n.toList] :=
      List.map_append
    by_cases hc : c = "/"
    · subst hc
      exact congrArg (Location.mk ['/']) (hmap cs)
    · rw [List.cons_append, ofPlace_below hc, ofPlace_below hc]
      exact congrArg (Location.mk []) (hmap (c :: cs))

end Location

namespace Disk

open Location (ofPlace)

variable {d : Disk} {p dir : Place} {n : String}

def Trodden (d : Disk) (p : Place) : Prop := d.walk (ofPlace p).start (ofPlace p).way = .ok p

theorem walk_append_ok {names rest : List String} : d.walk dir (names ++ rest) = .ok p ↔
    ∃ q, d.walk dir names = .ok q ∧ d.walk q rest = .ok p := by
  rw [walk_append]
  cases d.walk dir names with
  | error f =>
    constructor
    · intro h
      cases h
    · rintro ⟨q, hq, -⟩
      cases hq
  | ok q =>
    constructor
    · intro h
      exact ⟨q, rfl, h⟩
    · rintro ⟨q', hq', h⟩
      cases hq'
      exact h

theorem walk_single_inv (h : d.walk dir [n] = .ok p) :
    isLongName n = false ∧ dir.enter n = p ∧ d.node? p = some .dir := by
  have hp : d.node? p = some .dir := by
    unfold walk at h
    dsimp only at h
    split at h
    · cases h
    · split at h
      · rename_i hdir
        cases h
        exact hdir
      · cases h
      · cases h
  obtain ⟨hlong, henter⟩ := (walk_last hp).mp h
  exact ⟨hlong, henter, hp⟩

theorem trodden_concat (h : p ≠ [] ∨ n ≠ "/") :
    d.Trodden (p ++ [n]) ↔ ∃ q, d.walk (ofPlace p).start (ofPlace p).way = .ok q ∧ d.walk q [n] = .ok (p ++ [n]) := by
  unfold Trodden
  rw [Location.ofPlace_concat h, Location.way_child]
  exact walk_append_ok

theorem Trodden.push (hp : d.Trodden p) (h : p ≠ [] ∨ n ≠ "/") (hn : d.walk p [n] = .ok (p ++ [n])) :
    d.Trodden (p ++ [n]) := (trodden_concat h).mpr ⟨p, hp, hn⟩

theorem Trodden.pop (hp : d.Trodden (p ++ [n])) (h : p ≠ [] ∨ n ≠ "/") (hdots : n ≠ "..") : d.Trodden p := by
  obtain ⟨q, hq, hn⟩ := (trodden_concat h).mp hp
  obtain ⟨-, henter, -⟩ := walk_single_inv hn
  rw [Place.enter, if_neg hdots] at henter
  obtain rfl := List.append_cancel_right henter
  exact hq

theorem Trodden.enter (hp : d.Trodden p) (hn : d.walk p [n] = .ok (p.enter n)) : d.Trodden (p.enter n) := by
  unfold Place.enter at hn ⊢
  by_cases hdots : n = ".."
  · subst hdots
    rw [if_pos rfl] at hn ⊢
    unfold Place.up at hn ⊢
    split at hn
    · rename_i hlast
      obtain rfl := List.getLast?_eq_none_iff.mp hlast
      exact hp.push (.inr (by decide)) hn
    · -- a pair of dots undoes the last name, unless that is a pair of dots or the root
      rename_i m hlast
      obtain ⟨q, rfl⟩ := List.getLast?_eq_some_iff.mp hlast
      split at hn
      · rename_i hm
        rw [if_pos hm]
        exact hp.push (.inr (by decide)) hn
      · rename_i hm
        rw [if_neg hm]
        split at hn
        · rename_i hroot
          rw [if_pos hroot]
          exact hp
        · rename_i hroot
          rw [if_neg hroot, List.dropLast_concat]
          exact hp.pop (.inr hroot) hm
  · rw [if_neg hdots] at hn ⊢
    by_cases hroot : p = [] ∧ n = "/"
    · obtain ⟨rfl, rfl⟩ := hroot
      rfl
    · refine hp.push ?_ hn
      by_cases hempty : p = []
      · exact .inr fun hslash => hroot ⟨hempty, hslash⟩
      · exact .inl hempty

/-- **A way through directories can be taken without its pairs of dots.** -/
theorem trodden_of_walk {names : List String} (hdir : d.Trodden dir) (h : d.walk dir names = .ok p) :
    d.Trodden p := by
  induction names generalizing dir with
  | nil =>
    cases h
    exact hdir
  | cons n names ih =>
    obtain ⟨q, hn, hrest⟩ := walk_append_ok.mp (show d.walk dir ([n] ++ names) = .ok p from h)
    obtain rfl := (walk_single_inv hn).2.1
    exact ih (hdir.enter hn) hrest

theorem trodden_start (d : Disk) (l : Location) : d.Trodden l.start := by
  unfold Location.start
  split
  · rfl
  · rfl

theorem Trodden.place_eq (h : d.Trodden p) : (ofPlace p).place = p :=
  (makeDirsAlong_place (makeDirsAlong_walk h false)).symm

theorem trodden_place {l : Location} (h : d.nodeAt l = .ok (some .dir)) :
    d.Trodden l.place ∧ d.reach l = .ok l.place ∧ d.node? l.place = some .dir := by
  obtain ⟨hcheck, p, hwalk, hp⟩ := nodeAt_dir_iff.mp h
  have hplace : p = l.place := makeDirsAlong_place (makeDirsAlong_walk hwalk false)
  subst hplace
  exact ⟨trodden_of_walk (trodden_start d l) hwalk, (reach_dir_iff hp).mpr ⟨hcheck, hwalk⟩, hp⟩

theorem makeDirs_trodden (h : d.Trodden p) (hcheck : (ofPlace p).check = .ok ()) :
    d.makeDirs (ofPlace p) = (.ok p, d) := by
  unfold makeDirs
  rw [hcheck]
  exact makeDirsAlong_walk h false

end Disk

end Boardwalk
