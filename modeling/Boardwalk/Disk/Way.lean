import Boardwalk.Disk.Basic
/-!
# Ways on the disk

A location is followed name by name, and each name but the last has to be a directory: a pair of dots after a
name that is missing leads nowhere. Resolving a location takes the pairs of dots back without a look at the
disk.
-/

namespace Boardwalk

namespace Location

def textLimit : Nat := 4095

def hasNull (l : Location) : Bool := l.names.any fun n => n.any fun c => c.toNat == 0

def check (l : Location) : Except DiskFault Unit :=
  if l.hasNull then .error .nullCharacter
  else if textLimit < l.text.utf8ByteSize then .error .nameTooLong
  else .ok ()

def resolve (l : Location) : Except DiskFault Location :=
  if l.hasNull then .error .nullCharacter else .ok (ofPlace l.place)

end Location

namespace Disk

def walk (d : Disk) : Place → List String → Except DiskFault Place
  | dir, [] => .ok dir
  | dir, n :: rest =>
    let p := Place.enter dir n
    if isLongName n then .error .nameTooLong
    else match d.node? p with
      | some .dir => walk d p rest
      | some (.file _) => .error .notDirectory
      | none => .error .missing

def reach (d : Disk) (l : Location) : Except DiskFault Place := do
  l.check
  let dir ← d.walk l.start l.parent.way
  match l.way.getLast? with
  | none => return dir
  | some n => if isLongName n then throw .nameTooLong else return Place.enter dir n

def nodeAt (d : Disk) (l : Location) : Except DiskFault (Option Node) :=
  match d.reach l with
  | .ok p => .ok (d.node? p)
  | .error .nameTooLong => .error .nameTooLong
  | .error _ => .ok none

def existsAt (d : Disk) (l : Location) : Except DiskFault Bool := (d.nodeAt l).map Option.isSome

/-- Makes the missing directories along some names, and tells where they lead. A file in the way is no
directory; after a directory that was made on the way it is one that is there already. -/
def makeDirsAlong (d : Disk) (dir : Place) (hasMade : Bool) : List String → Except DiskFault Place × Disk
  | [] => (.ok dir, d)
  | n :: rest =>
    let p := Place.enter dir n
    if isLongName n then (.error .nameTooLong, d)
    else match d.node? p with
      | some .dir => makeDirsAlong d p hasMade rest
      | some (.file _) => (.error (if rest.isEmpty || hasMade then .exists else .notDirectory), d)
      | none => makeDirsAlong (d.put p .dir) p true rest

/-- Makes a directory with all directories on the way to it, and tells its place; one that is there already is
no fault. What was made before a fault stays. -/
def makeDirs (d : Disk) (l : Location) : Except DiskFault Place × Disk :=
  match l.check with
  | .error f => (.error f, d)
  | .ok _ => makeDirsAlong d l.start false l.way

theorem node?_makeDirsAlong {p : Place} {n : Node} (names : List String) :
    ∀ {d : Disk} (dir : Place) (hasMade : Bool), d.node? p = some n →
      (d.makeDirsAlong dir hasMade names).2.node? p = some n := by
  induction names with
  | nil => intro d dir hasMade h; exact h
  | cons m rest ih =>
    intro d dir hasMade h
    simp only [makeDirsAlong]
    split
    · exact h
    · split
      · exact ih _ _ h
      · exact h
      · rename_i hn
        refine ih _ _ ?_
        have hp : p ≠ Place.enter dir m := by
          intro e
          rw [← e, h] at hn
          cases hn
        rw [node?_put_ne d .dir hp]
        exact h

theorem node?_makeDirs {d : Disk} {l : Location} {p : Place} {n : Node} (h : d.node? p = some n) :
    (d.makeDirs l).2.node? p = some n := by
  unfold makeDirs
  split
  · exact h
  · exact node?_makeDirsAlong _ _ _ h

end Disk

end Boardwalk
