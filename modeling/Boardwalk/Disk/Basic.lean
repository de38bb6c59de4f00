import Boardwalk.Disk.Location
import Boardwalk.Fault
/-!
# The disk

Files and directories by place. Each operation here either changes the disk as asked or refuses and changes
nothing.
-/

namespace Boardwalk

inductive Node where
  | file (content : ByteArray)
  | dir
  deriving Inhabited

/-- The nodes below the working directory; at most one counts for each place, the first. -/
structure Disk where
  nodes : List (Place × Node)
  deriving Inhabited

namespace Disk

def empty : Disk := ⟨[]⟩

/-- The starting points of all places, and what lies above them, are directories that are always there. -/
def isBase (p : Place) : Bool := p.all (· == "..") || p == ["/"]

def nameLimit : Nat := 255

def isLongName (name : String) : Bool := nameLimit < name.utf8ByteSize

def node? (d : Disk) (p : Place) : Option Node :=
  if isBase p then some .dir else d.nodes.lookup p

def exists? (d : Disk) (p : Place) : Bool := (d.node? p).isSome

def isDir (d : Disk) (p : Place) : Bool :=
  match d.node? p with
  | some .dir => true
  | _ => false

def file? (d : Disk) (p : Place) : Option ByteArray :=
  match d.node? p with
  | some (.file c) => some c
  | _ => none

def put (d : Disk) (p : Place) (n : Node) : Disk := ⟨(p, n) :: d.nodes.filter (·.1 != p)⟩

def drop (d : Disk) (p : Place) : Disk := ⟨d.nodes.filter (·.1 != p)⟩

/-- Why a node below `p`'s directory cannot be reached: something on the way is missing or a file. -/
def wayFault (d : Disk) (p : Place) : DiskFault :=
  if (List.range p.length).any fun n => (d.file? (p.take n)).isSome then .notDirectory else .missing

def read (d : Disk) (p : Place) : Except DiskFault ByteArray :=
  match d.node? p with
  | some (.file c) => .ok c
  | some .dir => .error .isDirectory
  | none => .error (d.wayFault p)

def write (d : Disk) (p : Place) (c : ByteArray) : Except DiskFault Disk :=
  if d.isDir p then .error .isDirectory
  else if !d.isDir p.dropLast then .error (d.wayFault p)
  else if p.getLast?.any isLongName then .error .nameTooLong
  else .ok (d.put p (.file c))

def touch (d : Disk) (p : Place) : Except DiskFault Disk :=
  if (d.file? p).isSome then .ok d else d.write p ByteArray.empty

def remove (d : Disk) (p : Place) : Except DiskFault Disk :=
  match d.node? p with
  | some (.file _) => .ok (d.drop p)
  | some .dir => .error .isDirectory
  | none => .error (d.wayFault p)

def entries (d : Disk) (p : Place) : List String :=
  d.nodes.filterMap fun q =>
    if q.1.dropLast == p && q.1 != [] then q.1.getLast? else none

/-! ## What an operation leaves at the places it does not name -/

theorem lookup_filter_ne {p q : Place} (h : q ≠ p) (ns : List (Place × Node)) :
    (ns.filter (·.1 != p)).lookup q = ns.lookup q := by
  induction ns with
  | nil => rfl
  | cons n ns ih =>
    obtain ⟨r, x⟩ := n
    by_cases hr : r = p
    · have : (q == p) = false := by simpa using h
      simp [hr, List.lookup_cons, this, ih]
    · have hb : (r != p) = true := by simpa using hr
      simp only [List.filter, hb, List.lookup_cons, ih]

theorem lookup_filter_self (p : Place) (ns : List (Place × Node)) :
    (ns.filter (·.1 != p)).lookup p = none := by
  induction ns with
  | nil => rfl
  | cons n ns ih =>
    obtain ⟨r, x⟩ := n
    by_cases hr : r = p
    · simp [hr, ih]
    · have hb : (r != p) = true := by simpa using hr
      have he : (p == r) = false := by simpa using fun e : p = r => hr e.symm
      simp only [List.filter, hb, List.lookup_cons, he, ih]

@[simp] theorem node?_put_ne (d : Disk) (n : Node) {p q : Place} (h : q ≠ p) :
    (d.put p n).node? q = d.node? q := by
  have : (q == p) = false := by simpa using h
  simp [node?, put, List.lookup_cons, this, lookup_filter_ne h]

@[simp] theorem node?_drop_ne (d : Disk) {p q : Place} (h : q ≠ p) :
    (d.drop p).node? q = d.node? q := by
  simp [node?, drop, lookup_filter_ne h]

theorem node?_put_self (d : Disk) (n : Node) {p : Place} (h : isBase p = false) :
    (d.put p n).node? p = some n := by
  simp [node?, put, h]

theorem node?_drop_self (d : Disk) {p : Place} (h : isBase p = false) :
    (d.drop p).node? p = none := by
  simp [node?, drop, h, lookup_filter_self]

end Disk

end Boardwalk
