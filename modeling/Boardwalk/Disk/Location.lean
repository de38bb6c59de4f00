import Boardwalk.Text.Blank
/-!
# Locations

A location is written as names between slashes. Single dots and empty names say nothing and are dropped;
two slashes at the front, but not more, differ from one.
-/

namespace Boardwalk

structure Location where
  root : List Char
  names : List (List Char)
  deriving DecidableEq, Inhabited

/-- The way from the working directory, or from the root of all files, to a place. Pairs of dots stand only at
its front. -/
abbrev Place := List String

namespace Place

def up (p : Place) : Place :=
  match p.getLast? with
  | none => [".."]
  | some n => if n = ".." then p ++ [".."] else if n = "/" then p else p.dropLast

def enter (p : Place) (name : String) : Place := if name = ".." then p.up else p ++ [name]

end Place

namespace Location

def rootOf (cs : List Char) : List Char :=
  match cs.takeWhile (· = '/') with
  | [] => []
  | ['/', '/'] => ['/', '/']
  | _ => ['/']

def ofText (s : String) : Location :=
  let cs := s.toList
  ⟨rootOf cs, (Text.splitAt '/' cs).filter fun n => n != [] && n != ['.']⟩

def text (l : Location) : String :=
  match l.root, l.names with
  | [], [] => "."
  | r, ns => String.ofList (r ++ Text.joinWith ['/'] ns)

def child (l : Location) (name : String) : Location := ⟨l.root, l.names ++ [name.toList]⟩

def parent (l : Location) : Location := ⟨l.root, l.names.dropLast⟩

def start (l : Location) : Place := if l.root.isEmpty then [] else ["/"]

def way (l : Location) : List String := l.names.map String.ofList

/-- The place that a location denotes when every name before a pair of dots is a directory. -/
def place (l : Location) : Place := l.way.foldl Place.enter l.start

def ofPlace : Place → Location
  | "/" :: names => ⟨['/'], names.map String.toList⟩
  | names => ⟨[], names.map String.toList⟩

/-- The text of the full location, where `base` is the text of the working directory. -/
def fullText (base : String) (l : Location) : String :=
  if l.root.isEmpty then "/".intercalate (base :: l.way) else l.text

end Location

end Boardwalk
