import Boardwalk.Json.Basic
/-!
# Values

What the code of a board hands around and journals. A value may hold more than Json can write: raw bytes,
fixed rows, journal records and things without any text. `Value.normal` is its Json form in the journal.
-/

namespace Boardwalk

inductive Value where
  | null
  | bool (b : Bool)
  | int (n : Int)
  | float (x : Float)
  | str (s : String)
  | bytes (b : ByteArray)
  | list (items : List Value)
  | row (items : List Value)
  | dict (fields : List (String × Value))
  | record (index : Value) (name kind : String) (output completed frameIndex : Value)
  | foreign
  deriving Inhabited

inductive DumpFault where
  | undecodable
  | foreign
  | tooDeep
  deriving DecidableEq, Inhabited

namespace Value

def truth : Value → Bool
  | .null => false
  | .bool b => b
  | .int n => n != 0
  | .float x => match Number.parts? x with
    | some p => p.digits != 0
    | none => true
  | .str s => s != ""
  | .bytes b => b.size != 0
  | .list xs => !xs.isEmpty
  | .row xs => !xs.isEmpty
  | .dict fs => !fs.isEmpty
  | .record .. => true
  | .foreign => true

def isRecord : Value → Bool
  | .record .. => true
  | _ => false

mutual

def ofJson : Json → Value
  | .null => .null
  | .bool b => .bool b
  | .int n => .int n
  | .float x => .float x
  | .str s => .str s
  | .arr xs => .list (ofJsonItems xs)
  | .obj fs => .dict (ofJsonFields fs)

def ofJsonItems : List Json → List Value
  | [] => []
  | x :: xs => ofJson x :: ofJsonItems xs

def ofJsonFields : List (String × Json) → List (String × Value)
  | [] => []
  | (k, x) :: fs => (k, ofJson x) :: ofJsonFields fs

end

/-- The Json form of a number in the journal; a truth value counts as 0 or 1. -/
def number? : Value → Option Json
  | .bool b => some (.int (if b then 1 else 0))
  | .int n => some (.int n)
  | _ => none

mutual

/-- The Json form in the journal: rows are arrays, bytes are texts, records are objects, and the numbers
without digits are null. -/
def form : Value → Except DumpFault Json
  | .null => .ok .null
  | .bool b => .ok (.bool b)
  | .int n => .ok (.int n)
  | .float x => .ok (if Number.isFinite x then .float x else .null)
  | .str s => .ok (.str s)
  | .bytes b => match String.fromUTF8? b with
    | some s => .ok (.str s)
    | none => .error .undecodable
  | .list xs => do return .arr (← formItems xs)
  | .row xs => do return .arr (← formItems xs)
  | .dict fs => do return .obj (← formFields fs)
  | .record index name kind output completed frameIndex => do
    return .obj [("index", (number? index).getD (← form index)), ("name", .str name),
      ("type", .str kind), ("output", ← form output), ("completed", ← form completed),
      ("frameIndex", (number? frameIndex).getD (← form frameIndex))]
  | .foreign => .error .foreign

def formItems : List Value → Except DumpFault (List Json)
  | [] => .ok []
  | x :: xs => do return (← form x) :: (← formItems xs)

def formFields : List (String × Value) → Except DumpFault (List (String × Json))
  | [] => .ok []
  | (k, x) :: fs => do return (k, ← form x) :: (← formFields fs)

end

/-- How many containers of an output may be nested. -/
def dumpLimit : Nat := 254

/-- A Json form that is nested no deeper than a limit. -/
def bounded (limit : Nat) (j : Json) : Except DumpFault Json :=
  if j.nesting ≤ limit then .ok j else .error .tooDeep

/-- The Json form in the journal, unless it is nested too deep. -/
def normal (v : Value) : Except DumpFault Json := v.form >>= bounded dumpLimit

theorem bind_bounded_iff {form : Except DumpFault Json} {limit : Nat} {j : Json} :
    form >>= bounded limit = .ok j ↔ form = .ok j ∧ j.nesting ≤ limit := by
  cases form with
  | error f => simp [bind, Except.bind]
  | ok j' =>
    simp only [bind, Except.bind, bounded]
    constructor
    · intro h
      split at h
      · cases h
        exact ⟨rfl, ‹_›⟩
      · cases h
    · rintro ⟨h, hn⟩
      cases h
      rw [if_pos hn]

theorem normal_iff {v : Value} {j : Json} : v.normal = .ok j ↔ v.form = .ok j ∧ j.nesting ≤ dumpLimit :=
  bind_bounded_iff

mutual

/-- The Json text form of a value that is written as it stands; only rows are turned into arrays. -/
def plain? : Value → Option Json
  | .null => some .null
  | .bool b => some (.bool b)
  | .int n => some (.int n)
  | .float x => some (.float x)
  | .str s => some (.str s)
  | .list xs => do return .arr (← plainItems? xs)
  | .row xs => do return .arr (← plainItems? xs)
  | .dict fs => do return .obj (← plainFields? fs)
  | .bytes _ | .record .. | .foreign => none

def plainItems? : List Value → Option (List Json)
  | [] => some []
  | x :: xs => do return (← plain? x) :: (← plainItems? xs)

def plainFields? : List (String × Value) → Option (List (String × Json))
  | [] => some []
  | (k, x) :: fs => do return (k, ← plain? x) :: (← plainFields? fs)

end

/-- The whole number of an index; truth values count as 0 and 1. -/
def wholeNumber? : Value → Option Int
  | .int n => some n
  | .bool b => some (if b then 1 else 0)
  | _ => none

def isNull : Value → Bool
  | .null => true
  | _ => false

end Value

end Boardwalk
