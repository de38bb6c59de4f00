import Boardwalk.Board.Basic
import Boardwalk.Exchange
/-!
# Expressions

A small language for the code of boards, so that a whole board can be written down in Json. An expression
is an object whose first key names an operation. Expressions look at the journal, the context and the disk, and
count their own evaluations by tags; they change nothing else.
-/

namespace Boardwalk.Script

inductive Expression where
  | literal (j : Json)
  | context (keys : List String)
  | lookup (target : Option Target) (field : Option String)
  | previous (field : Option String)
  | length
  | current
  | history
  /-- How often a tag has been counted, this time included. -/
  | count (tag : String)
  /-- The values in turn, the last one for good. -/
  | sequence (tag : String) (values : List Json)
  /-- Fails a number of times before it has a value. -/
  | failing (tag : String) (times : Int) (fault : Fault) (later : Expression)
  | file (path : String)
  | less (a b : Expression)
  | same (a b : Expression)
  | negation (a : Expression)
  | object (fields : List (String × Expression))
  | list (items : List Expression)
  | row (items : List Expression)
  | constant (v : Value)
  | bad (complaint : String)

/-! ## Reading expressions -/

def string? : Json → Option String
  | .str s => some s
  | _ => none

def stringOf (j : Json) : String := (string? j).getD ""

def itemsOf : Json → List Json
  | .arr xs => xs
  | _ => []

def intOf (j : Json) : Int := ((Value.ofJson j).wholeNumber?).getD 0

def targetOf? : Json → Option Target
  | .int n => some (.position n)
  | .str s => some (.name s)
  | _ => none

def Expression.ofLeaf (op : String) (a : Json) (rest : List (String × Json)) : Expression :=
  match op with
  | "lit" => .literal a
  | "ctx" => .context ((itemsOf a).map stringOf)
  | "get" => .lookup (targetOf? a) ((rest.lookup "field").bind string?)
  | "prev" => .previous (string? a)
  | "len" => .length
  | "current" => .current
  | "history" => .history
  | "count" => .count (stringOf a)
  | "seq" => .sequence (stringOf a) (((rest.lookup "values").map itemsOf).getD [])
  | "file" => .file (stringOf a)
  | "bytes" => .constant (.bytes (Text.ofHex (stringOf a)))
  | "float" => .constant (.float (Value.floatNamed (stringOf a)))
  | "opaque" => .constant .foreign
  | op => .bad ("bad expression " ++ op)

/-- What a failing expression raises, by its tag and the fields that come with it. -/
abbrev Failures := String → List (String × Json) → Fault

mutual

def Expression.ofJson (fs : Failures) : Json → Expression
  | .obj (("obj", .obj es) :: _) => .object (fieldsOfJson fs es)
  | .obj (("list", .arr xs) :: _) => .list (itemsOfJson fs xs)
  | .obj (("tuple", .arr xs) :: _) => .row (itemsOfJson fs xs)
  | .obj (("lt", .arr [a, b]) :: _) => .less (ofJson fs a) (ofJson fs b)
  | .obj (("eq", .arr [a, b]) :: _) => .same (ofJson fs a) (ofJson fs b)
  | .obj (("not", a) :: _) => .negation (ofJson fs a)
  | .obj (("fail", tag) :: rest) =>
    .failing (stringOf tag) (intOf ((rest.lookup "times").getD .null)) (fs (stringOf tag) rest)
      (laterOfJson fs rest)
  | .obj ((op, a) :: rest) => .ofLeaf op a rest
  | _ => .bad "bad expression"

def Expression.itemsOfJson (fs : Failures) : List Json → List Expression
  | [] => []
  | x :: xs => ofJson fs x :: itemsOfJson fs xs

def Expression.fieldsOfJson (fs : Failures) : List (String × Json) → List (String × Expression)
  | [] => []
  | (k, x) :: es => (k, ofJson fs x) :: fieldsOfJson fs es

def Expression.laterOfJson (fs : Failures) : List (String × Json) → Expression
  | [] => .bad "bad expression"
  | (k, x) :: es => if k = "then" then ofJson fs x else laterOfJson fs es

end

/-! ## Evaluation -/

abbrev Counts := List (String × Nat)

structure Scope where
  view : Option View
  context : Value
  disk : Disk

abbrev Eval (α : Type) := Counts → Except Fault α × Counts

def tally (tag : String) (c : Counts) : Nat × Counts :=
  let n := (c.lookup tag).getD 0 + 1
  (n, Json.put tag n c)

def Scope.viewFor (s : Scope) (part : String) : Except Fault View :=
  match s.view with
  | some v => .ok v
  | none => .error (.noView part)

def Scope.length (s : Scope) : Except Fault Value :=
  match s.view with
  | some v => .ok (.int v.records.length)
  | none => .error .noLength

def recordField (r : Record) : Option String → Except Fault Value
  | none => .ok r.toValue
  | some "index" => .ok r.index
  | some "name" => .ok (.str r.name)
  | some "type" => .ok (.str r.kind)
  | some "output" => .ok r.output
  | some "completed" => .ok r.completed
  | some "frameIndex" => .ok r.frameIndex
  | some f => .error (.noField f)

def lookupIn (v : View) (target : Option Target) (field : Option String) : Except Fault Value := do
  let found ← match target with
    | some t => v.record? t
    | none => .ok none
  match found with
  | some r => recordField r field
  | none => return .null

/-- Follows keys into objects; a step that fails leads to null. -/
def follow (v : Value) (keys : List String) : Value :=
  keys.foldl (fun v k => match v with
    | .dict fs => (fs.lookup k).getD .null
    | _ => .null) v

def floatOf? : Value → Option Float
  | .float x => some x
  | v => v.wholeNumber?.map Number.ofInt

def isLess (a b : Value) : Except Fault Bool :=
  match a.wholeNumber?, b.wholeNumber? with
  | some m, some n => .ok (m < n)
  | _, _ =>
    match floatOf? a, floatOf? b with
    | some x, some y => .ok (x < y)
    | _, _ =>
      match a, b with
      | .str s, .str t => .ok (s < t)
      | _, _ => .error (.notComparable a.kindWord b.kindWord)

mutual

def sortKeys : Json → Json
  | .arr xs => .arr (sortKeysItems xs)
  | .obj fs => .obj ((sortKeysFields fs).foldr Disk.insertByKey [])
  | j => j

def sortKeysItems : List Json → List Json
  | [] => []
  | x :: xs => sortKeys x :: sortKeysItems xs

def sortKeysFields : List (String × Json) → List (String × Json)
  | [] => []
  | (k, x) :: fs => (k, sortKeys x) :: sortKeysFields fs

end

/-- Equal in Json, whatever the order of the keys. -/
def haveSameForm (a b : Value) : Bool := (sortKeys a.tagged).line == (sortKeys b.tagged).line

mutual

def Expression.eval (s : Scope) : Expression → Eval Value
  | .literal j, c => (Value.ofTagged j, c)
  | .context keys, c => (.ok (follow s.context keys), c)
  | .lookup target field, c => (do lookupIn (← s.viewFor "get_frame") target field, c)
  | .previous field, c => (do recordField (← s.viewFor "prev_frame").previous field, c)
  | .length, c => (s.length, c)
  | .current, c => (do return .int (← s.viewFor "current_frame").current, c)
  | .history, c => (do return .list ((← s.viewFor "list").records.map fun r => .str r.name), c)
  | .count tag, c =>
    let (n, c) := tally tag c
    (.ok (.int n), c)
  | .sequence tag values, c =>
    let (n, c) := tally tag c
    (Value.ofTagged ((values[n - 1]?).getD (values.getLast?.getD .null)), c)
  | .failing tag times fault later, c =>
    let (n, c) := tally tag c
    if (n : Int) ≤ times then (.error fault, c) else later.eval s c
  | .file path, c =>
    (.ok (match s.disk.nodeAt (Location.ofText path) with
      | .ok (some n) => .ofJson n.tagged
      | _ => .null), c)
  | .less a b, c =>
    match a.eval s c with
    | (.error f, c) => (.error f, c)
    | (.ok x, c) =>
      match b.eval s c with
      | (.error f, c) => (.error f, c)
      | (.ok y, c) => ((isLess x y).map .bool, c)
  | .same a b, c =>
    match a.eval s c with
    | (.error f, c) => (.error f, c)
    | (.ok x, c) =>
      match b.eval s c with
      | (.error f, c) => (.error f, c)
      | (.ok y, c) => (.ok (.bool (haveSameForm x y)), c)
  | .negation a, c =>
    let (r, c) := a.eval s c
    (r.map fun v => .bool !v.truth, c)
  | .object fields, c =>
    let (r, c) := evalFields s fields c
    (r.map .dict, c)
  | .list items, c =>
    let (r, c) := evalItems s items c
    (r.map .list, c)
  | .row items, c =>
    let (r, c) := evalItems s items c
    (r.map .row, c)
  | .constant v, c => (.ok v, c)
  | .bad text, c => (.error (.nonsense text), c)

def Expression.evalItems (s : Scope) : List Expression → Eval (List Value)
  | [], c => (.ok [], c)
  | e :: es, c =>
    match e.eval s c with
    | (.error f, c) => (.error f, c)
    | (.ok v, c) =>
      let (r, c) := evalItems s es c
      (r.map (v :: ·), c)

def Expression.evalFields (s : Scope) : List (String × Expression) → Eval (List (String × Value))
  | [], c => (.ok [], c)
  | (k, e) :: es, c =>
    match e.eval s c with
    | (.error f, c) => (.error f, c)
    | (.ok v, c) =>
      let (r, c) := evalFields s es c
      (r.map ((k, v) :: ·), c)

end

end Boardwalk.Script
