import Boardwalk.Number.Reading
import Boardwalk.Fault
/-!
# Lax reading of fields

A field of a record or of the settings accepts its own kind of value and what stands for one without
doubt: a text that reads as a number, a number that is 0 or 1 for a truth value, bytes that are a text.
Otherwise the answer is the kind of defect.
-/

namespace Boardwalk.Schema

abbrev Reading (α : Type) := Except String α

def text : Value → Reading String
  | .str s => .ok s
  | .bytes b => match String.fromUTF8? b with
    | some s => .ok s
    | none => .error "string_unicode"
  | _ => .error "string_type"

def intOfWord (s : String) : Reading Int :=
  match Number.intOfText s with
  | .ok n => .ok n
  | .error .malformed => .error "int_parsing"
  | .error (.tooLong _) => .error "int_parsing_size"

def isSmall (n : Int) : Bool := -(Number.twoTo 63 : Int) ≤ n && n < Number.twoTo 63

def whole : Value → Reading Int
  | .int n => .ok n
  | .bool b => .ok (if b then 1 else 0)
  | .float x =>
    if !Number.isFinite x then .error "finite_number"
    else match Number.toInt? x with
      | none => .error "int_from_float"
      | some n =>
        if isSmall n && n != -(Number.twoTo 63 : Int) then .ok n else .error "int_parsing_size"
  | .str s => intOfWord s
  | .bytes b => match String.fromUTF8? b with
    | some s => intOfWord s
    | none => .error "int_parsing"
  | _ => .error "int_type"

def truthOfInt (n : Int) : Reading Bool :=
  if n = 0 then .ok false else if n = 1 then .ok true else .error "bool_parsing"

def truthOfWord (s : String) : Reading Bool :=
  match Number.boolOfText? s with
  | some b => .ok b
  | none => .error "bool_parsing"

/-- A number that is not small is of the wrong kind, rather than neither 0 nor 1. -/
def truth : Value → Reading Bool
  | .bool b => .ok b
  | .int n => if isSmall n then truthOfInt n else .error "bool_type"
  | .float x => match whole (.float x) with
    | .ok n => truthOfInt n
    | .error _ => .error "bool_type"
  | .str s => truthOfWord s
  | .bytes b => match String.fromUTF8? b with
    | some s => truthOfWord s
    | none => .error "bool_parsing"
  | _ => .error "bool_type"

def floatOfWord (s : String) : Reading Float :=
  match Number.floatOfText? s with
  | some x => .ok x
  | none => .error "float_parsing"

def number : Value → Reading Float
  | .float x => .ok x
  | .int n =>
    let x := Number.ofInt n
    if Number.isFinite x then .ok x else .error "float_type"
  | .bool b => .ok (Number.ofInt (if b then 1 else 0))
  | .str s => floatOfWord s
  | .bytes b => match String.fromUTF8? b with
    | some s => floatOfWord s
    | none => .error "float_parsing"
  | _ => .error "float_type"

/-! ## Reading several fields

All fields are read, and the defects of all of them are reported in the order of the fields. -/

/-- A value together with the defects found so far. -/
inductive Checked (α : Type) where
  | good (a : α)
  | bad (issues : List Issue)

namespace Checked

def issues {α : Type} : Checked α → List Issue
  | .good _ => []
  | .bad is => is

def both {α β : Type} : Checked α → Checked β → Checked (α × β)
  | .good a, .good b => .good (a, b)
  | x, y => .bad (x.issues ++ y.issues)

def map {α β : Type} (f : α → β) : Checked α → Checked β
  | .good a => .good (f a)
  | .bad is => .bad is

def below {α : Type} (s : Step) : Checked α → Checked α
  | .good a => .good a
  | .bad is => .bad (is.map fun i => ⟨s :: i.path, i.kind⟩)

def toExcept {α : Type} : Checked α → Except Fault α
  | .good a => .ok a
  | .bad is => .error (.invalid is)

def items {α : Type} (check : Value → Checked α) : Nat → List Value → Checked (List α)
  | _, [] => .good []
  | n, v :: vs =>
    (((check v).below (.item n)).both (items check (n + 1) vs)).map fun p => p.1 :: p.2

end Checked

def atField {α : Type} (name : String) (r : Reading α) : Checked α :=
  match r with
  | .ok a => .good a
  | .error kind => .bad [⟨[.field name], kind⟩]

def required {α : Type} (read : Value → Reading α) (name : String)
    (fields : List (String × Value)) : Checked α :=
  match fields.lookup name with
  | some v => atField name (read v)
  | none => .bad [⟨[.field name], "missing"⟩]

def optional {α : Type} (read : Value → Reading α) (name : String) (default : α)
    (fields : List (String × Value)) : Checked α :=
  match fields.lookup name with
  | some v => atField name (read v)
  | none => .good default

end Boardwalk.Schema
