import Boardwalk.Text.Digit
import Boardwalk.Value.Display
import Boardwalk.Fault
import Boardwalk.Text.Blank
/-!
# Choices

A choice is a value that stands for itself, or an object with a name and perhaps a longer message. Choices
are numbered from 1 where the user sees them and have positions from 0 elsewhere.
-/

namespace Boardwalk.Choice

def field (name : String) (fields : List (String × Value)) : Except Fault Value :=
  match fields.lookup name with
  | some v => .ok v
  | none => .error (.noField name)

def name : Value → Except Fault String
  | .dict fields => (field "name" fields).map Value.text
  | v => .ok v.text

/-- What the user sees: the message of an object unless it is empty. -/
def label : Value → Except Fault String
  | .dict fields =>
    match fields.lookup "message" with
    | some m => if m.truth then .ok m.text else (field "name" fields).map Value.text
    | none => (field "name" fields).map Value.text
  | v => .ok v.text

def names : List Value → Except Fault (List String)
  | [] => .ok []
  | c :: cs => do return (← name c) :: (← names cs)

def position (choices : List Value) (initial : Value) : Except Fault (Option Nat) :=
  if initial.isNull then .ok none
  else match initial.wholeNumber? with
    | some n =>
      if 0 ≤ n ∧ n < choices.length then .ok (some n.toNat) else named
    | none => named
where
  named : Except Fault (Option Nat) :=
    (names choices).map fun ns => ns.idxOf? initial.text

def listed (v : Value) : Except Fault (List Value) :=
  if !v.truth then .ok []
  else match v with
    | .list vs => .ok vs
    | .row vs => .ok vs
    | .str s => .ok (s.toList.map fun c => .str (String.singleton c))
    | .dict fields => .ok (fields.map fun f => .str f.1)
    | .bytes b => .ok (b.toList.map fun n => .int n.toNat)
    | v => .error (.notListed v.kindWord)

def positions (choices : List Value) : List Value → Except Fault (List Nat)
  | [] => .ok []
  | v :: vs => do
    let p ← position choices v
    let ps ← positions choices vs
    return p.toList ++ ps

/-- What the parts of an answer pick, after what has been picked already; nothing if a part is no number of
a choice. -/
def pickParts (count : Nat) : List Nat → List (List Char) → Except Fault (Option (List Nat))
  | picked, [] => .ok (some picked)
  | picked, part :: parts =>
    let part := Text.trimBy Text.isBlank part
    if part.isEmpty then pickParts count picked parts
    else if !Text.allDigitSigns part then .ok none
    else match Text.readNumeral part with
      | .error f => .error (.numeral f (String.ofList part))
      | .ok n =>
        if 1 ≤ n ∧ n ≤ count then
          pickParts count (if picked.contains (n - 1) then picked else picked ++ [n - 1]) parts
        else .ok none

/-- The positions that an answer of numbers between commas picks, each once. -/
def parsePositions (answer : String) (count : Nat) : Except Fault (Option (List Nat)) :=
  pickParts count [] (Text.splitAt ',' answer.toList)

end Boardwalk.Choice
