import Boardwalk.Json.Basic
import Boardwalk.Number.Numeral
import Boardwalk.Text.Encoding
/-!
# Reading Json text

Reads one value and nothing after it but gaps. Besides the standard grammar the three words `NaN`,
`Infinity` and `-Infinity` are numbers. Of two fields with one key the later value counts. Containers may be nested
only so deep.
-/

namespace Boardwalk.Json

def isGap (c : Char) : Bool := c = ' ' || c = '\t' || c = '\n' || c = '\r'

def skipGaps (cs : List Char) : List Char := cs.dropWhile isGap

def digit? (c : Char) : Option Nat :=
  if '0' ≤ c && c ≤ '9' then some (c.toNat - 48) else none

def hex? (c : Char) : Option Nat :=
  if '0' ≤ c && c ≤ '9' then some (c.toNat - 48)
  else if 'a' ≤ c && c ≤ 'f' then some (c.toNat - 87)
  else if 'A' ≤ c && c ≤ 'F' then some (c.toNat - 55)
  else none

def hex4? (a b c d : Char) : Option Nat := do
  return (((← hex? a) * 16 + (← hex? b)) * 16 + (← hex? c)) * 16 + (← hex? d)

def escaped? (c : Char) : Option Char :=
  if c = '"' then some '"'
  else if c = '\\' then some '\\'
  else if c = '/' then some '/'
  else if c = 'b' then some (Char.ofNat 8)
  else if c = 'f' then some (Char.ofNat 12)
  else if c = 'n' then some '\n'
  else if c = 'r' then some '\r'
  else if c = 't' then some '\t'
  else none

/-- What a number of four digits stands for: a character, or half of a pair. -/
def ofUnit (n : Nat) : Char := if 0xd800 ≤ n && n < 0xe000 then Text.half (n - 0xd800) else Char.ofNat n

def readString : List Char → Option (List Char × List Char)
  | [] => none
  | '"' :: rest => some ([], rest)
  | '\\' :: 'u' :: a :: b :: c :: d :: '\\' :: 'u' :: a' :: b' :: c' :: d' :: rest =>
    match hex4? a b c d, hex4? a' b' c' d' with
    | some n, some n' =>
      -- the two halves of a pair make one character
      if 0xd800 ≤ n && n < 0xdc00 && 0xdc00 ≤ n' && n' < 0xe000 then do
        let r ← readString rest
        return (Char.ofNat (0x10000 + (n - 0xd800) * 0x400 + (n' - 0xdc00)) :: r.1, r.2)
      else do
        let r ← readString ('\\' :: 'u' :: a' :: b' :: c' :: d' :: rest)
        return (ofUnit n :: r.1, r.2)
    | _, _ => none
  | '\\' :: 'u' :: a :: b :: c :: d :: rest => do
    let n ← hex4? a b c d
    let r ← readString rest
    return (ofUnit n :: r.1, r.2)
  | '\\' :: e :: rest => do
    let x ← escaped? e
    let r ← readString rest
    return (x :: r.1, r.2)
  | c :: rest =>
    if c = '\\' || c.toNat < 32 then none else do
      let r ← readString rest
      return (c :: r.1, r.2)

def spanDigits : List Char → List Char × List Char
  | [] => ([], [])
  | c :: cs =>
    if (digit? c).isSome then
      let r := spanDigits cs
      (c :: r.1, r.2)
    else ([], c :: cs)

def ofDigits (ds : List Char) : Nat := ds.foldl (fun n c => 10 * n + (c.toNat - 48)) 0

def readWhole : List Char → Option (List Char × List Char)
  | '0' :: rest => some (['0'], rest)
  | cs =>
    match spanDigits cs with
    | ([], _) => none
    | r => some r

def readFraction : List Char → List Char × List Char
  | '.' :: rest =>
    match spanDigits rest with
    | ([], _) => ([], '.' :: rest)
    | r => r
  | cs => ([], cs)

def readExponent : List Char → Option Int × List Char
  | e :: rest =>
    if e = 'e' || e = 'E' then
      let (sign, body) : Int × List Char := match rest with
        | '-' :: r => (-1, r)
        | '+' :: r => (1, r)
        | r => (1, r)
      match spanDigits body with
      | ([], _) => (none, e :: rest)
      | (ds, r) => (some (sign * ofDigits ds), r)
    else (none, e :: rest)
  | [] => (none, [])

inductive Container where
  | array
  | object
  deriving DecidableEq, Inhabited

inductive Flaw where
  | malformed
  | longNumeral (digits : Nat)
  /-- A container opens inside as many others as the reader can keep in mind. -/
  | tooDeep (c : Container)
  deriving DecidableEq, Inhabited

def wellFormed {α : Type} : Option α → Except Flaw α
  | some a => .ok a
  | none => .error .malformed

/-- A number without its sign. With a fraction or an exponent it is a floating point number. -/
def readNumber (negative : Bool) (cs : List Char) : Except Flaw (Json × List Char) := do
  let (whole, r₁) ← wellFormed (readWhole cs)
  let (fraction, r₂) := readFraction r₁
  let (exponent, r₃) := readExponent r₂
  if fraction.isEmpty && exponent.isNone then
    let n : Int := ofDigits whole
    if Number.numeralLimit < whole.length then .error (.longNumeral whole.length)
    else .ok (.int (if negative then -n else n), r₃)
  else
    let e := exponent.getD 0 - fraction.length
    .ok (.float (Number.ofDecimal negative (ofDigits (whole ++ fraction)) e), r₃)

/-- How many containers may be open at a time. -/
def depthLimit : Nat := 988

mutual

/-- Reads a value where so many containers may still open. -/
def readValue : Nat → Nat → List Char → Except Flaw (Json × List Char)
  | 0, _, _ => .error .malformed
  | fuel + 1, room, cs =>
    match cs with
    | '"' :: r => (wellFormed (readString r)).map fun p => (.str (String.ofList p.1), p.2)
    | '[' :: r =>
      if room = 0 then .error (.tooDeep .array)
      else match skipGaps r with
        | ']' :: r' => .ok (.arr [], r')
        | r' => (readItems fuel (room - 1) r').map fun p => (.arr p.1, p.2)
    | '{' :: r =>
      if room = 0 then .error (.tooDeep .object)
      else match skipGaps r with
        | '}' :: r' => .ok (.obj [], r')
        | r' => (readFields fuel (room - 1) r' []).map fun p => (.obj p.1, p.2)
    | 'n' :: 'u' :: 'l' :: 'l' :: r => .ok (.null, r)
    | 't' :: 'r' :: 'u' :: 'e' :: r => .ok (.bool true, r)
    | 'f' :: 'a' :: 'l' :: 's' :: 'e' :: r => .ok (.bool false, r)
    | 'N' :: 'a' :: 'N' :: r => .ok (.float Number.notANumber, r)
    | 'I' :: 'n' :: 'f' :: 'i' :: 'n' :: 'i' :: 't' :: 'y' :: r => .ok (.float (Number.infinity false), r)
    | '-' :: 'I' :: 'n' :: 'f' :: 'i' :: 'n' :: 'i' :: 't' :: 'y' :: r =>
      .ok (.float (Number.infinity true), r)
    | '-' :: r => readNumber true r
    | r => readNumber false r

def readItems : Nat → Nat → List Char → Except Flaw (List Json × List Char)
  | 0, _, _ => .error .malformed
  | fuel + 1, room, cs => do
    let (x, r) ← readValue fuel room cs
    match skipGaps r with
    | ']' :: r' => .ok ([x], r')
    | ',' :: r' => (readItems fuel room (skipGaps r')).map fun p => (x :: p.1, p.2)
    | _ => .error .malformed

def readFields : Nat → Nat → List Char → List (String × Json) →
    Except Flaw (List (String × Json) × List Char)
  | 0, _, _, _ => .error .malformed
  | fuel + 1, room, cs, fields =>
    match cs with
    | '"' :: r => do
      let (k, r₁) ← wellFormed (readString r)
      match skipGaps r₁ with
      | ':' :: r₂ => do
        let (x, r₃) ← readValue fuel room (skipGaps r₂)
        let fields := put (String.ofList k) x fields
        match skipGaps r₃ with
        | '}' :: r₄ => .ok (fields, r₄)
        | ',' :: r₄ => readFields fuel room (skipGaps r₄) fields
        | _ => .error .malformed
      | _ => .error .malformed
    | _ => .error .malformed

end

/-- Each value and each separator takes up at least one character, so the length bounds the steps. -/
def parseChars (cs : List Char) : Except Flaw Json := do
  let (x, r) ← readValue (2 * cs.length + 1) depthLimit (skipGaps cs)
  if (skipGaps r).isEmpty then .ok x else .error .malformed

def parse (s : String) : Except Flaw Json := parseChars s.toList

end Boardwalk.Json
