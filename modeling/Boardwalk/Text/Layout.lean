import Boardwalk.Number.Fixed
import Boardwalk.Text.Digit
/-!
# Layouts

How a text or a number is laid out: aligned in a width and filled up, with a sign, with its digits in groups,
and in one of several forms.
-/

namespace Boardwalk.Text

inductive Flaw where
  | loneClose
  | loneOpen
  | openInName
  | noConversion
  | afterConversion
  | unclosedLayout
  | unclosedPlace
  | unknownConversion (c : Char)
  | afterBracket
  | emptyPart
  | unclosedBracket
  | tooManyDigits
  | noPrecision
  | unknownLayout (text kind : String)
  | bothSeparators
  | separator (sep type : Char)
  | space
  | sign
  | zero
  | alternate
  | innerAlignment
  | unknownType (c : Char) (kind : String)
  | wholePrecision
  | wholeZero
  | signOfCharacter
  | alternateCharacter
  | precisionTooBig
  | tooDeep
  deriving DecidableEq

/-- A character in a message, or its number where it does not print. -/
def charWord (c : Char) (limit : Nat) : String :=
  if 32 < c.toNat && c.toNat < limit then String.singleton c
  else "\\x" ++ String.ofList (Nat.toDigits 16 c.toNat)

def Flaw.message : Flaw → String
  | .loneClose => "Single '\x7d' encountered in format string"
  | .loneOpen => "Single '\x7b' encountered in format string"
  | .openInName => "unexpected '\x7b' in field name"
  | .noConversion => "end of string while looking for conversion specifier"
  | .afterConversion => "expected ':' after conversion specifier"
  | .unclosedLayout => "unmatched '\x7b' in format spec"
  | .unclosedPlace => "expected '\x7d' before end of string"
  | .unknownConversion c => "Unknown conversion specifier " ++ charWord c 127
  | .afterBracket => "Only '.' or '[' may follow ']' in format field specifier"
  | .emptyPart => "Empty attribute in format string"
  | .unclosedBracket => "Missing ']' in format string"
  | .tooManyDigits => "Too many decimal digits in format string"
  | .noPrecision => "Format specifier missing precision"
  | .unknownLayout t kind => "Invalid format specifier '" ++ t ++ "' for object of type '" ++ kind ++ "'"
  | .bothSeparators => "Cannot specify both ',' and '_'."
  | .separator sep type =>
    "Cannot specify '" ++ String.singleton sep ++ "' with '" ++ charWord type 128 ++ "'."
  | .space => "Space not allowed in string format specifier"
  | .sign => "Sign not allowed in string format specifier"
  | .zero => "Negative zero coercion (z) not allowed in string format specifier"
  | .alternate => "Alternate form (#) not allowed in string format specifier"
  | .innerAlignment => "'=' alignment not allowed in string format specifier"
  | .unknownType c kind =>
    "Unknown format code '" ++ charWord c 128 ++ "' for object of type '" ++ kind ++ "'"
  | .wholePrecision => "Precision not allowed in integer format specifier"
  | .wholeZero => "Negative zero coercion (z) not allowed in integer format specifier"
  | .signOfCharacter => "Sign not allowed with integer format specifier 'c'"
  | .alternateCharacter => "Alternate form (#) not allowed with integer format specifier 'c'"
  | .precisionTooBig => "precision too big"
  | .tooDeep => "Max string recursion exceeded"

/-! ## Reading layouts -/

/-- Reads digits on after a number; nothing if something else comes before they are too many. -/
def indexAfter : Nat → List Char → Except Flaw (Option Nat)
  | n, [] => .ok (some n)
  | n, c :: cs =>
    match digitValue? c with
    | none => .ok none
    | some v => if 10 * n + v < 0x8000000000000000 then indexAfter (10 * n + v) cs else .error .tooManyDigits

def indexNumeral (cs : List Char) : Except Flaw (Option Nat) :=
  if cs.isEmpty then .ok none else indexAfter 0 cs

def layoutNumber (cs : List Char) : Except Flaw (Option Nat × List Char) := do
  let isDigit (c : Char) : Bool := (digitValue? c).isSome
  let n ← indexNumeral (cs.takeWhile isDigit)
  return (n, cs.dropWhile isDigit)

def takeIf (p : Char → Bool) : List Char → Option Char × List Char
  | [] => (none, [])
  | c :: cs => if p c then (some c, cs) else (none, c :: cs)

def isAlignment (c : Char) : Bool := c = '<' || c = '>' || c = '=' || c = '^'

/-- What fills a layout up and where its text stands, as far as the layout says. -/
def alignmentOf : List Char → (Option Char × Option Char) × List Char
  | f :: a :: cs =>
    if isAlignment a then ((some f, some a), cs)
    else if isAlignment f then ((none, some f), a :: cs)
    else ((none, none), f :: a :: cs)
  | [a] => if isAlignment a then ((none, some a), []) else ((none, none), [a])
  | [] => ((none, none), [])

def separatorsOf (cs : List Char) : Except Flaw (Option Char × List Char) :=
  let (comma, cs) := takeIf (· = ',') cs
  let (low, cs) := takeIf (· = '_') cs
  if comma.isSome && low.isSome then .error .bothSeparators
  else if low.isSome && cs.head? = some ',' then .error .bothSeparators
  else .ok (if low.isSome then low else comma, cs)

structure Layout where
  fill : Char
  align : Char
  sign : Option Char
  zero : Bool
  alternate : Bool
  width : Nat
  separator : Option Char
  precision : Option Nat
  type : Char

/-- Which separators go with which types of numbers; a null character stands for any type. -/
def agree (sep type : Char) : Bool :=
  type.toNat = 0 || (if sep = ',' then "defgEG%F" else "defgEG%FboxX").toList.contains type

/-- Reads a layout for a kind, with the alignment and the type that it has where it does not say. -/
def Layout.read (kind : String) (align type : Char) (layout : List Char) : Except Flaw Layout := do
  let ((fill?, align?), cs) := alignmentOf layout
  let (sign, cs) := takeIf (fun c => c = ' ' || c = '+' || c = '-') cs
  let (zero, cs) := takeIf (· = 'z') cs
  let (alternate, cs) := takeIf (· = '#') cs
  let (pad, cs) := if fill?.isSome then (none, cs) else takeIf (· = '0') cs
  let align := if pad.isSome && align = '>' then align?.getD '=' else align?.getD align
  let (width, cs) ← layoutNumber cs
  let (separator, cs) ← separatorsOf cs
  let (precision, cs) ← match cs with
    | '.' :: cs => do
      let (n, cs) ← layoutNumber cs
      if n.isNone then throw .noPrecision
      pure (n, cs)
    | cs => pure (none, cs)
  let type ← match cs with
    | [] => pure type
    | [c] => pure c
    | _ => throw (.unknownLayout (String.ofList layout) kind)
  match separator with
  | some sep => if !agree sep type then throw (.separator sep type)
  | none => pure ()
  let fill := if pad.isSome then '0' else fill?.getD ' '
  return ⟨fill, align, sign, zero.isSome, alternate.isSome, width.getD 0, separator, precision, type⟩

/-- Fills up to the width. An inner alignment puts what fills between the head and the body. -/
def Layout.fit (l : Layout) (head body : List Char) : List Char :=
  let gap := l.width - (head.length + body.length)
  let fill (n : Nat) : List Char := List.replicate n l.fill
  if l.align = '<' then head ++ body ++ fill gap
  else if l.align = '=' then head ++ fill gap ++ body
  else if l.align = '^' then fill (gap / 2) ++ head ++ body ++ fill (gap - gap / 2)
  else fill gap ++ head ++ body

/-! ## Texts -/

def Layout.ofText (layout : List Char) : Except Flaw Layout := do
  let l ← Layout.read "str" '<' 's' layout
  if l.type != 's' then throw (.unknownType l.type "str")
  match l.sign with
  | some c => throw (if c = ' ' then .space else .sign)
  | none => pure ()
  if l.zero then throw .zero
  if l.alternate then throw .alternate
  if l.align = '=' then throw .innerAlignment
  return l

def Layout.applyText (l : Layout) (value : List Char) : List Char :=
  l.fit [] (match l.precision with
    | some n => value.take n
    | none => value)

/-! ## Whole numbers -/

def wholeTypes : List Char := "bcdoxXn".toList

def decimalTypes : List Char := "eEfFgG%".toList

def Layout.ofNumber (layout : List Char) : Except Flaw Layout := do
  let l ← Layout.read "int" '>' 'd' layout
  if wholeTypes.contains l.type then
    if l.precision.isSome then throw .wholePrecision
    if l.zero then throw .wholeZero
    if l.type = 'c' then
      if l.sign.isSome then throw .signOfCharacter
      if l.alternate then throw .alternateCharacter
  else if decimalTypes.contains l.type then
    if l.precision.any (0x7fffffff < ·) then throw .precisionTooBig
  else throw (.unknownType l.type "int")
  return l

/-- Puts a separator before every `size` digits from the right, given the digits from the right. -/
def groupFrom (size : Nat) (sep : Char) : Nat → List Char → List Char
  | _, [] => []
  | 0, d :: ds => sep :: d :: groupFrom size sep (size - 1) ds
  | left + 1, d :: ds => d :: groupFrom size sep left ds

def grouped (size : Nat) (sep : Char) (ds : List Char) : List Char :=
  (groupFrom size sep size ds.reverse).reverse

/-- The number of digits that fill a width in groups: no group starts with its separator. -/
def digitsFor (size width : Nat) : Nat :=
  let groups := width / (size + 1)
  let rest := width % (size + 1)
  groups * size + (if rest = 0 ∧ 0 < groups then 1 else rest)

/-- The digits of a number in the groups of a layout. Zeros that fill the width are digits too; `taken` is
the width of all else. -/
def Layout.digits (l : Layout) (taken : Nat) (ds : List Char) : List Char :=
  let wanted := if l.fill = '0' && l.align = '=' then l.width - taken else 0
  match l.separator with
  | none => Number.padLeft wanted ds
  | some sep =>
    let size := if "boxX".toList.contains l.type then 4 else 3
    grouped size sep (Number.padLeft (digitsFor size wanted) ds)

def Layout.signChars (l : Layout) (negative : Bool) : List Char :=
  if negative then ['-'] else match l.sign with
    | some '+' => ['+']
    | some ' ' => [' ']
    | _ => []

/-- The mark of the base, if it is asked for, and the base of a type. -/
def Layout.base (l : Layout) : List Char × Nat :=
  let base := if l.type = 'b' then 2 else if l.type = 'o' then 8
    else if l.type = 'x' || l.type = 'X' then 16 else 10
  (if l.alternate && base != 10 then ['0', l.type.toLower] else [], base)

def Layout.applyWhole (l : Layout) (n : Int) : List Char :=
  let (mark, base) := l.base
  let head := l.signChars (n < 0) ++ mark
  let cs := l.digits head.length (Nat.toDigits base n.natAbs)
  if l.type = 'X' then l.fit (head.map Char.toUpper) (cs.map Char.toUpper) else l.fit head cs

def Layout.decimalChars (l : Layout) (n : Int) : List Char :=
  let places := l.precision.getD 6
  let cs := match Number.parts? (Number.ofInt n) with
    | none => []
    | some p => match l.type.toLower with
      | 'e' => p.scientificChars l.alternate places
      | 'g' => p.generalChars l.alternate places
      | 'f' => p.fixedChars l.alternate places
      | _ => match Number.parts? (Number.ofInt (100 * n)) with
        | some p => p.fixedChars l.alternate places ++ ['%']
        | none => []
  if l.type.isUpper then cs.map Char.toUpper else cs

def Layout.applyDecimal (l : Layout) (n : Int) : List Char :=
  let head := l.signChars (n < 0)
  let cs := l.decimalChars n
  let whole := cs.takeWhile Char.isDigit
  let rest := cs.dropWhile Char.isDigit
  l.fit head (l.digits (head.length + rest.length) whole ++ rest)

/-- A whole number in its layout; none for a number of no character. -/
def Layout.applyNumber (l : Layout) (n : Int) : Option (List Char) :=
  if l.type = 'c' then
    if 0 ≤ n && n < 0x110000 then some (l.fit [] [Char.ofNat n.toNat]) else none
  else some (if decimalTypes.contains l.type then l.applyDecimal n else l.applyWhole n)

end Boardwalk.Text
