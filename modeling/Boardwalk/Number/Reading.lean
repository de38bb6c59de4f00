import Boardwalk.Number.Binary
import Boardwalk.Number.Numeral
import Boardwalk.Text.Blank
/-!
# Numbers in texts

How settings and journals read numbers and truth values from texts: blanks around a number do not count,
single underscores may stand between digits, and a whole number may have zeros after a point.
-/

namespace Boardwalk.Number

def dropUnderscores? (cs : List Char) : Option (List Char) :=
  let pieces := Text.splitAt '_' cs
  if pieces.length = 1 || pieces.any (·.isEmpty) then none else some pieces.flatten

def splitSign : List Char → Bool × List Char
  | '-' :: cs => (true, cs)
  | '+' :: cs => (false, cs)
  | cs => (false, cs)

def readExponent? : List Char → Option Int
  | [] => some 0
  | e :: cs =>
    if e = 'e' || e = 'E' then
      let (negative, ds) := splitSign cs
      if ds.isEmpty || !ds.all isDigit then none
      else some (if negative then -(digitsValue ds : Int) else digitsValue ds)
    else none

def readDecimal? (negative : Bool) (cs : List Char) : Option Float := do
  let whole := cs.takeWhile isDigit
  let rest := cs.dropWhile isDigit
  let (fraction, rest) := match rest with
    | '.' :: r => (r.takeWhile isDigit, r.dropWhile isDigit)
    | r => ([], r)
  if whole.isEmpty && fraction.isEmpty then none
  let e ← readExponent? rest
  return ofDecimal negative (digitsValue (whole ++ fraction)) (e - fraction.length)

def readFloat? (cs : List Char) : Option Float :=
  let (negative, body) := splitSign cs
  let word := body.map Char.toLower
  if word = "inf".toList || word = "infinity".toList then some (infinity negative)
  else if word = "nan".toList then some notANumber
  else readDecimal? negative body

def floatOfText? (s : String) : Option Float :=
  let cs := s.toList
  match readFloat? (Text.trimBy Text.isSpace cs) with
  | some x => some x
  | none => (dropUnderscores? cs).bind readFloat?

/-- Drops a point with nothing but zeros, and at least one, after it. -/
def dropZeroFraction (cs : List Char) : List Char :=
  let whole := cs.takeWhile (· != '.')
  match cs.dropWhile (· != '.') with
  | '.' :: '0' :: zeros => if zeros.all (· = '0') then whole else cs
  | _ => cs

def isLeading (c : Char) : Bool := c = '0' || c = '_'

/-- Drops the zeros, and the underscores among them, in front of a number that starts with a zero. A number
of nothing else keeps its last sign, and a point keeps the one before it. -/
def dropLeadingZeros (cs : List Char) : Option (List Char) :=
  match cs with
  | '0' :: rest =>
    let kept := (rest.takeWhile isLeading).getLastD '0'
    match rest.dropWhile isLeading with
    | [] => some [kept]
    | '.' :: r => some (kept :: '.' :: r)
    | c :: r => if isDigit c || c = '-' then some (c :: r) else none
  | c :: _ => if isDigit c || c = '-' then some cs else none
  | [] => none

/-- Reads a whole number in its plain form: perhaps a minus sign, and digits without needless zeros in front.
The sign does not count for the length. -/
def readWhole (cs : List Char) : Except NumeralFault Int :=
  let (negative, body) : Bool × List Char := match cs with
    | '-' :: r => (true, r)
    | r => (false, r)
  match body.takeWhile isDigit with
  | [] => .error .malformed
  | '0' :: _ => if body = ['0'] then .ok 0 else .error .malformed
  | ds =>
    if numeralLimit < ds.length then .error (.tooLong ds.length)
    else if ds.length < body.length then .error .malformed
    else .ok (if negative then -(digitsValue ds : Int) else digitsValue ds)

/-- The plain form of a whole number that is written with blanks, a plus sign, zeros in front, underscores or
a fraction of zeros. -/
def plainForm (cs : List Char) : Option (List Char) := do
  let (sign, body) : List Char × List Char := match Text.trimBy Text.isSpace cs with
    | '-' :: r => (['-'], r)
    | '+' :: '-' :: _ => ([], [])
    | '+' :: r => ([], r)
    | r => ([], r)
  let body := dropZeroFraction (← dropLeadingZeros body)
  return sign ++ (dropUnderscores? body).getD body

/-- Reads a whole number, in its plain form or another one. Only a text that starts in the plain form is too
long; any other one with too many digits is malformed. -/
def intOfText (s : String) : Except NumeralFault Int :=
  match readWhole s.toList with
  | .error .malformed =>
    match (plainForm s.toList).map readWhole with
    | some (.ok i) => .ok i
    | _ => .error .malformed
  | r => r

def boolOfText? (s : String) : Option Bool :=
  let word := String.ofList (s.toList.map Char.toLower)
  if ["1", "t", "true", "y", "yes", "on"].contains word then some true
  else if ["0", "f", "false", "n", "no", "off"].contains word then some false
  else none

end Boardwalk.Number
