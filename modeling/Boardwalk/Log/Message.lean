import Boardwalk.Number.Fixed
import Boardwalk.Value.Display
/-!
# Messages with percent places

The message of a log entry may hold places for values. A place is a percent sign, perhaps a name in
parentheses, flags, a width, a precision and a letter for the form of the value. Places without a name take
the values in order.
-/

namespace Boardwalk.Log

inductive MessageFault where
  | tooFew
  | tooMany
  | noFields
  | openName
  | noField (name : String)
  | starNotWhole
  | starTooLarge (limit : String)
  | wideWidth
  | widePrecision
  | unfinished
  | unknownForm (c : Char) (position : Nat)
  | notWhole (form : Char) (kind : String)
  | notNumber (form : Char) (kind : String)
  | notReal (kind : String)
  | notChar
  | charOutside
  | notANumber
  | infinite
  | tooLarge
  | tooPrecise
  | tooWide

def MessageFault.message : MessageFault → String
  | .tooFew => "not enough arguments for format string"
  | .tooMany => "not all arguments converted during string formatting"
  | .noFields => "format requires a mapping"
  | .openName => "incomplete format key"
  | .noField n => Text.quoted n
  | .starNotWhole => "* wants int"
  | .starTooLarge limit => "Python int too large to convert to C " ++ limit
  | .wideWidth => "width too big"
  | .widePrecision => "precision too big"
  | .unfinished => "incomplete format"
  | .unknownForm c n =>
    "unsupported format character '" ++ String.singleton (if Text.isPlain c || c.toNat = 31 then c else '?')
      ++ "' (0x" ++ String.ofList (Nat.toDigits 16 c.toNat) ++ ") at index " ++ toString n
  | .notWhole f k => "%" ++ String.singleton f ++ " format: an integer is required, not " ++ k
  | .notNumber f k => "%" ++ String.singleton f ++ " format: a real number is required, not " ++ k
  | .notReal k => "must be real number, not " ++ k
  | .notChar => "%c requires int or char"
  | .charOutside => "%c arg not in range(0x110000)"
  | .notANumber => "cannot convert float NaN to integer"
  | .infinite => "cannot convert float infinity to integer"
  | .tooLarge => "int too large to convert to float"
  | .tooPrecise => "precision too large"
  | .tooWide => ""

/-! ## The forms of a value -/

structure Flags where
  left : Bool
  plus : Bool
  blank : Bool
  alternate : Bool
  zero : Bool

structure Place where
  flags : Flags
  width : Nat
  precision : Option Nat
  form : Char

def wholePart (x : Float) : Except MessageFault Int :=
  match Number.parts? x with
  | some p =>
    let (num, den) := p.fraction
    .ok (if p.negative then -((num / den : Nat) : Int) else (num / den : Nat))
  | none => .error (if Number.isNaN x then .notANumber else .infinite)

def signed (negative : Bool) (cs : List Char) : List Char := if negative then '-' :: cs else cs

def wholeChars (p : Place) (n : Int) : List Char :=
  let base := if p.form = 'o' then 8 else if p.form = 'x' || p.form = 'X' then 16 else 10
  let digits := Number.padLeft (p.precision.getD 0) (Nat.toDigits base n.natAbs)
  let mark := if p.flags.alternate && base != 10 then ['0', if base = 8 then 'o' else 'x'] else []
  let cs := signed (n < 0) (mark ++ digits)
  if p.form = 'X' then cs.map Char.toUpper else cs

/-- The most digits that the form of a whole number may be asked for. -/
def digitLimit : Nat := Number.twoTo 31 - 4

def wholeText (p : Place) (n : Int) : Except MessageFault (List Char) :=
  if p.precision.any (digitLimit < ·) then .error .tooPrecise else .ok (wholeChars p n)

def wholeForm (p : Place) (v : Value) : Except MessageFault (List Char) :=
  match v.wholeNumber?, v with
  | some n, _ => wholeText p n
  | none, .float x =>
    if p.form = 'o' || p.form = 'x' || p.form = 'X' then .error (.notWhole p.form v.kindWord)
    else do wholeText p (← wholePart x)
  | none, v =>
    if p.form = 'o' || p.form = 'x' || p.form = 'X' then .error (.notWhole p.form v.kindWord)
    else .error (.notNumber p.form v.kindWord)

def floatChars (p : Place) (x : Float) : List Char :=
  let places := p.precision.getD 6
  let cs := match Number.parts? x with
    | some q =>
      signed q.negative (match p.form.toLower with
        | 'e' => q.scientificChars p.flags.alternate places
        | 'f' => q.fixedChars p.flags.alternate places
        | _ => q.generalChars p.flags.alternate places)
    | none =>
      if Number.isNaN x then ['n', 'a', 'n'] else signed (Number.isNegative x) ['i', 'n', 'f']
  if p.form.isUpper then cs.map Char.toUpper else cs

/-- No floating point number has more significant digits. -/
def significantLimit : Nat := 2000

/-- The most characters that a place may be filled with. -/
def widthLimit : Nat := Number.tenTo 10 - 1

def floatText (p : Place) (x : Float) : Except MessageFault (List Char) :=
  if p.form.toLower = 'g' && !p.flags.alternate then
    .ok (floatChars { p with precision := p.precision.map (min significantLimit) } x)
  else if Number.isFinite x && p.precision.any (Number.tenTo 9 < ·) then .error .tooWide
  else .ok (floatChars p x)

def floatForm (p : Place) (v : Value) : Except MessageFault (List Char) :=
  match v, v.wholeNumber? with
  | .float x, _ => floatText p x
  | _, some n =>
    let x := Number.ofInt n
    if Number.isFinite x then floatText p x else .error .tooLarge
  | v, none => .error (.notReal v.kindWord)

def charForm (v : Value) : Except MessageFault (List Char) :=
  match v, v.wholeNumber? with
  | .str s, _ => if s.length = 1 then .ok s.toList else .error .notChar
  | _, some n => if 0 ≤ n && n < 0x110000 then .ok [Char.ofNat n.toNat] else .error .charOutside
  | _, none => .error .notChar

def plainChars (s : String) : List Char :=
  s.toList.flatMap fun c => if c.toNat < 128 then [c] else Text.escapeByNumber c.toNat

def formed (p : Place) (v : Value) (position : Nat) : Except MessageFault (List Char × Bool) :=
  let cut (s : List Char) : List Char × Bool := (s.take (p.precision.getD s.length), false)
  match p.form with
  | 's' => .ok (cut v.text.toList)
  | 'r' => .ok (cut v.shown.toList)
  | 'a' => .ok (cut (plainChars v.shown))
  | 'c' => (charForm v).map fun cs => (cs, false)
  | c =>
    if ['d', 'i', 'u', 'o', 'x', 'X'].contains c then (wholeForm p v).map fun cs => (cs, true)
    else if ['e', 'E', 'f', 'F', 'g', 'G'].contains c then (floatForm p v).map fun cs => (cs, true)
    else .error (.unknownForm c position)

def markOf (p : Place) : Nat :=
  if p.flags.alternate && (p.form = 'x' || p.form = 'X' || p.form = 'o') then 2 else 0

/-- Fills a value up to the width of its place. Zeros stand between the sign and the digits. -/
def fitted (p : Place) (cs : List Char) (isNumber : Bool) : List Char :=
  let (sign, body) := match isNumber, cs with
    | true, '-' :: rest => (['-'], rest)
    | true, rest => (if p.flags.plus then ['+'] else if p.flags.blank then [' '] else [], rest)
    | false, rest => ([], rest)
  let missing := p.width - (sign.length + body.length)
  if p.flags.left then sign ++ body ++ List.replicate missing ' '
  else if isNumber && p.flags.zero then
    sign ++ body.take (markOf p) ++ List.replicate missing '0' ++ body.drop (markOf p)
  else List.replicate missing ' ' ++ sign ++ body

/-! ## Reading places -/

structure Supply where
  values : List Value
  fields : Option (List (String × Value))
  isLenient : Bool

def Supply.ofValue : Value → Supply
  | .row vs => ⟨vs, none, false⟩
  | .dict fs => ⟨[.dict fs], some fs, true⟩
  | .list vs => ⟨[.list vs], none, true⟩
  | .bytes b => ⟨[.bytes b], none, true⟩
  | v => ⟨[v], none, false⟩

def Supply.next (s : Supply) : Except MessageFault (Value × Supply) :=
  match s.values with
  | v :: vs => .ok (v, { s with values := vs })
  | [] => .error .tooFew

def spanName : Nat → List Char → List Char → Option (List Char × List Char)
  | _, _, [] => none
  | depth, read, c :: cs =>
    if c = ')' then
      match depth with
      | 0 => some (read.reverse, cs)
      | depth + 1 => spanName depth (c :: read) cs
    else spanName (if c = '(' then depth + 1 else depth) (c :: read) cs

def takeName (s : Supply) : List Char → Except MessageFault (Supply × List Char)
  | '(' :: cs =>
    match s.fields with
    | none => .error .noFields
    | some fields =>
      match spanName 0 [] cs with
      | none => .error .openName
      | some (name, rest) =>
        match fields.lookup (String.ofList name) with
        | some v => .ok ({ s with values := [v] }, rest)
        | none => .error (.noField (String.ofList name))
  | cs => .ok (s, cs)

def takeFlags : List Char → Flags → Flags × List Char
  | '-' :: cs, f => takeFlags cs { f with left := true }
  | '+' :: cs, f => takeFlags cs { f with plus := true }
  | ' ' :: cs, f => takeFlags cs { f with blank := true }
  | '#' :: cs, f => takeFlags cs { f with alternate := true }
  | '0' :: cs, f => takeFlags cs { f with zero := true }
  | cs, f => (f, cs)

def takeNumber (limit : Nat) (excess starExcess : MessageFault) (s : Supply) :
    List Char → Except MessageFault (Option Int × Supply × List Char)
  | '*' :: cs => do
    let (v, s) ← s.next
    match v.wholeNumber? with
    | some n =>
      if -(limit : Int) - 1 ≤ n ∧ n ≤ limit then return (some n, s, cs) else throw starExcess
    | none => throw .starNotWhole
  | cs =>
    match cs.takeWhile Char.isDigit with
    | [] => .ok (none, s, cs)
    | ds =>
      let n := ds.foldl (fun n c => 10 * n + (c.toNat - 48)) 0
      if limit < n then .error excess else .ok (some n, s, cs.dropWhile Char.isDigit)

def takePlace (s : Supply) (cs : List Char) : Except MessageFault (Place × Supply × List Char) := do
  let (s, cs) ← takeName s cs
  let (flags, cs) := takeFlags cs ⟨false, false, false, false, false⟩
  let (width, s, cs) ← takeNumber (Number.twoTo 63 - 1) .wideWidth (.starTooLarge "ssize_t") s cs
  let width := width.getD 0
  let flags := if width < 0 then { flags with left := true } else flags
  let (precision, s, cs) ← match cs with
    | '.' :: cs => do
      let (n, s, cs) ← takeNumber (Number.twoTo 31 - 1) .widePrecision (.starTooLarge "int") s cs
      pure (some (n.getD 0).toNat, s, cs)
    | cs => pure (none, s, cs)
  let cs := match cs with
    | c :: rest => if c = 'h' || c = 'l' || c = 'L' then rest else c :: rest
    | [] => []
  match cs with
  | [] => throw .unfinished
  | form :: rest => return (⟨flags, width.natAbs, precision, form⟩, s, rest)

/-- Fills the places; `size` is the length of the whole message. -/
def fillPlaces (size : Nat) : Nat → Supply → List Char → Except MessageFault (List Char)
  | 0, _, cs => .ok cs
  | _ + 1, s, [] => if s.values.isEmpty || s.isLenient then .ok [] else .error .tooMany
  | fuel + 1, s, '%' :: '%' :: cs => do return '%' :: (← fillPlaces size fuel s cs)
  | fuel + 1, s, '%' :: cs => do
    let (p, s, rest) ← takePlace s cs
    let (v, s) ← s.next
    let (body, isNumber) ← formed p v (size - rest.length - 1)
    if widthLimit < p.width then throw .tooWide
    return fitted p body isNumber ++ (← fillPlaces size fuel s rest)
  | fuel + 1, s, c :: cs => do return c :: (← fillPlaces size fuel s cs)

/-- The text of a message with its values. Without values, percent signs stand for themselves. -/
def messageText (message values : Value) : Except MessageFault String :=
  if values.truth then
    let cs := message.text.toList
    (fillPlaces cs.length (cs.length + 1) (Supply.ofValue values) cs).map String.ofList
  else .ok message.text

end Boardwalk.Log
