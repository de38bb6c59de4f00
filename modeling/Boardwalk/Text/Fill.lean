import Boardwalk.Text.Layout
import Boardwalk.Text.Member
/-!
# Messages with places to fill in

A place is written between braces: the name of an argument, then parts of it, a conversion after an
exclamation mark and a layout after a colon. There is one argument, a text. Doubled braces stand for
themselves.
-/

namespace Boardwalk.Text

inductive FillFault where
  | flaw (f : Flaw)
  | noPosition (n : Nat)
  | noArgument (name : String)
  | member (f : MemberFault)
  | noLayout (kind : String)
  | noCharacter
  | tooWide
  deriving DecidableEq

def FillFault.message : FillFault → String
  | .flaw f => f.message
  | .noPosition n =>
    "Replacement index " ++ toString n ++ " out of range for positional args tuple"
  | .noArgument name => quoted name
  | .member f => f.message
  | .noLayout kind => "unsupported format string passed to " ++ kind ++ ".__format__"
  | .noCharacter => "%c arg not in range(0x110000)"
  | .tooWide => ""

/-! ## The pieces of a message -/

structure Place where
  name : List Char
  conversion : Option Char
  layout : List Char

inductive Piece where
  | plain (cs : List Char)
  | place (p : Place)

/-- The name of a place up to the character that ends it. Brackets hide everything up to the closing
one. -/
def scanName : List Char → List Char → Except Flaw (List Char × Char × List Char)
  | [], _ => .error .unclosedPlace
  | c :: cs, name =>
    if c = '{' then .error .openInName
    else if c = '}' || c = ':' || c = '!' then .ok (name, c, cs)
    else if c = '[' then inBrackets cs (name ++ [c])
    else scanName cs (name ++ [c])
where
  inBrackets : List Char → List Char → Except Flaw (List Char × Char × List Char)
    | [], _ => .error .unclosedPlace
    | c :: cs, name =>
      if c = ']' then scanName cs (name ++ [c]) else inBrackets cs (name ++ [c])

/-- The layout up to the brace that closes the place; braces inside it come in pairs. -/
def scanLayout : List Char → Nat → List Char → Except Flaw (List Char × List Char)
  | [], _, _ => .error .unclosedLayout
  | c :: cs, depth, layout =>
    if c = '{' then scanLayout cs (depth + 1) (layout ++ [c])
    else if c = '}' then
      match depth with
      | 0 => .ok (layout, cs)
      | d + 1 => scanLayout cs d (layout ++ [c])
    else scanLayout cs depth (layout ++ [c])

def scanPlace (cs : List Char) : Except Flaw (Place × List Char) := do
  let (name, stop, rest) ← scanName cs []
  if stop = '}' then return (⟨name, none, []⟩, rest)
  else if stop = ':' then
    let (layout, rest) ← scanLayout rest 0 []
    return (⟨name, none, layout⟩, rest)
  else match rest with
    | [] => throw .noConversion
    | [_] => throw .unclosedLayout
    | c :: d :: rest =>
      if d = '}' then return (⟨name, some c, []⟩, rest)
      else if d = ':' then
        let (layout, rest) ← scanLayout rest 0 []
        return (⟨name, some c, layout⟩, rest)
      else throw .afterConversion

def pieces : Nat → List Char → List Piece × Option Flaw
  | 0, _ => ([], none)
  | _, [] => ([], none)
  | fuel + 1, cs =>
    let isBrace (c : Char) : Bool := c = '{' || c = '}'
    let text := cs.takeWhile (!isBrace ·)
    match cs.dropWhile (!isBrace ·) with
    | [] => ([.plain text], none)
    | b :: rest =>
      if rest.head? = some b then
        let r := pieces fuel rest.tail
        (.plain (text ++ [b]) :: r.1, r.2)
      else if b = '}' then ([], some .loneClose)
      else if rest.isEmpty then ([], some .loneOpen)
      else match scanPlace rest with
        | .error f => ([.plain text], some f)
        | .ok (p, rest) =>
          let r := pieces fuel rest
          (.plain text :: .place p :: r.1, r.2)

/-! ## The text of a place -/

def flawed {α : Type} : Except Flaw α → Except FillFault α
  | .ok a => .ok a
  | .error f => .error (.flaw f)

def memberOf : Except MemberFault Part → Except FillFault Part
  | .ok p => .ok p
  | .error f => .error (.member f)

def follow : Nat → List Char → Part → Except FillFault Part
  | 0, _, p => .ok p
  | _, [], p => .ok p
  | fuel + 1, c :: cs, p =>
    if c = '.' then
      let isName (d : Char) : Bool := d != '.' && d != '['
      let name := cs.takeWhile isName
      if name.isEmpty then .error (.flaw .emptyPart)
      else do follow fuel (cs.dropWhile isName) (← memberOf (p.member (String.ofList name)))
    else if c = '[' then
      let name := cs.takeWhile (· != ']')
      match cs.dropWhile (· != ']') with
      | [] => .error (.flaw .unclosedBracket)
      | _ :: rest => do
        let n ← flawed (indexNumeral name)
        if name.isEmpty then throw (.flaw .emptyPart)
        follow fuel rest (← memberOf (p.item name n))
    else .error (.flaw .afterBracket)

def resolve (name value place : List Char) : Except FillFault Part :=
  let isFirst (c : Char) : Bool := c != '.' && c != '['
  let first := place.takeWhile isFirst
  let rest := place.dropWhile isFirst
  match indexNumeral first with
  | .error f => .error (.flaw f)
  | .ok (some n) => .error (.noPosition n)
  | .ok none =>
    if first.isEmpty then .error (.noPosition 0)
    else if first = name then follow rest.length rest (.text value)
    else .error (.noArgument (String.ofList first))

def quotePart (isShown : Char → Bool) : Part → Part
  | .text cs => .text (quoteBy isShown cs)
  | p => .text p.shown.toList

/-- A null character converts nothing. -/
def convert (p : Part) : Option Char → Except FillFault Part
  | none => .ok p
  | some c =>
    if c.toNat = 0 then .ok p
    else if c = 'r' then .ok (quotePart isPrintable p)
    else if c = 's' then .ok (.text p.shown.toList)
    else if c = 'a' then .ok (quotePart isPlain p)
    else .error (.flaw (.unknownConversion c))

def widthLimit : Nat := 10000000000

def placesLimit : Nat := 1000000000

/-- A layout that is not too large for what it lays out. -/
def fitting : Except Flaw Layout → Except FillFault Layout
  | .error f => .error (.flaw f)
  | .ok l =>
    if widthLimit ≤ l.width || (decimalTypes.contains l.type && l.precision.any (placesLimit < ·)) then
      .error .tooWide
    else .ok l

def layOut (p : Part) (layout : List Char) : Except FillFault (List Char) :=
  if layout.isEmpty then .ok p.shown.toList
  else match p with
    | .text cs => do return (← fitting (Layout.ofText layout)).applyText cs
    | .number n => do
      match (← fitting (Layout.ofNumber layout)).applyNumber n with
      | some cs => return cs
      | none => throw .noCharacter
    | p => .error (.noLayout p.kindName)

/-- Fills in the places of a message; a layout may itself hold places, one level deep. -/
def fillBy (name value : List Char) : Nat → List Char → Except FillFault (List Char)
  | 0, _ => .error (.flaw .tooDeep)
  | depth + 1, message => do
    let (ps, flaw) := pieces (message.length + 1) message
    let texts ← ps.mapM fun
      | .plain cs => pure cs
      | .place p => do
        let v ← convert (← resolve name value p.name) p.conversion
        layOut v (← if p.layout.contains '{' then fillBy name value depth p.layout else pure p.layout)
    match flaw with
    | some f => throw (.flaw f)
    | none => return texts.flatten

def fill (message name value : String) : Except FillFault String :=
  (fillBy name.toList value.toList 2 message.toList).map String.ofList

end Boardwalk.Text
