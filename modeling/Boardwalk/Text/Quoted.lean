import Boardwalk.Text.Printable
/-!
# Quoted texts

A text between quotes, as messages show it. Single quotes are used unless the text holds a single quote
and no double one. Control characters and other characters that do not print are written as escapes.
-/

namespace Boardwalk.Text

def hexDigit (n : Nat) : Char :=
  if n < 10 then Char.ofNat (48 + n) else Char.ofNat (87 + n)

def hexDigits : Nat → Nat → List Char
  | 0, _ => []
  | width + 1, n => hexDigits width (n / 16) ++ [hexDigit (n % 16)]

def escapeByNumber (n : Nat) : List Char :=
  if n < 0x100 then '\\' :: 'x' :: hexDigits 2 n
  else if n < 0x10000 then '\\' :: 'u' :: hexDigits 4 n
  else '\\' :: 'U' :: hexDigits 8 n

/-- One character of a quoted text; `shown` tells which characters may stand as they are. -/
def quoteChar (shown : Char → Bool) (mark c : Char) : List Char :=
  if c = mark || c = '\\' then ['\\', c]
  else if c = '\n' then ['\\', 'n']
  else if c = '\r' then ['\\', 'r']
  else if c = '\t' then ['\\', 't']
  else if shown c then [c]
  else escapeByNumber c.toNat

def quoteMark (cs : List Char) : Char := if cs.contains '\'' && !cs.contains '"' then '"' else '\''

def quoteBy (shown : Char → Bool) (cs : List Char) : List Char :=
  let mark := quoteMark cs
  mark :: cs.flatMap (quoteChar shown mark) ++ [mark]

def isPlain (c : Char) : Bool := 32 ≤ c.toNat && c.toNat < 127

def quoted (s : String) : String := String.ofList (quoteBy isPrintable s.toList)

def quotedBytes (bs : ByteArray) : String :=
  String.ofList ('b' :: quoteBy isPlain (bs.toList.map fun b => Char.ofNat b.toNat))

end Boardwalk.Text
