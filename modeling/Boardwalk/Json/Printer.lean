import Boardwalk.Json.Basic
import Boardwalk.Number.Numeral
import Boardwalk.Number.Shortest
import Boardwalk.Text.Encoding
import Boardwalk.Text.Quoted
/-!
# Json text

Every value has one text in each layout. Characters outside ASCII stand as they are; only quotes,
backslashes and control characters are escaped.
-/

namespace Boardwalk.Json

/-- What stands around the items of a container at a given depth. -/
structure Layout where
  opening : Nat → List Char
  between : Nat → List Char
  closing : Nat → List Char

def newline (depth : Nat) : List Char := '\n' :: List.replicate (2 * depth) ' '

/-- One item a line, two blanks a level. -/
def Layout.indented : Layout := ⟨fun d => newline (d + 1), fun d => ',' :: newline (d + 1), newline⟩

def Layout.line : Layout := ⟨fun _ => [], fun _ => [',', ' '], fun _ => []⟩

def escapeChar (c : Char) : List Char :=
  if c = '"' then ['\\', '"']
  else if c = '\\' then ['\\', '\\']
  else if c = '\n' then ['\\', 'n']
  else if c = '\r' then ['\\', 'r']
  else if c = '\t' then ['\\', 't']
  else if c.toNat = 8 then ['\\', 'b']
  else if c.toNat = 12 then ['\\', 'f']
  else if c.toNat < 32 then '\\' :: 'u' :: Text.hexDigits 4 c.toNat
  else [c]

def strChars (s : String) : List Char := '"' :: s.toList.flatMap escapeChar ++ ['"']

def natChars (n : Nat) : List Char := Nat.toDigits 10 n

def intChars (n : Int) : List Char :=
  if n < 0 then '-' :: natChars n.natAbs else natChars n.natAbs

def floatWords (x : Float) : List Char :=
  (Number.floatText "NaN" "Infinity" "-Infinity" x).toList

mutual

def chars (l : Layout) (depth : Nat) : Json → List Char
  | .null => ['n', 'u', 'l', 'l']
  | .bool true => ['t', 'r', 'u', 'e']
  | .bool false => ['f', 'a', 'l', 's', 'e']
  | .int n => intChars n
  | .float x => floatWords x
  | .str s => strChars s
  | .arr [] => ['[', ']']
  | .arr (x :: xs) =>
    '[' :: l.opening depth ++ chars l (depth + 1) x ++ charsItems l depth xs ++ l.closing depth ++ [']']
  | .obj [] => ['{', '}']
  | .obj ((k, x) :: fs) =>
    '{' :: l.opening depth ++ strChars k ++ [':', ' '] ++ chars l (depth + 1) x
      ++ charsFields l depth fs ++ l.closing depth ++ ['}']

def charsItems (l : Layout) (depth : Nat) : List Json → List Char
  | [] => []
  | x :: xs => l.between depth ++ chars l (depth + 1) x ++ charsItems l depth xs

def charsFields (l : Layout) (depth : Nat) : List (String × Json) → List Char
  | [] => []
  | (k, x) :: fs =>
    l.between depth ++ strChars k ++ [':', ' '] ++ chars l (depth + 1) x ++ charsFields l depth fs

end

def line (j : Json) : String := String.ofList (chars .line 0 j)

/-- The text of a state file: indented, with a line feed at the end. -/
def document (j : Json) : String := String.ofList (chars .indented 0 j ++ ['\n'])

mutual

def isWritable : Json → Bool
  | .int n => Number.hasNumeral n
  | .arr xs => isWritableItems xs
  | .obj fs => isWritableFields fs
  | .null => true
  | .bool _ => true
  | .float _ => true
  | .str _ => true

def isWritableItems : List Json → Bool
  | [] => true
  | x :: xs => isWritable x && isWritableItems xs

def isWritableFields : List (String × Json) → Bool
  | [] => true
  | (_, x) :: fs => isWritable x && isWritableFields fs

end

mutual

/-- May the text be written to a file? Every text in it has bytes then. -/
def isEncodable : Json → Bool
  | .str s => Text.isEncodable s
  | .arr xs => isEncodableItems xs
  | .obj fs => isEncodableFields fs
  | .null => true
  | .bool _ => true
  | .int _ => true
  | .float _ => true

def isEncodableItems : List Json → Bool
  | [] => true
  | x :: xs => isEncodable x && isEncodableItems xs

def isEncodableFields : List (String × Json) → Bool
  | [] => true
  | (k, x) :: fs => Text.isEncodable k && isEncodable x && isEncodableFields fs

end

/-- The bytes of a state file, if there are any. -/
def bytes? (j : Json) : Option ByteArray := if j.isEncodable then some j.document.toUTF8 else none

/-- How many containers of a document may be nested. -/
def documentLimit : Nat := 985

end Boardwalk.Json
