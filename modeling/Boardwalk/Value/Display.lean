import Boardwalk.Value.Basic
import Boardwalk.Json.Printer
/-!
# Values in messages

The text of a value in prompts, messages and on the standard output.
-/

namespace Boardwalk.Value

def joinComma (ts : List String) : String := ", ".intercalate ts

def between (opening closing : Char) (body : String) : String :=
  String.ofList (opening :: body.toList ++ [closing])

def intText (n : Int) : String := String.ofList (Json.intChars n)

def floatWord (x : Float) : String := Number.floatText "nan" "inf" "-inf" x

mutual

/-- A value as it stands inside another one: texts are quoted. -/
def shown : Value → String
  | .null => "None"
  | .bool true => "True"
  | .bool false => "False"
  | .int n => intText n
  | .float x => floatWord x
  | .str s => Text.quoted s
  | .bytes b => Text.quotedBytes b
  | .list xs => between '[' ']' (joinComma (shownItems xs))
  | .row [x] => between '(' ')' (shown x ++ ",")
  | .row xs => between '(' ')' (joinComma (shownItems xs))
  | .dict fs => between '\x7b' '\x7d' (joinComma (shownFields fs))
  | .record index name kind output completed frameIndex =>
    "TimelineRecord(" ++ joinComma ["index=" ++ shown index, "name=" ++ Text.quoted name,
      "type=" ++ Text.quoted kind, "output=" ++ shown output, "completed=" ++ shown completed,
      "frame_index=" ++ shown frameIndex] ++ ")"
  | .foreign => "<opaque>"

def shownItems : List Value → List String
  | [] => []
  | x :: xs => shown x :: shownItems xs

def shownFields : List (String × Value) → List String
  | [] => []
  | (k, x) :: fs => (Text.quoted k ++ ": " ++ shown x) :: shownFields fs

end

def text : Value → String
  | .str s => s
  | .record index name kind output completed frameIndex =>
    " ".intercalate ["index=" ++ shown index, "name=" ++ Text.quoted name,
      "type=" ++ Text.quoted kind, "output=" ++ shown output, "completed=" ++ shown completed,
      "frame_index=" ++ shown frameIndex]
  | v => shown v

def kindWord : Value → String
  | .null => "NoneType"
  | .bool _ => "bool"
  | .int _ => "int"
  | .float _ => "float"
  | .str _ => "str"
  | .bytes _ => "bytes"
  | .list _ => "list"
  | .row _ => "tuple"
  | .dict _ => "dict"
  | .record .. => "TimelineRecord"
  | .foreign => "Opaque"

end Boardwalk.Value
