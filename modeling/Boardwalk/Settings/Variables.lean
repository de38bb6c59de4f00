import Boardwalk.Text.Blank
/-!
# Files of variables

A file of variables gives one variable a line, after an optional word for export: a name, an equals sign and
a value. Values may stand in quotes and then run over several lines; a number sign starts a comment. A line that makes no
sense is passed over. Values may refer to variables that are known already.
-/

namespace Boardwalk.Variables

def unifyLineEnds : List Char → List Char
  | '\r' :: '\n' :: cs => '\n' :: unifyLineEnds cs
  | '\r' :: cs => '\n' :: unifyLineEnds cs
  | c :: cs => c :: unifyLineEnds cs
  | [] => []

def isGap (c : Char) : Bool := Text.isBlank c && c != '\n'

def skipGap (cs : List Char) : List Char := cs.dropWhile isGap

def afterLine (cs : List Char) : List Char := (cs.dropWhile (· != '\n')).drop 1

def skipExport : List Char → List Char
  | cs@('e' :: 'x' :: 'p' :: 'o' :: 'r' :: 't' :: c :: rest) => if isGap c then skipGap rest else cs
  | cs => cs

/-- Reads up to a closing quote. A backslash takes the next character along, whatever it is. -/
def spanQuoted (mark : Char) : List Char → Option (List Char × List Char)
  | [] => none
  | '\\' :: c :: cs => (spanQuoted mark cs).map fun (v, rest) => ('\\' :: c :: v, rest)
  | c :: cs =>
    if c = mark then some ([], cs)
    else if c = '\\' then none
    else (spanQuoted mark cs).map fun (v, rest) => (c :: v, rest)

def escaped? : Char → Option Char
  | '\\' => some '\\'
  | '\'' => some '\''
  | '"' => some '"'
  | 'a' => some '\x07'
  | 'b' => some '\x08'
  | 'f' => some '\x0c'
  | 'n' => some '\n'
  | 'r' => some '\r'
  | 't' => some '\t'
  | 'v' => some '\x0b'
  | _ => none

def escapedPlain? : Char → Option Char
  | '\\' => some '\\'
  | '\'' => some '\''
  | _ => none

def unescape (meaning? : Char → Option Char) : List Char → List Char
  | '\\' :: c :: cs => match meaning? c with
    | some d => d :: unescape meaning? cs
    | none => '\\' :: unescape meaning? (c :: cs)
  | c :: cs => c :: unescape meaning? cs
  | [] => []
termination_by cs => cs.length

def cutComment : List Char → List Char
  | [] => []
  | c :: cs =>
    if Text.isBlank c && (cs.dropWhile Text.isBlank).head? = some '#' then []
    else c :: cutComment cs

/-- Reads a value and the blanks before it; nothing if a quote is not closed. -/
def readValue (cs : List Char) : Option (List Char × List Char) :=
  match skipGap cs with
  | '\'' :: r => (spanQuoted '\'' r).map fun (v, rest) => (unescape escapedPlain? v, rest)
  | '"' :: r => (spanQuoted '"' r).map fun (v, rest) => (unescape escaped? v, rest)
  | _ =>
    some (Text.trimBy Text.isBlank (cutComment (cs.takeWhile (· != '\n'))), cs.dropWhile (· != '\n'))

def readName : List Char → Option (Option (List Char) × List Char)
  | '#' :: cs => some (none, '#' :: cs)
  | '\'' :: cs =>
    match cs.takeWhile (· != '\''), cs.dropWhile (· != '\'') with
    | n :: name, _ :: rest => some (some (n :: name), rest)
    | _, _ => none
  | cs =>
    let isNameChar : Char → Bool := fun c => c != '=' && c != '#' && !Text.isBlank c
    match cs.takeWhile isNameChar with
    | [] => none
    | name => some (some name, cs.dropWhile isNameChar)

def endLine (cs : List Char) : Option (List Char) :=
  let cs := match skipGap cs with
    | '#' :: rest => rest.dropWhile (· != '\n')
    | rest => rest
  match cs with
  | [] => some []
  | '\n' :: rest => some rest
  | _ => none

abbrev Binding := List Char × Option (List Char)

/-- Reads one line: the binding, if there is one, and what is left. -/
def readLine (cs : List Char) : Option Binding × List Char :=
  let cs := skipExport cs
  match readName cs with
  | none => (none, afterLine cs)
  | some (name, rest) =>
    match skipGap rest with
    | '=' :: more =>
      match readValue more with
      | none => (none, afterLine more)
      | some (value, rest) =>
        match endLine rest with
        | some left => (name.map fun n => (n, some value), left)
        | none => (none, afterLine rest)
    | rest =>
      match endLine rest with
      | some left => (name.map fun n => (n, none), left)
      | none => (none, afterLine rest)

def readLines : Nat → List Char → List Binding
  | 0, _ => []
  | fuel + 1, cs =>
    match cs.dropWhile Text.isBlank with
    | [] => []
    | cs =>
      let (binding, rest) := readLine cs
      binding.toList ++ readLines fuel rest

/-! ## References -/

/-- A reference at the front: a name, a default, and what follows. -/
def reference? : List Char → Option (List Char × Option (List Char) × List Char)
  | '$' :: '{' :: cs =>
    let isNameChar : Char → Bool := fun c => c != '}' && c != ':'
    let name := cs.takeWhile isNameChar
    match cs.dropWhile isNameChar with
    | '}' :: rest => some (name, none, rest)
    | ':' :: '-' :: more =>
      match more.dropWhile (· != '}') with
      | _ :: rest => some (name, some (more.takeWhile (· != '}')), rest)
      | [] => none
    | _ => none
  | _ => none

def expand (known : List (String × Option String)) : Nat → List Char → List Char
  | 0, cs => cs
  | _ + 1, [] => []
  | fuel + 1, c :: cs =>
    match reference? (c :: cs) with
    | some (name, default, rest) =>
      let value := match known.lookup (String.ofList name) with
        | some value => (value.map String.toList).getD []
        | none => default.getD []
      value ++ expand known fuel rest
    | none => c :: expand known fuel cs

/-- Sets a variable; one that is set again keeps its place. -/
def set (name : String) (value : Option String) :
    List (String × Option String) → List (String × Option String)
  | [] => [(name, value)]
  | v :: vs => if v.1 = name then (name, value) :: vs else v :: set name value vs

def dropMark : List Char → List Char
  | c :: cs => if c.toNat = 0xfeff then cs else c :: cs
  | [] => []

def ofText (environment : List (String × String)) (text : String) :
    List (String × Option String) :=
  let cs := unifyLineEnds (dropMark text.toList)
  let outer := environment.map fun v => (v.1, some v.2)
  (readLines (cs.length + 1) cs).foldl (fun vs (name, value) =>
    set (String.ofList name)
      (value.map fun v => String.ofList (expand (vs ++ outer) (v.length + 1) v)) vs) []

end Boardwalk.Variables
