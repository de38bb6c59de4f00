import Boardwalk.Text.Blank
import Boardwalk.Text.Upper
/-!
# Texts with markup

A text for the terminal may hold tags in square brackets, which give a style to what stands between them. A tag is closed
by its name behind a slash, or by the slash alone if it is the last one open. Backslashes before a tag take away its
meaning. What is in brackets but begins like no tag is plain text.
-/

namespace Boardwalk.Text.Markup

inductive Piece where
  | plain (text : List Char)
  /-- What stands between the brackets, with the position of the first one. -/
  | tag (position : Nat) (inside : List Char)

inductive Flaw where
  | unmatched (inside : List Char) (position : Nat)
  | nothingOpen (position : Nat)
  deriving DecidableEq, Inhabited

def Flaw.message : Flaw → String
  | .unmatched inside position =>
    "closing tag '[" ++ String.ofList inside ++ "]' at position " ++ toString position ++ " doesn't match any open tag"
  | .nothingOpen position => "closing tag '[/]' at position " ++ toString position ++ " has nothing to close"

/-! ## Tags -/

def opensTag (c : Char) : Bool := ('a' ≤ c && c ≤ 'z') || c = '#' || c = '/' || c = '@'

/-- What stands before the next closing bracket, unless another tag may begin before it. -/
def upToBracket : List Char → Option (List Char)
  | [] => none
  | ']' :: _ => some []
  | '[' :: _ => none
  | c :: cs => (upToBracket cs).map (c :: ·)

/-- What stands in the brackets of a tag, from the text behind the first bracket. -/
def tagInside? : List Char → Option (List Char)
  | c :: cs => if opensTag c then (upToBracket cs).map (c :: ·) else none
  | [] => none

def backslashes (n : Nat) : List Char := List.replicate n '\\'

/-- The pieces of a text. `skip` characters of it belong to a tag that was read, `slashes` backslashes stand right before
it, and `position` characters before those that are to be skipped. -/
def pieces : (skip slashes position : Nat) → List Char → List Piece
  | _, slashes, _, [] => [.plain (backslashes slashes)]
  | skip + 1, slashes, position, _ :: cs => pieces skip slashes (position + 1) cs
  | 0, slashes, position, c :: cs =>
    if c = '\\' then pieces 0 (slashes + 1) (position + 1) cs
    else if c = '[' then
      match tagInside? cs with
      | none => .plain (backslashes (slashes - 1) ++ ['[']) :: pieces 0 0 (position + 1) cs
      | some inside =>
        .plain (backslashes (slashes / 2)) ::
          (if slashes % 2 = 0 then .tag position inside else .plain ('[' :: inside ++ [']'])) ::
          pieces (inside.length + 1) 0 (position + 1) cs
    else .plain (backslashes slashes ++ [c]) :: pieces 0 0 (position + 1) cs

/-! ## Styles -/

/-- The short names that some styles have. -/
def shortNames : List (String × String) :=
  [("b", "bold"), ("d", "dim"), ("i", "italic"), ("u", "underline"), ("uu", "underline2"), ("r", "reverse"),
    ("c", "conceal"), ("s", "strike"), ("o", "overline")]

/-- The name of a style as tags are compared by it. -/
def styleOf (name : List Char) : String :=
  let style := lower (trim (String.ofList name))
  (shortNames.lookup style).getD style

/-- The styles that are open when a tag is read, the last one first. -/
def track (opened : List String) (position : Nat) (inside : List Char) : Except Flaw (List String) :=
  match inside.takeWhile (· != '=') with
  | '/' :: name =>
    if styleOf name = "" then
      match opened with
      | [] => .error (.nothingOpen position)
      | _ :: rest => .ok rest
    else if opened.contains (styleOf name) then .ok (opened.erase (styleOf name))
    else .error (.unmatched inside position)
  | name => .ok (styleOf name :: opened)

def render : List String → List Piece → Except Flaw (List Char)
  | _, [] => .ok []
  | opened, .plain text :: rest => do return text ++ (← render opened rest)
  | opened, .tag position inside :: rest => do render (← track opened position inside) rest

/-- What is seen of a text with markup. -/
def shown (text : String) : Except Flaw String := do
  return String.ofList (← render [] (pieces 0 0 0 text.toList))

end Boardwalk.Text.Markup
