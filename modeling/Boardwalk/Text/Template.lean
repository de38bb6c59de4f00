/-!
# Snippet templates

A text with fields written `$name` or with braces around the name. Filling it in replaces the fields that
have a value and leaves everything else as it stands; a doubled dollar sign stands for one.
-/

namespace Boardwalk.Text.Template

def isNameStart (c : Char) : Bool := c.isAlpha || c = '_'

def isNameChar (c : Char) : Bool := c.isAlphanum || c = '_'

def takeName (cs : List Char) : List Char × List Char :=
  match cs with
  | [] => ([], [])
  | c :: _ => if isNameStart c then (cs.takeWhile isNameChar, cs.dropWhile isNameChar) else ([], cs)

/-- Fills in the fields for which `value?` has a text; every round takes at least one character. -/
def fillChars (value? : List Char → Option (List Char)) : Nat → List Char → List Char
  | 0, cs => cs
  | _, [] => []
  | fuel + 1, '$' :: '$' :: cs => '$' :: fillChars value? fuel cs
  | fuel + 1, '$' :: '{' :: cs =>
    match takeName cs with
    | (n :: name, '}' :: rest) =>
      (value? (n :: name)).getD ('$' :: '{' :: n :: name ++ ['}']) ++ fillChars value? fuel rest
    | _ => '$' :: '{' :: fillChars value? fuel cs
  | fuel + 1, '$' :: cs =>
    match takeName cs with
    | ([], _) => '$' :: fillChars value? fuel cs
    | (name, rest) => (value? name).getD ('$' :: name) ++ fillChars value? fuel rest
  | fuel + 1, c :: cs => c :: fillChars value? fuel cs

def fill (template : String) (values : List (String × String)) : String :=
  String.ofList (fillChars (fun n => (values.lookup (String.ofList n)).map String.toList)
    template.length template.toList)

end Boardwalk.Text.Template
