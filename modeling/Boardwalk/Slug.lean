import Boardwalk.Text.Blank
/-!
# Slugs

The words of a name in lower case, joined by dashes. Words are runs of ASCII letters and digits; inside a
run a new word starts at a capital letter after a small letter or digit, and at the last capital of a row
of capitals that a small letter follows.
-/

namespace Boardwalk.Slug

def isLower (c : Char) : Bool := 'a' ≤ c && c ≤ 'z'

def isUpper (c : Char) : Bool := 'A' ≤ c && c ≤ 'Z'

def isDigit (c : Char) : Bool := '0' ≤ c && c ≤ '9'

def isWordChar (c : Char) : Bool := isLower c || isUpper c || isDigit c

/-- Puts a blank at the word boundaries inside runs of letters. A boundary uses up the characters it was
recognised by, so two boundaries never share one. -/
def separate : List Char → List Char
  | [] => []
  | [c] => [c]
  | [c, d] => if (isLower c || isDigit c) && isUpper d then [c, ' ', d] else [c, d]
  | c :: d :: e :: cs =>
    if (isLower c || isDigit c) && isUpper d then c :: ' ' :: d :: separate (e :: cs)
    else if isUpper c && isUpper d && isLower e then c :: ' ' :: d :: e :: separate cs
    else c :: separate (d :: e :: cs)

def runs : List Char → List Char → List (List Char)
  | [], w => if w.isEmpty then [] else [w]
  | c :: cs, w =>
    if isWordChar c then runs cs (w ++ [c])
    else if w.isEmpty then runs cs [] else w :: runs cs []

def words (cs : List Char) : List (List Char) := (runs (separate cs) []).map (·.map Char.toLower)

def ofText (s : String) : String := String.ofList (Text.joinWith ['-'] (words s.toList))

end Boardwalk.Slug
