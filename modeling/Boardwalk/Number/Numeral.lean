/-!
# Numerals

Whole numbers have no bound, but a numeral that is read or written has at most so many digits.
-/

namespace Boardwalk.Number

def numeralLimit : Nat := 4300

inductive NumeralFault where
  | malformed
  | tooLong (digits : Nat)
  deriving DecidableEq, Inhabited

def isDigit (c : Char) : Bool := '0' ≤ c && c ≤ '9'

def digitsValue (ds : List Char) : Nat := ds.foldl (fun n c => 10 * n + (c.toNat - 48)) 0

def hasNumeral (n : Int) : Bool := n.natAbs < Nat.pow 10 numeralLimit

end Boardwalk.Number
