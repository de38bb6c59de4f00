import Boardwalk.Number.Numeral
/-!
# Digits

Two classes of characters. A decimal digit stands for one of the numbers 0 to 9 and may be used in a
numeral; the wider class of digit signs also holds superscripts, circled digits and the like, which look
like numbers and are none.
-/

namespace Boardwalk.Text

/-- The zeros of the decimal digit blocks of Unicode 14; each is followed by its one to nine. -/
def zeros : List Nat :=
  [48, 1632, 1776, 1984, 2406, 2534, 2662, 2790, 2918, 3046, 3174, 3302, 3430, 3558, 3664, 3792,
   3872, 4160, 4240, 6112, 6160, 6470, 6608, 6784, 6800, 6992, 7088, 7232, 7248, 42528, 43216,
   43264, 43472, 43504, 43600, 44016, 65296, 66720, 68912, 69734, 69872, 69942, 70096, 70384,
   70736, 70864, 71248, 71360, 71472, 71904, 72016, 72784, 73040, 73120, 92768, 92864, 93008,
   120782, 120792, 120802, 120812, 120822, 123200, 123632, 125264, 130032]

/-- Digit signs that are not decimal digits, as closed ranges. -/
def digitSignRanges : List (Nat × Nat) :=
  [(178, 179), (185, 185), (4969, 4977), (6618, 6618), (8304, 8304), (8308, 8313), (8320, 8329),
   (9312, 9320), (9332, 9340), (9352, 9360), (9450, 9450), (9461, 9469), (9471, 9471),
   (10102, 10110), (10112, 10120), (10122, 10130), (68160, 68163), (69216, 69224), (69714, 69722),
   (127232, 127242)]

def digitValue? (c : Char) : Option Nat :=
  (zeros.find? fun z => z ≤ c.toNat && c.toNat < z + 10).map (c.toNat - ·)

def isDigitSign (c : Char) : Bool :=
  (digitValue? c).isSome || digitSignRanges.any fun r => r.1 ≤ c.toNat && c.toNat ≤ r.2

def allDigitSigns (s : List Char) : Bool := !s.isEmpty && s.all isDigitSign

/-- Reads a numeral that may mix the decimal digits of several scripts. What follows the digits matters only
if they are not too many. -/
def readNumeral (cs : List Char) : Except Number.NumeralFault Nat :=
  let values := (cs.map digitValue?).takeWhile Option.isSome
  if Number.numeralLimit < values.length then .error (.tooLong values.length)
  else if values.isEmpty || values.length < cs.length then .error .malformed
  else .ok (values.foldl (fun n v => 10 * n + v.getD 0) 0)

end Boardwalk.Text
