/-!
# Texts and their bytes

Besides characters a text may hold single halves of surrogate pairs: an escape in a Json text can name one. No bytes
stand for a half, so a text that holds one cannot be written to a file. The last 2048 code points, which have no
characters of their own, stand for the 2048 halves.
-/

namespace Boardwalk.Text

def firstHalf : Nat := 0x10f800

/-- The half of a pair with a number of its own, from the first high one on. -/
def half (n : Nat) : Char := Char.ofNat (firstHalf + n)

def isHalf (c : Char) : Bool := firstHalf ≤ c.toNat

def isEncodable (s : String) : Bool := !s.toList.any isHalf

def encode? (s : String) : Option ByteArray := if isEncodable s then some s.toUTF8 else none

end Boardwalk.Text
