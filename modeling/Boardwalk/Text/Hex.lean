import Boardwalk.Text.Quoted
/-!
# Bytes in hexadecimal

Bytes as pairs of hexadecimal digits, and back. Digits may be written in either case.
-/

namespace Boardwalk.Text

def hexValue (c : Char) : Nat :=
  if c.isDigit then c.toNat - 48 else if 'a' ≤ c && c ≤ 'f' then c.toNat - 87 else c.toNat - 55

def hexBytes : List Char → List UInt8
  | a :: b :: cs => UInt8.ofNat (16 * hexValue a + hexValue b) :: hexBytes cs
  | _ => []

def ofHex (s : String) : ByteArray := ⟨(hexBytes s.toList).toArray⟩

def toHex (b : ByteArray) : String := String.ofList (b.toList.flatMap fun x => hexDigits 2 x.toNat)

end Boardwalk.Text
