import Boardwalk.Number.Shortest
/-!
# Decimals with a given number of digits

The text of a number with a fixed number of places, with a power of ten, or in the shorter of these two
forms. Ties are rounded to the even digit.
-/

namespace Boardwalk.Number

def Parts.fraction (p : Parts) : Nat × Nat := scale p.digits 1 p.power

def Parts.scaled (p : Parts) (places : Int) : Nat :=
  let (num, den) := p.fraction
  if 0 ≤ places then divideToEven (num * tenTo places.toNat) den
  else divideToEven num (den * tenTo (-places).toNat)

def padLeft (width : Nat) (cs : List Char) : List Char :=
  List.replicate (width - cs.length) '0' ++ cs

def pointed (alternate : Bool) (places : Nat) (cs : List Char) : List Char :=
  let cs := padLeft (places + 1) cs
  let whole := cs.take (cs.length - places)
  if places = 0 then (if alternate then whole ++ ['.'] else whole)
  else whole ++ '.' :: cs.drop (cs.length - places)

def Parts.fixedChars (p : Parts) (alternate : Bool) (places : Nat) : List Char :=
  pointed alternate places (Nat.toDigits 10 (p.scaled places))

def Parts.decade (p : Parts) : Int :=
  let (num, den) := p.fraction
  if num = 0 then 0
  else
    let e : Int := ((Nat.toDigits 10 num).length : Int) - (Nat.toDigits 10 den).length
    let reaches := if 0 ≤ e then den * tenTo e.toNat ≤ num else den ≤ num * tenTo (-e).toNat
    if reaches then e else e - 1

/-- So many leading digits, with the power of ten of the first one. -/
def Parts.leading (p : Parts) (count : Nat) : List Char × Int :=
  let e := p.decade
  let n := p.scaled (count - 1 - e)
  let (n, e) := if n = tenTo count then (tenTo (count - 1), e + 1) else (n, e)
  (padLeft count (Nat.toDigits 10 n), e)

def Parts.scientificChars (p : Parts) (alternate : Bool) (places : Nat) : List Char :=
  let (ds, e) := p.leading (places + 1)
  pointed alternate places ds ++ exponentText e

/-- Drops zeros at the end of the places, and the point after which nothing is left. -/
def dropZeroPlaces (cs : List Char) : List Char :=
  if cs.contains '.' then
    match cs.reverse.dropWhile (· = '0') with
    | '.' :: rest => rest.reverse
    | rest => rest.reverse
  else cs

/-- So many digits, with a power of ten if the point would lie outside them. -/
def Parts.generalChars (p : Parts) (alternate : Bool) (count : Nat) : List Char :=
  let count := max 1 count
  let (ds, e) := p.leading count
  let trim (cs : List Char) : List Char := if alternate then cs else dropZeroPlaces cs
  if e < -4 || (count : Int) ≤ e then
    trim (pointed alternate (count - 1) ds) ++ exponentText e
  else trim (p.fixedChars alternate (count - 1 - e).toNat)

end Boardwalk.Number
