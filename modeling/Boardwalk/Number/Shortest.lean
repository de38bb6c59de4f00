import Boardwalk.Number.Binary
/-!
# Shortest decimal text

The fewest decimal digits that read back as the same number, the nearest such decimal if there are
several, written positionally from `10 ^ (-4)` up to `10 ^ 16` and with an exponent outside.
-/

namespace Boardwalk.Number

/-- The reals that read back as one number, as fractions over a common denominator, and whether the two
ends belong to them. -/
structure Reach where
  low : Nat
  value : Nat
  high : Nat
  den : Nat
  closed : Bool

def Parts.reach (p : Parts) : Reach :=
  -- below a power of two the next smaller number is only half as far away
  let below := if p.digits = twoTo 52 && -1074 < p.power then 1 else 2
  let f := if 0 ≤ p.power then twoTo p.power.toNat else 1
  let d := if 0 ≤ p.power then 1 else twoTo (-p.power).toNat
  ⟨(4 * p.digits - below) * f, 4 * p.digits * f, (4 * p.digits + 2) * f, 4 * d, p.digits % 2 = 0⟩

def Reach.holds (r : Reach) (n : Nat) (e : Int) : Bool :=
  let x := if 0 ≤ e then n * tenTo e.toNat * r.den else n * r.den
  let by10 (y : Nat) := if 0 ≤ e then y else y * tenTo (-e).toNat
  if r.closed then by10 r.low ≤ x && x ≤ by10 r.high else by10 r.low < x && x < by10 r.high

def Reach.leading (r : Reach) : Int :=
  if r.den ≤ r.value then (Nat.toDigits 10 (r.value / r.den)).length - 1
  else
    let l := (Nat.toDigits 10 (r.den / r.value)).length
    if r.den ≤ r.value * tenTo (l - 1) then -((l : Int) - 1) else -l

/-- The two neighbours of the value on the grid `10 ^ e`, and whether the upper one is nearer; a tie goes
to the even neighbour. -/
def Reach.neighbours (r : Reach) (e : Int) : Nat × Nat × Bool :=
  let num := if 0 ≤ e then r.value else r.value * tenTo (-e).toNat
  let den := if 0 ≤ e then r.den * tenTo e.toNat else r.den
  let q := num / den
  let twice := 2 * (num % den)
  (q, q + 1, den < twice || (twice = den && q % 2 = 1))

/-- Tries grids of growing precision, at most `tries` of them. -/
def Reach.search (r : Reach) : Nat → Int → Nat × Int
  | 0, e => ((r.neighbours e).1, e)
  | tries + 1, e =>
    let n := r.neighbours e
    match r.holds n.1 e, r.holds n.2.1 e with
    | true, true => (if n.2.2 then n.2.1 else n.1, e)
    | true, false => (n.1, e)
    | false, true => (n.2.1, e)
    | false, false => r.search tries (e - 1)

def Parts.shortest (p : Parts) : Nat × Int :=
  let r := p.reach
  r.search 17 r.leading

/-- Decimal digits with the exponent of the first of them, without zeros at the end. -/
def Parts.decimal (p : Parts) : List Char × Int :=
  if p.digits = 0 then (['0'], 0)
  else
    let s := p.shortest
    let ds := Nat.toDigits 10 s.1
    let kept := (ds.reverse.dropWhile (· = '0')).reverse
    (kept, s.2 + ds.length - 1)

def exponentText (e : Int) : List Char :=
  let ds := Nat.toDigits 10 e.natAbs
  'e' :: (if e < 0 then '-' else '+') :: (if ds.length < 2 then '0' :: ds else ds)

def layOut (ds : List Char) (e : Int) : List Char :=
  if e < -4 || 16 ≤ e then
    (match ds with
      | [d] => [d]
      | d :: rest => d :: '.' :: rest
      | [] => []) ++ exponentText e
  else if e < 0 then '0' :: '.' :: List.replicate (-e - 1).toNat '0' ++ ds
  else
    let whole := e.toNat + 1
    if ds.length ≤ whole then ds ++ List.replicate (whole - ds.length) '0' ++ ['.', '0']
    else ds.take whole ++ '.' :: ds.drop whole

def Parts.chars (p : Parts) : List Char :=
  let d := p.decimal
  (if p.negative then ['-'] else []) ++ layOut d.1 d.2

def floatText (nan inf minusInf : String) (x : Float) : String :=
  match parts? x with
  | some p => String.ofList p.chars
  | none => if isNaN x then nan else if isNegative x then minusInf else inf

end Boardwalk.Number
