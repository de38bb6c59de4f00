/-!
# Binary floating point numbers

A finite number is a whole number times a power of two. `parts?` takes a number apart, and `nearest`
finds the number that lies nearest to a fraction, ties going to the even one.
-/

namespace Boardwalk.Number

def twoTo (n : Nat) : Nat := Nat.pow 2 n

def tenTo (n : Nat) : Nat := Nat.pow 10 n

/-- The magnitude of a finite number: `digits * 2 ^ power`. -/
structure Parts where
  negative : Bool
  digits : Nat
  power : Int

def parts? (x : Float) : Option Parts :=
  let bits : Nat := x.toBits.toNat
  let field : Nat := bits / twoTo 52 % 2048
  let rest : Nat := bits % twoTo 52
  let negative := bits / twoTo 63 == 1
  if field = 2047 then none
  else if field = 0 then some ⟨negative, rest, -1074⟩
  else some ⟨negative, rest + twoTo 52, (field : Int) - 1075⟩

def isNaN (x : Float) : Bool :=
  let bits : Nat := x.toBits.toNat
  bits / twoTo 52 % 2048 == 2047 && bits % twoTo 52 != 0

def isNegative (x : Float) : Bool := x.toBits.toNat / twoTo 63 == 1

def isFinite (x : Float) : Bool := (parts? x).isSome

def ofField (negative : Bool) (bits : Nat) : Float :=
  Float.ofBits (UInt64.ofNat (bits + if negative then twoTo 63 else 0))

def infinity (negative : Bool) : Float := ofField negative (2047 * twoTo 52)

def notANumber : Float := ofField false (2047 * twoTo 52 + twoTo 51)

def divideToEven (num den : Nat) : Nat :=
  let q := num / den
  let r := 2 * (num % den)
  if den < r || (r = den && q % 2 = 1) then q + 1 else q

def scale (num den : Nat) (power : Int) : Nat × Nat :=
  if 0 ≤ power then (num * twoTo power.toNat, den) else (num, den * twoTo (-power).toNat)

def nearest (negative : Bool) (num den : Nat) : Float :=
  if num = 0 then ofField negative 0
  else
    -- the power that leaves 53 binary digits, or the smallest one there is
    let guess : Int := (num.log2 : Int) - den.log2 - 52
    let fits (p : Int) : Bool := let s := scale num den (-p); s.1 < s.2 * twoTo 53
    let power := max (-1074) (if fits (guess - 1) then guess - 1 else if fits guess then guess else guess + 1)
    let s := scale num den (-power)
    let digits := divideToEven s.1 s.2
    -- adding the digits to the exponent field also carries a rounding up to the next power
    let bits := (power + 1074).toNat * twoTo 52 + digits
    if 2047 * twoTo 52 ≤ bits then infinity negative else ofField negative bits

def ofDecimal (negative : Bool) (digits : Nat) (exponent : Int) : Float :=
  if digits = 0 then ofField negative 0
  else
    let size : Int := (Nat.toDigits 10 digits).length + exponent
    if 400 < size then infinity negative
    else if size < -400 then ofField negative 0
    else if 0 ≤ exponent then nearest negative (digits * tenTo exponent.toNat) 1
    else nearest negative digits (tenTo (-exponent).toNat)

def ofInt (n : Int) : Float := nearest (n < 0) n.natAbs 1

def toInt? (x : Float) : Option Int := do
  let p ← parts? x
  let n ← if 0 ≤ p.power then some (p.digits * twoTo p.power.toNat)
    else if p.digits % twoTo (-p.power).toNat = 0 then some (p.digits / twoTo (-p.power).toNat)
    else none
  return if p.negative then -(n : Int) else n

end Boardwalk.Number
