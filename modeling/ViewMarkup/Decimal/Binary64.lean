/-!
# Doubles taken apart

A double is not a number, infinite, or `± mantissa · 2 ^ exponent` with exact natural numbers. All
text of numbers, in both directions, is computed on this exact form.
-/

namespace ViewMarkup.Decimal

/-- A power of two. -/
def twoPow (k : Nat) : Nat := Nat.pow 2 k

/-- A power of ten. -/
def tenPow (k : Nat) : Nat := Nat.pow 10 k

/-- What the bits of a double say. -/
inductive Parts where
  | nan
  | infinite (negative : Bool)
  | finite (negative : Bool) (mantissa : Nat) (exponent : Int)
deriving DecidableEq, Repr

/-- The parts of a double; subnormal numbers have the lowest exponent and no hidden bit. -/
def parts (x : Float) : Parts :=
  let bits := x.toBits.toNat
  let negative := bits / twoPow 63 == 1
  let biased : Nat := bits / twoPow 52 % twoPow 11
  let fraction := bits % twoPow 52
  if biased = 2047 then
    if fraction = 0 then .infinite negative else .nan
  else if biased = 0 then .finite negative fraction (-1074)
  else .finite negative (twoPow 52 + fraction) ((biased : Int) - 1075)

/-- The integer that a double is, if it is one. -/
def toInt? (x : Float) : Option Int :=
  match parts x with
  | .finite negative m e =>
    let signed (n : Nat) : Int := if negative then -n else n
    match e with
    | .ofNat k => some (signed (m * twoPow k))
    | .negSucc k => if m % twoPow (k + 1) = 0 then some (signed (m / twoPow (k + 1))) else none
  | _ => none

/-- The number of decimal digits of a natural number; zero has one. -/
def digitCount (n : Nat) : Nat := (Nat.repr n).length

/-- The double nearest to `mantissa · 10 ^ exponent`, ties to the even mantissa. Numbers far out of
range are answered before any power is computed. -/
def ofDecimal (mantissa : Nat) (exponent : Int) : Float :=
  let size := digitCount mantissa + exponent
  if mantissa = 0 then 0.0
  else if size > 400 then 1.0 / 0.0
  else if size < -400 then 0.0
  else
    match exponent with
    | .ofNat e => Float.ofScientific mantissa false e
    | .negSucc e => Float.ofScientific mantissa true (e + 1)

/-- The double with the sign given. -/
def withSign (negative : Bool) (x : Float) : Float := if negative then -x else x

/-- The double nearest to an integer, or nothing when it is beyond all of them. -/
def ofInt? (n : Int) : Option Float :=
  let x := ofDecimal n.natAbs 0
  if x.isInf then none else some (withSign (n < 0) x)

end ViewMarkup.Decimal
