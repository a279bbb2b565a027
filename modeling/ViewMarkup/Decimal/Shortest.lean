import ViewMarkup.Decimal.Binary64

/-!
# Decimal digits of a double

The value `mantissa · 2 ^ exponent` is written in decimal digits in two ways: with the fewest digits
that read back as the same double, and rounded to a fixed number of digits. Both work on a decimal
grid `d · 10 ^ k` in exact arithmetic: the two grid points next to the value are the only
candidates, because the values that read back form an interval around it.
-/

namespace ViewMarkup.Decimal

/-- Decimal digits `d₁d₂…` standing for `d₁.d₂… · 10 ^ exponent`, without closing zeros. -/
structure Digits where
  digits : List Char
  exponent : Int
deriving DecidableEq, Repr

/-- A positive rational number. -/
structure Ratio where
  num : Nat
  den : Nat

/-- `factor · 2 ^ binary / 10 ^ decimal` without negative powers. -/
def Ratio.scaled (factor : Nat) (binary decimal : Int) : Ratio where
  num := factor * twoPow binary.toNat * tenPow (-decimal).toNat
  den := twoPow (-binary).toNat * tenPow decimal.toNat

/-- The exponent of the leading decimal digit of a positive number. -/
def Ratio.leading (r : Ratio) : Int :=
  if r.den ≤ r.num then digitCount (r.num / r.den) - 1
  else -(digitCount ((r.den - 1) / r.num) : Int)

/-- The digits of `d`, whose last digit has the weight `10 ^ k`; closing zeros are left out. -/
def Digits.ofNat (d : Nat) (k : Int) : Digits :=
  let cs := (Nat.repr d).toList
  { digits := (cs.reverse.dropWhile (· == '0')).reverse, exponent := cs.length - 1 + k }

/-- The interval of the values that read back as `mantissa · 2 ^ exponent`, in quarters of the unit
`2 ^ exponent`. Below a power of two the neighbour is only half as far away. -/
def readBack (mantissa : Nat) (exponent : Int) : Nat × Nat :=
  let low := if mantissa = twoPow 52 ∧ exponent > -1074 then 4 * mantissa - 1 else 4 * mantissa - 2
  (low, 4 * mantissa + 2)

/-- The point of the grid `10 ^ k` next to the value, if one reads back as the value. Of two the
nearer one is taken, and the even one when both are as near. -/
def gridPoint? (mantissa : Nat) (exponent k : Int) (low high : Nat) : Option Nat :=
  let unit := Ratio.scaled 1 (exponent - 2) k
  let value := 4 * mantissa * unit.num
  let inside (d : Nat) : Bool :=
    if mantissa % 2 = 0 then low * unit.num ≤ d * unit.den && d * unit.den ≤ high * unit.num
    else low * unit.num < d * unit.den && d * unit.den < high * unit.num
  let below := value / unit.den
  let above := below + 1
  let nearer :=
    let rest := value % unit.den
    if 2 * rest < unit.den then below
    else if unit.den < 2 * rest then above
    else if below % 2 = 0 then below else above
  if inside below && inside above then some nearer
  else if inside below then some below
  else if inside above then some above
  else none

/-- The fewest digits that read back as `mantissa · 2 ^ exponent`, a positive number: the first of
the grids with 1, 2, … 17 digits that has a point in the interval. -/
def shortest (mantissa : Nat) (exponent : Int) : Digits :=
  let leading := (Ratio.scaled mantissa exponent 0).leading
  let (low, high) := readBack mantissa exponent
  let onGrid (n : Nat) : Option Digits :=
    let k := leading - n
    (gridPoint? mantissa exponent k low high).map (Digits.ofNat · k)
  ((List.range 18).findSome? onGrid).getD ⟨['0'], 0⟩

/-- The value rounded to `count` digits, ties to the even one. -/
def rounded (count mantissa : Nat) (exponent : Int) : Digits :=
  let k := (Ratio.scaled mantissa exponent 0).leading - (count - 1 : Nat)
  let r := Ratio.scaled mantissa exponent k
  let below := r.num / r.den
  let rest := r.num % r.den
  let up := r.den < 2 * rest || (r.den == 2 * rest && below % 2 == 1)
  Digits.ofNat (if up then below + 1 else below) k

end ViewMarkup.Decimal
