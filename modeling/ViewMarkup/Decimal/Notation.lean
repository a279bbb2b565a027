import ViewMarkup.Decimal.Shortest

/-!
# Notation of numbers

A number is written positionally while its decimal exponent lies in a window, and with an exponent
outside of it. The exponent has a sign and at least two digits.
-/

namespace ViewMarkup.Decimal

/-- How digits are laid out: the window of exponents written positionally (the upper end left out)
and whether a whole number keeps a decimal point and a zero. -/
structure Layout where
  low : Int
  high : Int
  keepsPoint : Bool

/-- The digits with the decimal point at its place. -/
def positional (l : Layout) (d : Digits) : List Char :=
  match d.exponent with
  | .negSucc e => '0' :: '.' :: (List.replicate e '0' ++ d.digits)
  | .ofNat e =>
    let whole := d.digits.take (e + 1)
    let padded := whole ++ List.replicate (e + 1 - whole.length) '0'
    match d.digits.drop (e + 1) with
    | [] => if l.keepsPoint then padded ++ ['.', '0'] else padded
    | fraction => padded ++ '.' :: fraction

/-- The digits with the point after the first one, and the exponent. -/
def scientific (d : Digits) : List Char :=
  let mantissa :=
    match d.digits with
    | [] => ['0']
    | [c] => [c]
    | c :: cs => c :: '.' :: cs
  let size := (Nat.repr d.exponent.natAbs).toList
  let padded := if size.length < 2 then '0' :: size else size
  mantissa ++ 'e' :: (if d.exponent < 0 then '-' else '+') :: padded

/-- The digits in the notation that their exponent calls for. -/
def Layout.write (l : Layout) (d : Digits) : List Char :=
  if l.low ≤ d.exponent ∧ d.exponent < l.high then positional l d else scientific d

/-- A double written in a layout, where `digits` chooses the digits of a positive number. -/
def writeWith (l : Layout) (digits : Nat → Int → Digits) (x : Float) : String :=
  match parts x with
  | .nan => "nan"
  | .infinite negative => if negative then "-inf" else "inf"
  | .finite negative m e =>
    let d := if m = 0 then ⟨['0'], 0⟩ else digits m e
    String.ofList ((if negative then ['-'] else []) ++ l.write d)

/-- Numbers in answers and outlines: positional from 10⁻⁴ up to below 10¹⁶, always with a point. -/
def fullLayout : Layout := ⟨-4, 16, true⟩

/-- Font sizes in outlines: six digits, positional from 10⁻⁴ up to below 10⁶, no closing zeros. -/
def compactLayout : Layout := ⟨-4, 6, false⟩

/-- A double with the fewest digits that read back as it. -/
def write (x : Float) : String := writeWith fullLayout shortest x

/-- A double with at most six significant digits. -/
def writeCompact (x : Float) : String := writeWith compactLayout (rounded 6) x

end ViewMarkup.Decimal
