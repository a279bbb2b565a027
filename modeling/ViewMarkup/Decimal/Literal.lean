import ViewMarkup.Decimal.Binary64
import ViewMarkup.Text.Blank
import ViewMarkup.Text.DecimalDigit

/-!
# Number literals

A number literal is an optional sign, digits with an optional decimal point among or around them,
and an optional exponent. An integer literal is an optional sign and digits. Digits of any script
count. One line feed at the end is passed over.
-/

namespace ViewMarkup.Decimal

open Text

/-- A number as it is written: `± whole.fraction · 10 ^ exponent`, with the digits' values. -/
structure Literal where
  negative : Bool
  whole : List Nat
  fraction : List Nat
  exponent : Int
deriving DecidableEq, Repr

/-- The digits at the start, and what follows them. -/
def takeDigits : List Char → List Nat × List Char
  | [] => ([], [])
  | c :: cs =>
    match digit? c with
    | none => ([], c :: cs)
    | some d => let (ds, rest) := takeDigits cs; (d :: ds, rest)

/-- The number that a list of decimal digits denotes. -/
def ofDigits (ds : List Nat) : Nat := ds.foldl (fun n d => 10 * n + d) 0

/-- An optional sign: whether it is a minus, and what follows it. -/
def takeSign : List Char → Bool × List Char
  | '-' :: cs => (true, cs)
  | '+' :: cs => (false, cs)
  | cs => (false, cs)

/-- Whether a literal may end here: at the end, or before one closing line feed. -/
def isEnd (cs : List Char) : Bool := cs == [] || cs == ['\n']

/-- The exponent part, which may be missing. -/
def exponent? (cs : List Char) : Option Int :=
  match cs with
  | 'e' :: cs | 'E' :: cs =>
    let (negative, cs) := takeSign cs
    let (ds, rest) := takeDigits cs
    if ds.isEmpty || !isEnd rest then none
    else some (if negative then -(ofDigits ds : Int) else ofDigits ds)
  | cs => if isEnd cs then some 0 else none

/-- Reads a number literal that is the whole text. -/
def Literal.read? (s : String) : Option Literal := do
  let (negative, cs) := takeSign s.toList
  let (whole, rest) := takeDigits cs
  let (fraction, rest) :=
    match rest with
    | '.' :: rest => takeDigits rest
    | rest => ([], rest)
  if whole.isEmpty && fraction.isEmpty then none
  else return { negative, whole, fraction, exponent := ← exponent? rest }

/-- The double nearest to a literal; a literal beyond all doubles is infinite. -/
def Literal.toFloat (l : Literal) : Float :=
  withSign l.negative
    (ofDecimal (ofDigits (l.whole ++ l.fraction)) (l.exponent - l.fraction.length))

/-- The sign and the digits of an integer literal that is the whole text. -/
def integerDigits? (s : String) : Option (Bool × List Nat) :=
  let (negative, cs) := takeSign s.toList
  let (ds, rest) := takeDigits cs
  if ds.isEmpty || !isEnd rest then none else some (negative, ds)

/-- The most digits that an integer literal may have, leading zeros included. -/
def maxIntegerDigits : Nat := 4300

/-- The integer with these digits. -/
def signedOfDigits (negative : Bool) (ds : List Nat) : Int :=
  if negative then -(ofDigits ds : Int) else ofDigits ds

end ViewMarkup.Decimal
