import ViewMarkup.Color.Name
import ViewMarkup.Text.Case

/-!
# Color literals

A color is written as `#RRGGBB`, as `#AARRGGBB`, as `clear` or `transparent`, or by name; letter
case does not matter. One line feed may close a literal in hexadecimal digits. Only the length
*with* that line feed tells the two forms apart, so an eight-digit literal that is closed by one is
read by its first six digits.
-/

namespace ViewMarkup

open Text

/-- The value of a hexadecimal digit. -/
def hexValue? (c : Char) : Option Nat :=
  if '0' ≤ c ∧ c ≤ '9' then some (c.toNat - 48)
  else if 'a' ≤ c ∧ c ≤ 'f' then some (c.toNat - 87)
  else if 'A' ≤ c ∧ c ≤ 'F' then some (c.toNat - 55)
  else none

/-- A text without the one line feed that may close it. -/
def withoutClosingFeed (cs : List Char) : List Char :=
  if cs.getLast? = some '\n' then cs.dropLast else cs

namespace Color

/-- The channels that a list of hexadecimal digits denotes, two digits each; a line feed ends it. -/
def pairs : List Nat → List UInt8
  | a :: b :: rest => .ofNat (16 * a + b) :: pairs rest
  | _ => []

/-- Whether the characters are `#` and six or eight hexadecimal digits, perhaps closed by a line
feed. -/
def isHex : List Char → Bool
  | '#' :: cs =>
    let digits := withoutClosingFeed cs
    (digits.length == 6 || digits.length == 8) && digits.all fun c => (hexValue? c).isSome
  | _ => false

/-- The color that hexadecimal digits denote. -/
def ofHex? (cs : List Char) : Option Color :=
  if !isHex cs then none
  else
    let digits := cs.drop 1
    match pairs (digits.filterMap hexValue?), digits.length with
    | [alpha, red, green, blue], 8 => some { red, green, blue, alpha }
    | red :: green :: blue :: _, _ => some { red, green, blue }
    | _, _ => none

/-- Whether the text may be looked up among the color names: an ASCII letter, then ASCII letters
and digits. -/
def isName : List Char → Bool
  | [] => false
  | c :: cs => c.isAlpha && cs.all Char.isAlphanum

/-- Reads a color literal. -/
def read (raw : String) : Except DecodeFault Color :=
  match ofHex? raw.toList with
  | some c => .ok c
  | none =>
    let lowered := lower raw
    if lowered = "clear" ∨ lowered = "transparent" then .ok clear
    else
      match if isName raw.toList then named? lowered else none with
      | some c => .ok c
      | none => .error (.notColor raw)

end Color
end ViewMarkup
