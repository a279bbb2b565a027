import ViewMarkup.Failure

/-!
# Colors

A color has four channels of eight bits. Its text form is `#RRGGBB` when it is opaque and
`#AARRGGBB` when it is not: alpha comes first in the text and last in the value.
-/

namespace ViewMarkup

/-- Red, green, blue and opacity; a color is opaque unless alpha says otherwise. -/
structure Color where
  red : UInt8
  green : UInt8
  blue : UInt8
  alpha : UInt8 := 255
deriving DecidableEq, Repr

namespace Color

/-- The color that lets everything through. -/
def clear : Color := { red := 0, green := 0, blue := 0, alpha := 0 }

/-- A number as a channel, if it is in range. -/
def channel? (n : Int) : Option UInt8 :=
  if 0 ≤ n ∧ n ≤ 255 then some (.ofNat n.toNat) else none

/-- The color with the channels given, refused when one is out of range. -/
def ofChannels (red green blue alpha : Int) : Except Invalid Color :=
  match channel? red, channel? green, channel? blue, channel? alpha with
  | some red, some green, some blue, some alpha => .ok { red, green, blue, alpha }
  | _, _, _, _ => .error .colorChannel

/-- One upper-case hexadecimal digit. -/
def hexDigit (n : Nat) : Char := if n < 10 then Char.ofNat (48 + n) else Char.ofNat (55 + n)

/-- Two upper-case hexadecimal digits. -/
def hexPair (c : UInt8) : List Char := [hexDigit (c.toNat / 16), hexDigit (c.toNat % 16)]

/-- The text form of a color. -/
def toHex (c : Color) : String :=
  let rgb := hexPair c.red ++ hexPair c.green ++ hexPair c.blue
  String.ofList ('#' :: if c.alpha = 255 then rgb else hexPair c.alpha ++ rgb)

end Color
end ViewMarkup
