import ViewMarkup.Decimal.Literal
import ViewMarkup.Failure
import ViewMarkup.Text.Case
import ViewMarkup.Text.Split

/-!
# Fonts

A font is a descriptor (family, weight, slant) with a size. It is written as a bare size, as the
name of a text style, or as `Family-Style,Size`, where the style may be missing. The size starts
after the last comma and the style after the last hyphen, so a family may contain both.
-/

namespace ViewMarkup

open Text Decimal

/-- A number as it was given: whole or not. -/
inductive Number where
  | int (n : Int)
  | float (x : Float)
deriving Repr

/-- Whether the number is zero or below; what is not a number is neither. -/
def Number.isAtMostZero : Number → Bool
  | .int n => n ≤ 0
  | .float x => x ≤ 0.0

/-- Whether a number is zero or above; what is not a number is neither. -/
def Number.isAtLeastZero : Number → Bool
  | .int n => 0 ≤ n
  | .float x => 0.0 ≤ x

/-- Whether a number is below a count; what is not a number is not. -/
def Number.isBelow (count : Nat) : Number → Bool
  | .int n => n < count
  | .float x => x < count.toFloat

/-- Which letters a font has. The slant is a word; the literals know `regular` and `italic`. -/
structure FontDescriptor where
  family : String := "System"
  weight : Int := 400
  slant : String := "regular"
deriving DecidableEq, Repr

/-- A descriptor with a size. -/
structure Font where
  descriptor : FontDescriptor := {}
  size : Number := .float 14.0
deriving Repr

/-- A descriptor whose parts are in range. -/
def FontDescriptor.make (family : String) (weight : Int) (slant : String) :
    Except Invalid FontDescriptor :=
  if isBlankText family then .error .fontFamily
  else if weight < 1 ∨ 1000 < weight then .error .fontWeight
  else .ok { family, weight, slant }

/-- A font whose size is in range. -/
def Font.make (descriptor : FontDescriptor) (size : Number) : Except Invalid Font :=
  if size.isAtMostZero then .error .fontSize else .ok { descriptor, size }

/-- The styles that may follow a family, with weight and slant. -/
def fontStyles : List (String × Int × String) := [
  ("regular", 400, "regular"), ("light", 300, "regular"), ("medium", 500, "regular"),
  ("semibold", 600, "regular"), ("bold", 700, "regular"), ("italic", 400, "italic"),
  ("bolditalic", 700, "italic")]

/-- The text styles that stand for a whole font, with weight and size. -/
def textStyles : List (String × Int × Float) := [
  ("system", 400, 14.0), ("systembold", 700, 14.0), ("body", 400, 17.0), ("headline", 600, 17.0),
  ("subheadline", 400, 15.0), ("footnote", 400, 13.0), ("caption", 400, 12.0),
  ("title", 400, 28.0)]

/-- The family before the last hyphen and the style after it, if that is a family with a style. -/
def familyAndStyle? (cs : List Char) : Option (String × Int × String) :=
  match cutLast? '-' cs with
  | none => none
  | some ([], _) => none
  | some (family, style) =>
    (fontStyles.lookup (lower (String.ofList style))).map fun (weight, slant) =>
      (String.ofList family, weight, slant)

/-- Reads `Family` or `Family-Style`. -/
def FontDescriptor.read (raw : String) : Except Failure FontDescriptor :=
  if raw.isEmpty then .error (.of (.decode .noFamily))
  else
    let (family, weight, slant) := (familyAndStyle? raw.toList).getD (raw, 400, "regular")
    (FontDescriptor.make family weight slant).mapError .invalid

/-- Reads the size of a font: a number literal above zero. -/
def readFontSize (raw : String) : Except DecodeFault Float :=
  match Literal.read? raw with
  | none => .error (.notFontSize raw)
  | some literal => if literal.toFloat ≤ 0.0 then .error .sizeNotPositive else .ok literal.toFloat

/-- The font of a descriptor with a size still to be read. -/
def FontDescriptor.withSize (descriptor : FontDescriptor) (size : String) :
    Except Failure Font := do
  let size ← (readFontSize size).mapError (.of ∘ .decode)
  (Font.make descriptor (.float size)).mapError .invalid

/-- Reads a font. -/
def Font.read (raw : String) : Except Failure Font :=
  if (Literal.read? raw).isSome then FontDescriptor.withSize {} raw
  else
    match textStyles.lookup (lower raw) with
    | some (weight, size) => do
      let descriptor ← (FontDescriptor.make "System" weight "regular").mapError .invalid
      (Font.make descriptor (.float size)).mapError .invalid
    | none =>
      match cutLast? ',' raw.toList with
      | none => .error (.of (.decode (.notFont raw)))
      | some (name, size) =>
        let name := trim (String.ofList name)
        if name.isEmpty then .error (.of (.decode (.notFont raw)))
        else do
          let descriptor ← FontDescriptor.read name
          descriptor.withSize (trim (String.ofList size))

end ViewMarkup
