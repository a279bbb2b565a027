import ViewMarkup.Component.Property
import ViewMarkup.Literal
import ViewMarkup.Value

/-!
# Decoding attribute texts

A decoder knows a table of named colors and a table of named constants. Reading a text as a value of
some kind either gives the value or says which resource has to be fetched for it.

## Main results

- `followAliases` ends for every table: the names still to be visited become fewer.
-/

namespace ViewMarkup

open Text Decimal

/-- The named colors and constants that texts may refer to. -/
structure Decoder where
  colors : Table String String := []
  constants : Table String Number := []

/-- The constants that are always there; given ones win over them. -/
def layoutPriorities : Table String Number := [
  ("required", .float 1000.0), ("defaultHigh", .float 750.0), ("defaultLow", .float 250.0),
  ("fittingSizeLevel", .float 50.0)]

/-- The decoder with the tables given and the layout priorities. -/
def Decoder.make (colors : Table String String) (constants : Table String Number) : Decoder :=
  { colors, constants := layoutPriorities.putAll constants }

/-- A number as a double, which a very large integer has none of. -/
def Number.toFloat : Number → Except Failure Float
  | .int n => (ofInt? n).elim (.error .numberTooLarge) .ok
  | .float x => .ok x

/-- What an attribute text stands for: a value, or something to be fetched. -/
inductive Reading where
  | value (v : Value)
  | localized (raw key : String)
  | picture (name : String)
deriving Repr

/-- The constant as an integer, if it is one. -/
def Number.toInteger? : Number → Except Failure (Option Int)
  | .int n => (Number.int n).toFloat.map fun _ => some n
  | .float x => .ok (toInt? x)

namespace Decoder

/-- Reads an integer literal, or the name of a constant that is a whole number. -/
def readInt (d : Decoder) (raw : String) : Except Failure Int :=
  let token := trim raw
  match readInteger? token with
  | some n => n.mapError .invalid
  | none => do
    match ← (d.constants.get? token).elim (pure none) Number.toInteger? with
    | some n => pure n
    | none => .error (.of (.decode (.notInteger raw)))

/-- Reads a number literal, or the name of a constant. -/
def readFloat (d : Decoder) (raw : String) : Except Failure Float :=
  let token := trim raw
  match Literal.read? token with
  | some l => .ok l.toFloat
  | none =>
    match d.constants.get? token with
    | some n => n.toFloat
    | none => .error (.of (.decode (.notNumber raw)))

/-- Follows a name through a table of aliases up to a text that is no name in it. `unvisited` is the
table without the names in `seen`. -/
def followAliases (unvisited : Table String String) (seen : List String) (token : String) :
    Except DecodeFault String :=
  if token ∈ seen then .error (.aliasCycle (seen ++ [token]))
  else
    match _h : unvisited.get? token with
    | none => .ok token
    | some next => followAliases (unvisited.erase token) (seen ++ [token]) (trim next)
termination_by unvisited.length
decreasing_by exact Table.length_erase_lt _h

/-- Reads a color, through the table of named colors if the text is a name in it. -/
def readColor (d : Decoder) (raw : String) : Except DecodeFault Color := do
  Color.read (← followAliases d.colors [] (trim raw))

/-- What a text stands for: a marker at the start makes it a key of the string table, and a doubled
marker stands for one. -/
def readText (raw : String) : Reading :=
  match raw.toList with
  | '@' :: '@' :: cs => .value (.text (String.ofList ('@' :: cs)))
  | '@' :: c :: cs => .localized raw (String.ofList (c :: cs))
  | _ => .value (.text raw)

/-- Reads a text as a value of a kind. -/
def read (d : Decoder) (raw : String) (kind : Kind) (enumeration : Option Enumeration) :
    Except Failure Reading :=
  let fault {α : Type} (r : Except DecodeFault α) : Except Failure α := r.mapError (.of ∘ .decode)
  match kind with
  | .string => .ok (readText raw)
  | .bool => fault ((readBool raw).map (.value ∘ .bool))
  | .int => (d.readInt raw).map (.value ∘ .int)
  | .float => (d.readFloat raw).map (.value ∘ .float)
  | .color => fault ((d.readColor raw).map (.value ∘ .color))
  | .font => (Font.read (trim raw)).map (.value ∘ .font)
  | .fontDescriptor => (FontDescriptor.read (trim raw)).map (.value ∘ .descriptor)
  | .enumeration =>
    match enumeration with
    | none => .error (.of (.decode .noEnumeration))
    | some e => fault ((readMember raw e).map (.value ∘ .member))
  | .image | .object | .other _ => .error (.of (.decode (.notLiteral kind.name)))

/-- A failure to read a property's text names the property. Only failures of reading and refused
values do; others pass as they are. -/
def inProperty (name : String) : Failure → Failure
  | .markup (.decode why) _ => .of (.decode (.inProperty name why))
  | .invalid why => .of (.decode (.refused name why))
  | failure => failure

/-- Reads the text given for a property. A picture is named by the trimmed text. -/
def readProperty (d : Decoder) (p : Property) (raw : String) : Except Failure Reading :=
  if p.kind = .image then .ok (.picture (trim raw))
  else (d.read raw p.kind p.enumeration).mapError (inProperty p.name)

end Decoder
end ViewMarkup
