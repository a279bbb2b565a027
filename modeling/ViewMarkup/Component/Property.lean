import ViewMarkup.Enumeration
import ViewMarkup.Failure
import ViewMarkup.Table
import ViewMarkup.Text.Blank
import ViewMarkup.Text.Case
import ViewMarkup.Text.Split

/-!
# Declared properties

A component class declares which of its attributes markup can set, under which name and with which
kind of value. A class takes over the declarations of the classes that it builds on.
-/

namespace ViewMarkup

open Text

/-- What kind of value a property takes. -/
inductive Kind where
  | bool
  | int
  | float
  | string
  | color
  | font
  | fontDescriptor
  | enumeration
  | image
  | object
  | other (name : String)
deriving DecidableEq, Repr

/-- The kinds with names of their own. -/
def namedKinds : Table String Kind := [
  ("bool", .bool), ("int", .int), ("float", .float), ("string", .string), ("color", .color),
  ("font", .font), ("font_descriptor", .fontDescriptor), ("enum", .enumeration),
  ("image", .image), ("object", .object)]

/-- The kind with a name; a name that is not known stays a kind that nothing can be read as. -/
def Kind.named (name : String) : Kind := (namedKinds.get? name).getD (.other name)

/-- The name of a kind. -/
def Kind.name : Kind → String
  | .bool => "bool"
  | .int => "int"
  | .float => "float"
  | .string => "string"
  | .color => "color"
  | .font => "font"
  | .fontDescriptor => "font_descriptor"
  | .enumeration => "enum"
  | .image => "image"
  | .object => "object"
  | .other name => name

/-- One property: its name in markup, the kind of its value, the attribute that is its target, and
whether markup may set it at all. -/
structure Property where
  name : String
  kind : Kind
  target : String
  enumeration : Option Enumeration := none
  settable : Bool := true
deriving DecidableEq, Repr

/-- A property with its attribute named after it unless one is given. Nested objects are reached
through their own properties and never set. -/
def Property.make (name : String) (kind : Kind) (target : String)
    (enumeration : Option Enumeration) (settable : Bool) : Except Invalid Property :=
  if isBlankText name || hasChar '.' name then .error (.propertyName name)
  else if kind = .enumeration ∧ enumeration.isNone then .error (.enumProperty name)
  else
    .ok {
      name, kind, enumeration
      target := if target.isEmpty then snakeCase name else target
      settable := settable && kind ≠ .object }

/-- Properties by name. -/
abbrev PropertyTable := Table String Property

/-- The properties of a class whose lineage (the class first, the most basic class last) declares
the lists given. A later declaration of a name replaces an earlier one at its place, so the class
nearest to the front wins. -/
def PropertyTable.ofLineage (declared : List (List Property)) : PropertyTable :=
  Table.ofList (declared.reverse.flatten.map fun p => (p.name, p))

end ViewMarkup
