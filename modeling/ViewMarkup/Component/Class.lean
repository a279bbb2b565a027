import ViewMarkup.Component.Capabilities
import ViewMarkup.Component.Linearization
import ViewMarkup.Component.Operation
import ViewMarkup.Component.Property
import ViewMarkup.Object.Blueprint

/-!
# Component classes

A component class says what its instances start with, which properties markup can set, what their
elements may contain and what happens to it. All of it is looked up along the lineage of the class,
and the class nearest to the front decides.
-/

namespace ViewMarkup

/-- What a hook does with what it is given. -/
inductive HookRule where
  | record
  | restrictPlatforms
  | setText
  | addSubview
  | addArranged
  | setContent
  | addRow
  | addSegment
  | addPickerPart
  | addTablePart
deriving DecidableEq, Repr

/-- How a class makes instances for element names with a style. -/
inductive Factory where
  | storesStyle
  | ignoresStyle
  | button
  | box
  | cell
deriving DecidableEq, Repr

/-- Attributes that can be read and not set, since they follow from others. -/
inductive Computed where
  | controlState
  | selectedValue
  | imageSize
  | displayText
deriving DecidableEq, Repr

/-- What a class declares as its capabilities, which may be no capabilities at all. -/
inductive Declared where
  | capabilities (c : Capabilities)
  | other
deriving DecidableEq, Repr

/-- What kind of class it is. A part and a view lay down the attributes of their instances; what a
component starts with comes on top of that. -/
inductive Role where
  | component
  | part
  | view
deriving DecidableEq, Repr

/-- A component class. `unit` names the module that it was defined in; `lineage` starts with the
class itself; `accepts` lists the instructions that its hook takes, if not all; `raises` holds hooks
that fail with a message; `methods` are its operations, and `ownNames` the names of what else the
class itself holds. -/
structure ComponentClass where
  name : String
  role : Role := .component
  unit : String := ""
  lineage : List ClassId
  properties : Option (List Property) := none
  declared : Option Declared := none
  hooks : List (Hook × HookRule) := []
  starts : List (String × Blueprint) := []
  factory : Option Factory := none
  accepts : Option (List String) := none
  raises : List (Hook × String) := []
  computed : List (String × Computed) := []
  methods : List Operation := []
  ownNames : List String := []
deriving Repr

/-- All classes by number. -/
structure Classes where
  all : Array ComponentClass := #[]

namespace Classes

/-- The class with a number. -/
def get? (cs : Classes) (id : ClassId) : Option ComponentClass := cs.all[id]?

/-- The name of a class. -/
def name (cs : Classes) (id : ClassId) : String := ((cs.get? id).map (·.name)).getD ""

/-- The classes of a lineage, the class itself first. -/
def lineage (cs : Classes) (id : ClassId) : List ComponentClass :=
  ((cs.get? id).map (·.lineage)).getD [] |>.filterMap cs.get?

/-- What the first class of the lineage that has something has. -/
def nearest? {α : Type} (cs : Classes) (id : ClassId) (f : ComponentClass → Option α) : Option α :=
  (cs.lineage id).findSome? f

/-- Whether instances of the first class count as instances of the second. -/
def isA (cs : Classes) (id base : ClassId) : Bool :=
  (((cs.get? id).map (·.lineage)).getD []).contains base

/-- The properties of a class with those it takes over. -/
def properties (cs : Classes) (id : ClassId) : PropertyTable :=
  .ofLineage ((cs.lineage id).map fun c => c.properties.getD [])

/-- What a class does for a hook, if it has it, and the name of the class that says so. -/
def hookFrom? (cs : Classes) (id : ClassId) (h : Hook) : Option (String × HookRule) :=
  cs.nearest? id fun c => (c.hooks.find? (·.1 = h)).map fun (_, rule) => (c.name, rule)

/-- What a class does for a hook, if it has it. -/
def hook? (cs : Classes) (id : ClassId) (h : Hook) : Option HookRule :=
  (cs.hookFrom? id h).map (·.2)

/-- How a class makes instances, if it has a factory. -/
def factory? (cs : Classes) (id : ClassId) : Option Factory := cs.nearest? id (·.factory)

/-- How a read-only attribute follows from others, if it is one. -/
def computed? (cs : Classes) (id : ClassId) (attr : String) : Option Computed :=
  cs.nearest? id fun c => (c.computed.find? (·.1 = attr)).map (·.2)

/-- The operation of a class with a name, and the name of the class that provides it. -/
def operation? (cs : Classes) (id : ClassId) (name : String) : Option (String × Operation) :=
  cs.nearest? id fun c => (c.methods.find? (·.name = name)).map (c.name, ·)

/-- Whether a class and not its instances has an attribute. -/
def hasOwn (cs : Classes) (id : ClassId) (attr : String) : Bool :=
  (cs.operation? id attr).isSome || (cs.lineage id).any (·.ownNames.contains attr)

/-- Whether a class is one of the views or builds on one. -/
def isView (cs : Classes) (id : ClassId) : Bool := (cs.lineage id).any (·.role = .view)

/-- The lineage of the nearest class that lays down attributes. -/
def layingDown (cs : Classes) (id : ClassId) : List ComponentClass :=
  match (cs.lineage id).find? (·.role ≠ .component) with
  | some c => c.lineage.filterMap cs.get?
  | none => []

/-- The attributes laid down for the instances of a class, with what they start with. What the most
basic class gives comes first, and a class nearer to the front replaces values at their place. -/
def laidDown (cs : Classes) (id : ClassId) : Table String Blueprint :=
  Table.ofList ((cs.layingDown id).reverse.flatMap (·.starts))

/-- What an instance starts with, when some of the attributes laid down are given. What components
start with comes on top of that. -/
def starts (cs : Classes) (id : ClassId) (given : List (String × Blueprint)) :
    Table String Blueprint :=
  let components := (cs.lineage id).filter (·.role = .component)
  ((cs.laidDown id).putAll given).putAll (components.reverse.flatMap (·.starts))

/-- What instances of a class have under an attribute that was not laid down for them, because
another class of the lineage gives all of its instances the same value. -/
def shared? (cs : Classes) (id : ClassId) (attr : String) : Option Value :=
  cs.nearest? id fun c =>
    if c.role = .component then none
    else (Table.get? c.starts attr).bind Blueprint.fixed?

/-- The capabilities of a class. Each must come with the hook that it calls for. -/
def capabilities (cs : Classes) (id : ClassId) : Except Mistyped Capabilities := do
  let c ←
    match cs.nearest? id (·.declared) with
    | none => pure {}
    | some (.capabilities c) => pure c
    | some .other => throw (.capabilities (cs.name id))
  for h in [Hook.instruction, .raw, .text] do
    if c.uses h && (cs.hook? id h).isNone then
      throw (.hookMissing (cs.name id) h.capability h.name)
  if c.uses .append && (cs.hook? id .append).isNone then throw (.appendMissing (cs.name id))
  return c

/-- A new instance of a class, for which some attributes may be given. -/
def instantiate (cs : Classes) (id : ClassId) (s : Store)
    (given : List (String × Blueprint) := []) : ObjectId × Store :=
  let (new, s) := s.add { type := .component id }
  (new, Blueprint.makeFields (fun _ => .none) new (cs.starts id given) s)

/-- The name of the class of an object. -/
def typeName (cs : Classes) : ObjectType → String
  | .component id => cs.name id
  | .host name _ _ => name

/-- The properties of an object; those of the host have none. -/
def propertiesOf (cs : Classes) : ObjectType → PropertyTable
  | .component id => cs.properties id
  | .host _ _ _ => []

end Classes
end ViewMarkup
