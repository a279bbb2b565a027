import ViewMarkup.Component.Class

/-!
# Defining component classes

A definition names its bases; the class made from it gets its lineage, its checked properties and
the record of events that every such component starts with.
-/

namespace ViewMarkup

/-- A property as it is given. -/
structure GivenProperty where
  name : String
  kind : Kind
  target : String := ""
  enumeration : Option Enumeration := none
  settable : Bool := true

/-- Checks a property. -/
def GivenProperty.check (p : GivenProperty) : Except Invalid Property :=
  Property.make p.name p.kind p.target p.enumeration p.settable

/-- Checks the properties that a class declares, if it declares any. -/
def checkDeclared : Option (List GivenProperty) → Except Invalid (Option (List Property))
  | none => .ok none
  | some given => (given.mapM GivenProperty.check).map some

/-- A component class as it is given, with the numbers of its bases. -/
structure ClassDefinition where
  name : String
  unit : String := ""
  bases : List ClassId := []
  properties : Option (List GivenProperty) := none
  declared : Option Declared := none
  hooks : List Hook := []
  starts : List (String × Blueprint) := []
  hasFactory : Bool := false
  accepts : Option (List String) := none
  raises : List (Hook × String) := []

/-- The operations of the class. -/
def ClassDefinition.methods (d : ClassDefinition) : List Operation :=
  d.hooks.map Hook.operation ++ (if d.hasFactory then [.create] else [])

/-- The names of what else the class itself holds. -/
def ClassDefinition.ownNames (d : ClassDefinition) : List String :=
  (if d.properties.isSome then ["MARKUP_PROPERTIES"] else []) ++
    (if d.declared.isSome then ["MARKUP_CAPABILITIES"] else [])

/-- The first element that occurs twice. -/
def firstRepeated? : List ClassId → Option ClassId
  | [] => none
  | x :: xs => if xs.contains x then some x else firstRepeated? xs

/-- The lineage of a class with some bases. Behind every lineage stands what all classes build on,
which has no number. -/
def Classes.lineageOn (cs : Classes) (new : ClassId) (bases : List ClassId) :
    Except Mistyped (List ClassId) :=
  match firstRepeated? bases with
  | some b => .error (.duplicateBase (cs.name b))
  | none =>
    let withLineage := bases.map fun b =>
      (some b, ((cs.get? b).map (·.lineage)).getD [b] |>.map some |>.concat none)
    match Component.linearize (some new) withLineage with
    | .ok lineage => .ok (lineage.filterMap id)
    | .error stuck => .error (.noLinearization (stuck.map fun c => c.elim "object" cs.name))

/-- The classes with one more, and its number. Its properties are checked first. -/
def Classes.define (cs : Classes) (d : ClassDefinition) : Except Failure (ClassId × Classes) := do
  let new := cs.all.size
  let properties ← (checkDeclared d.properties).mapError .invalid
  let lineage ← (cs.lineageOn new d.bases).mapError .mistyped
  let c : ComponentClass := {
    name := d.name
    unit := d.unit
    lineage, properties
    declared := d.declared
    hooks := d.hooks.map (·, .record)
    starts := ("events", .list []) :: d.starts
    factory := if d.hasFactory then some .storesStyle else none
    accepts := d.accepts
    raises := d.raises
    methods := d.methods
    ownNames := d.ownNames }
  return (new, { all := cs.all.push c })

end ViewMarkup
