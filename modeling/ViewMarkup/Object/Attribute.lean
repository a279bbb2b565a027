import ViewMarkup.Decimal.Notation
import ViewMarkup.Object.Collection
import ViewMarkup.PropertyPath

/-!
# Attributes

Reading and setting attributes of values, one at a time and along paths. A path may use the names
that properties have in markup as well as the names of attributes.
-/

namespace ViewMarkup

open Text

namespace Scene

/-! ## Attributes that are there as such -/

/-- A part of a number: it counts as a fraction and as a complex number, too. -/
def numberPart? (n : Int) : String → Option Value
  | "real" | "numerator" => some (.int n)
  | "imag" => some (.int 0)
  | "denominator" => some (.int 1)
  | _ => none

/-- A part of a value that is no object. -/
def partOf? : Value → String → Option Value
  | .bool b, attr => numberPart? (if b then 1 else 0) attr
  | .int n, attr => numberPart? n attr
  | .float x, attr =>
    match attr with
    | "real" => some (.float x)
    | "imag" => some (.float 0.0)
    | _ => none
  | .member m, attr =>
    match attr with
    | "name" => some (.text m.name)
    | "value" => some (.int m.value)
    | _ => numberPart? m.value attr
  | .color c, attr =>
    match attr with
    | "red" => some (.int c.red.toNat)
    | "green" => some (.int c.green.toNat)
    | "blue" => some (.int c.blue.toNat)
    | "alpha" => some (.int c.alpha.toNat)
    | _ => none
  | .descriptor d, attr =>
    match attr with
    | "family" => some (.text d.family)
    | "weight" => some (.int d.weight)
    | "slant" => some (.text d.slant)
    | _ => none
  | .font f, attr =>
    match attr with
    | "descriptor" => some (.descriptor f.descriptor)
    | "size" => some (.ofNumber f.size)
    | "family" => some (.text f.descriptor.family)
    | _ => none
  | .image w h, attr =>
    match attr with
    | "size" => some (.tuple [.int w, .int h])
    | "width" => some (.int w)
    | "height" => some (.int h)
    | _ => none
  | .segment s, attr =>
    match attr with
    | "title" => some (.ofText? s.title)
    | "value" => some (.ofText? s.value)
    | "image_name" => some (.ofText? s.imageName)
    | _ => none
  | .pickerRow r, attr =>
    match attr with
    | "title" => some (.text r.title)
    | "value" => some (.ofText? r.value)
    | _ => none
  | .pickerComponent c, attr =>
    match attr with
    | "name" => some (.ofText? c.name)
    | "rows" => some (.list (c.rows.map .pickerRow))
    | _ => none
  | .tableSection s, attr =>
    match attr with
    | "name" => some (.ofText? s.name)
    | "title" => some (.ofText? s.title)
    | "header" => some (.ofObject? s.header)
    | "footer" => some (.ofObject? s.footer)
    | "rows" => some (.list (s.rows.map .object))
    | _ => none
  | .type name, attr =>
    match attr with
    | "__name__" | "__qualname__" => some (.text name)
    | _ => none
  | _, _ => none

/-- The attribute under which every value has its class. -/
def classAttribute : String := "__class__"

/-- An attribute that an object has stored, or one that its class has for all instances. -/
def ownAttribute? (sc : Scene) (id : ObjectId) (attr : String) : Option Value :=
  match sc.store.field? id attr, sc.store.class? id with
  | some v, _ => some v
  | none, none => none
  | none, some cls =>
    if sc.classes.hasOwn cls attr then some (.operation attr) else sc.classes.shared? cls attr

/-- A value that takes new attributes though it is no object. -/
def bearer? : Value → Option Bearer
  | .member m => some (.member m)
  | .image w h => some (.image w h)
  | _ => none

/-- An attribute of a value, if it has it as such. -/
def given? (sc : Scene) (v : Value) (attr : String) : Option Value :=
  if attr = classAttribute then some (.type (sc.typeName v))
  else
    match v with
    | .object id => sc.ownAttribute? id attr
    | v => (partOf? v attr).or ((bearer? v).bind (sc.store.borne? · attr))

/-- An attribute of a value, which has to be there as such. -/
def given (sc : Scene) (v : Value) (attr : String) : Except Failure Value :=
  (sc.given? v attr).elim (.error .noAttribute) .ok

/-! ## Attributes that follow from others -/

/-- The state of a control. -/
def controlState (sc : Scene) (id : ObjectId) : String :=
  if !(sc.stored id "enabled").isTrue then "disabled"
  else if (sc.stored id "highlighted").isTrue then "highlighted"
  else if (sc.stored id "selected").isTrue then "selected"
  else "normal"

/-- The value of the selected segment. -/
def selectedValue (sc : Scene) (id : ObjectId) : Except Failure Value := do
  let selected := sc.stored id "selected_segment_index"
  let some index := selected.number?
    | throw (.mistyped (.unordered "<=" "int" (sc.typeName selected)))
  if !index.isAtLeastZero then return .none
  let segments := sc.stored id "segments"
  if index.isBelow (← sc.length segments) then sc.given (← sc.elementAt segments selected) "value"
  else return .none

/-- The count of a badge as a text, which is empty at zero. -/
def displayText (sc : Scene) (id : ObjectId) : Except Failure Value := do
  let shown := sc.stored id "count"
  let some count := shown.number?
    | throw (.mistyped (.unordered ">" (sc.typeName shown) "int"))
  if count.isAtMostZero || !count.isAtLeastZero then return .text ""
  match shown with
  | .bool _ => return .text "True"
  | .float x => return .text (Decimal.write x)
  | .int n => return .text (toString n)
  | .member m => return .text (toString m.value)
  | _ => return .text ""

/-- The size of the image of a view. -/
def imageSize (sc : Scene) (id : ObjectId) : Except Failure Value :=
  match sc.stored id "image" with
  | .none => .ok (.tuple [.int 0, .int 0])
  | v => sc.given v "size"

/-- An attribute of an instance that follows from others. -/
def computed (sc : Scene) (id : ObjectId) : Computed → Except Failure Value
  | .controlState => .ok (.text (sc.controlState id))
  | .selectedValue => sc.selectedValue id
  | .imageSize => sc.imageSize id
  | .displayText => sc.displayText id

/-! ## Reading -/

/-- An attribute of a value, if it has it. One that follows from others is missing when what it
follows from has no such attribute either. -/
def attribute? (sc : Scene) (v : Value) (attr : String) : Except Failure (Option Value) :=
  match v with
  | .object id =>
    match (sc.store.class? id).bind (sc.classes.computed? · attr) with
    | some c =>
      match sc.computed id c with
      | .ok found => .ok (some found)
      | .error .noAttribute => .ok none
      | .error failure => .error failure
    | none => .ok (sc.given? v attr)
  | v => .ok (sc.given? v attr)

/-- An attribute of a value, which has to be there. -/
def requireAttribute (sc : Scene) (v : Value) (attr : String) : Except Failure Value := do
  match ← sc.attribute? v attr with
  | some found => return found
  | none => throw .noAttribute

/-- Follows the segments of a path. -/
def readSegments (sc : Scene) (path : String) : Value → List String → Except Failure Value
  | v, [] => .ok v
  | v, segment :: rest => do
    match ← sc.attribute? v (sc.attributeNamed v segment) with
    | some next => sc.readSegments path next rest
    | none => throw (.of (.binding (.missing (sc.typeName v) segment path)))

/-- The value at the end of a path. -/
def readPath (sc : Scene) (v : Value) (path : String) : Except Failure Value := do
  let segments ← (pathSegments path).mapError (.of ∘ .binding)
  sc.readSegments path v segments

/-! ## Setting -/

/-- The store with an attribute set of a value that may change. -/
def change (sc : Scene) (v : Value) (attr : String) (new : Value) : Except Failure Store :=
  match v with
  | .object id =>
    match sc.store.type? id with
    | some (.component cls) =>
      if (sc.classes.computed? cls attr).isSome then .error .noAttribute
      else .ok (sc.store.setField id attr new)
    | some (.host _ _ referable) =>
      if !referable && (sc.store.field? id attr).isNone then .error .noAttribute
      else .ok (sc.store.setField id attr new)
    | none => .error .noAttribute
  | v =>
    match bearer? v, partOf? v attr with
    | some b, none => .ok (sc.store.bear b attr new)
    | _, _ => .error .noAttribute

/-- The store with an attribute of a value set. Attributes that follow from others, those that make
up a value, and new attributes of what takes none cannot be set. The class of a value can only be
another class, which a host does not have as a value. Colors and fonts are values that never
change. -/
def setAttribute (sc : Scene) (v : Value) (attr : String) (new : Value) : Except Failure Store :=
  match v with
  | .color _ | .descriptor _ | .font _ | .segment _ | .pickerRow _ => .error .frozen
  | v =>
    if attr = classAttribute then .error (.mistyped (.notClass (sc.typeName new)))
    else sc.change v attr new

/-- Sets the attribute at the end of some segments, all but the last of which have to be there. -/
def writeSegments (sc : Scene) (new : Value) : Value → List String → Except Failure Store
  | _, [] => .ok sc.store
  | v, [last] => sc.setAttribute v (sc.attributeNamed v last) new
  | v, segment :: rest => do
    match ← sc.attribute? v (sc.attributeNamed v segment) with
    | some next => sc.writeSegments new next rest
    | none => throw .noAttribute

/-- Sets the attribute at the end of a path. -/
def writePath (sc : Scene) (v : Value) (path : String) (new : Value) : Except Failure Store := do
  let segments ← (pathSegments path).mapError (.of ∘ .binding)
  sc.writeSegments new v segments

end Scene
end ViewMarkup
