import ViewMarkup.Object.Attribute

/-!
# Displayed values

Values as they stand in an outline: texts in quotes, collections in brackets, and records by the
names of their parts. Whether a value is the one that an attribute started with is decided by what
it denotes: a whole number is the same with and without a point, and truth values are numbers.
-/

namespace ViewMarkup

open Text

/-! ## Sameness -/

/-- Whether two numbers are the same number. -/
def Number.same : Number → Number → Bool
  | .int m, .int n => m == n
  | .float x, .float y => x == y
  | .int n, .float x | .float x, .int n => Decimal.toInt? x == some n

/-- Whether two selections have the same rows under the same numbers. -/
def Selection.same (s t : Selection) : Bool :=
  s.length == t.length && s.all fun (k, row) => t.get? k.number == some row

namespace Value

mutual

/-- Whether two values denote the same. Sections of tables and what is not a number are the same
as nothing. -/
def same : Value → Value → Bool
  | .none, .none => true
  | .text s, .text t => s == t
  | .color c, .color d => c == d
  | .descriptor d, .descriptor e => d == e
  | .font f, .font g => f.descriptor == g.descriptor && f.size.same g.size
  | .image w h, .image w' h' => w == w' && h == h'
  | .tuple xs, .tuple ys => sameAll xs ys
  | .list xs, .list ys => sameAll xs ys
  | .segment s, .segment t => s == t
  | .pickerRow r, .pickerRow q => r == q
  | .pickerComponent c, .pickerComponent d => c == d
  | .selection xs, .selection ys => xs.same ys
  | .operation a, .operation b => a == b
  | .type a, .type b => a == b
  | .object a, .object b => a == b
  | v, w =>
    match v.number?, w.number? with
    | some m, some n => m.same n
    | _, _ => false

/-- Whether two lists denote the same, element by element. -/
def sameAll : List Value → List Value → Bool
  | [], [] => true
  | v :: vs, w :: ws => same v w && sameAll vs ws
  | _, _ => false

end

end Value

/-! ## Display -/

/-- A record with its parts. -/
def displayRecord (name : String) (parts : List (String × String)) : String :=
  name ++ "(" ++ joined ", " (parts.map fun (k, v) => k ++ "=" ++ v) ++ ")"

/-- Several values in square brackets. -/
def displayList (items : List String) : String := "[" ++ joined ", " items ++ "]"

/-- A text, or nothing. -/
def displayText? : Option String → String
  | some s => quoted s
  | none => "None"

/-- A number. -/
def displayNumber : Number → String
  | .int n => toString n
  | .float x => Decimal.write x

/-- A truth value. -/
def displayBool (b : Bool) : String := if b then "True" else "False"

/-- A member of an enumeration. -/
def displayMember (m : Member) : String :=
  "<" ++ m.enumeration ++ "." ++ m.name ++ ": " ++ toString m.value ++ ">"

/-- A key. -/
def displayKey : Key → String
  | .int n => toString n
  | .bool b => displayBool b
  | .member m => displayMember m

/-- A descriptor of a font. -/
def displayDescriptor (d : FontDescriptor) : String :=
  displayRecord "FontDescriptor"
    [("family", quoted d.family), ("weight", toString d.weight), ("slant", quoted d.slant)]

/-- A segment. -/
def displaySegment (s : Segment) : String :=
  displayRecord "Segment" [("title", displayText? s.title), ("value", displayText? s.value),
    ("image_name", displayText? s.imageName)]

/-- A row of a picker. -/
def displayPickerRow (r : PickerRow) : String :=
  displayRecord "PickerRow" [("title", quoted r.title), ("value", displayText? r.value)]

/-- A component of a picker. -/
def displayPickerComponent (c : PickerComponent) : String :=
  displayRecord "PickerComponent"
    [("name", displayText? c.name), ("rows", displayList (c.rows.map displayPickerRow))]

/-- A section of a table, where `object` displays a view. -/
def displaySection (object : ObjectId → String) (s : TableSection) : String :=
  displayRecord "TableSection" [("name", displayText? s.name), ("title", displayText? s.title),
    ("header", (s.header.map object).getD "None"), ("footer", (s.footer.map object).getD "None"),
    ("rows", displayList (s.rows.map object))]

namespace Value

mutual

/-- A value as it stands inside of another, where `object` displays an object. -/
def display (object : ObjectId → String) : Value → String
  | .none => "None"
  | .bool b => displayBool b
  | .int n => toString n
  | .float x => Decimal.write x
  | .text s => quoted s
  | .member m => displayMember m
  | .color c =>
    displayRecord "Color" [("red", toString c.red.toNat), ("green", toString c.green.toNat),
      ("blue", toString c.blue.toNat), ("alpha", toString c.alpha.toNat)]
  | .descriptor d => displayDescriptor d
  | .font f =>
    displayRecord "Font"
      [("descriptor", displayDescriptor f.descriptor), ("size", displayNumber f.size)]
  | .image w h => "<image " ++ toString w ++ "x" ++ toString h ++ ">"
  | .list items => displayList (displayAll object items)
  | .tuple [v] => "(" ++ display object v ++ ",)"
  | .tuple items => "(" ++ joined ", " (displayAll object items) ++ ")"
  | .segment s => displaySegment s
  | .pickerRow r => displayPickerRow r
  | .pickerComponent c => displayPickerComponent c
  | .tableSection s => displaySection object s
  | .selection rows =>
    "\x7b" ++ joined ", " (rows.map fun (k, r) => displayKey k ++ ": " ++ toString r) ++ "\x7d"
  | .operation name => "<operation " ++ name ++ ">"
  | .type name => "<class '" ++ name ++ "'>"
  | .object id => object id

/-- Several values as they stand inside of another. -/
def displayAll (object : ObjectId → String) : List Value → List String
  | [] => []
  | v :: vs => display object v :: displayAll object vs

end

end Value

/-- Attributes that the display of a view leaves out. -/
def undisplayed : List String := [
  "layer", "subviews", "normal_image", "highlighted_image", "disabled_image", "selected_image",
  "image", "content_view", "arranged_subviews", "_pending_slot"]

namespace Scene

/-- An object: a built-in view with its attributes, any other by its class. What is inside of its
own display, through the objects around it, is left out. -/
def displayObject (sc : Scene) : (depth : Nat) → (around : List ObjectId) → ObjectId → String
  | 0, _, _ => "..."
  | depth + 1, around, id =>
    let label := "<" ++ sc.typeName (.object id) ++ ">"
    match sc.store.class? id with
    | none => label
    | some cls =>
      if (sc.classes.get? cls).any (·.role = .component) then label
      else if around.contains id then "..."
      else
        let shown := (sc.classes.laidDown cls).keys.filter fun name => !undisplayed.contains name
        displayRecord (sc.classes.name cls) (shown.map fun name =>
          (name, (sc.stored id name).display (sc.displayObject depth (id :: around))))

/-- A value as it stands inside of another. -/
def display (sc : Scene) (v : Value) : String :=
  v.display (sc.displayObject (sc.store.size + 1) [])

end Scene
end ViewMarkup
