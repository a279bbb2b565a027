import ViewMarkup.Decimal.Notation
import ViewMarkup.Value

/-!
# Written values

The written form of a value shows all of it: numbers with the digits that read back, views by the
names that they go by, other objects with their attributes. Two values are told apart exactly by
their written forms.
-/

namespace ViewMarkup

/-- The written form of a value. -/
inductive Written where
  | null
  | bool (b : Bool)
  | int (n : Int)
  | float (digits : String)
  | text (s : String)
  | member (name : String)
  | color (c : Color)
  | descriptor (family weight slant : Written)
  | font (family weight slant size : Written)
  | image (width height : Nat)
  | array (items : List Written)
  | pairs (entries : List (Written × Written))
  | view (name : String)
  | record (cls : String) (fields : List (String × Written))
deriving BEq, Repr

namespace Written

/-- The written form of a number. -/
def ofNumber : Number → Written
  | .int n => .int n
  | .float x => .float (Decimal.write x)

/-- The written form of a font descriptor. -/
def ofDescriptor (d : FontDescriptor) : Written :=
  .descriptor (.text d.family) (.int d.weight) (.text d.slant)

/-- The written form of a descriptor with a size. -/
def ofFontParts (d : FontDescriptor) (size : Written) : Written :=
  .font (.text d.family) (.int d.weight) (.text d.slant) size

/-- The written form of a font. -/
def ofFont (f : Font) : Written := ofFontParts f.descriptor (ofNumber f.size)

/-- A text or nothing. -/
def ofText? : Option String → Written
  | some s => .text s
  | none => .null

/-- The written form of a segment. -/
def ofSegment (s : Segment) : Written :=
  .record "Segment" [("title", ofText? s.title), ("value", ofText? s.value),
    ("image_name", ofText? s.imageName)]

/-- The written form of a picker row. -/
def ofPickerRow (r : PickerRow) : Written :=
  .record "PickerRow" [("title", .text r.title), ("value", ofText? r.value)]

/-- The written form of a picker component. -/
def ofPickerComponent (c : PickerComponent) : Written :=
  .record "PickerComponent" [("name", ofText? c.name), ("rows", .array (c.rows.map ofPickerRow))]

/-- The written form of a table section, where `object` writes an object. -/
def ofSection (object : ObjectId → Written) (s : TableSection) : Written :=
  .record "TableSection" [("name", ofText? s.name), ("title", ofText? s.title),
    ("header", (s.header.map object).getD .null), ("footer", (s.footer.map object).getD .null),
    ("rows", .array (s.rows.map object))]

/-- The written form of a key. -/
def ofKey : Key → Written
  | .int n => .int n
  | .bool b => .bool b
  | .member m => .member (m.enumeration ++ "." ++ m.name)

/-- The written form of a selection, in the order of the keys. -/
def ofSelection (rows : Selection) : Written :=
  .pairs ((rows.mergeSort fun a b => a.1.number ≤ b.1.number).map fun (k, r) => (ofKey k, .int r))

mutual

/-- The written form of a value, where `object` writes an object. -/
def ofValue (object : ObjectId → Written) : Value → Written
  | .none => .null
  | .bool b => .bool b
  | .int n => .int n
  | .float x => .float (Decimal.write x)
  | .text s => .text s
  | .member m => .member (m.enumeration ++ "." ++ m.name)
  | .color c => .color c
  | .descriptor d => ofDescriptor d
  | .font f => ofFont f
  | .image w h => .image w h
  | .list items => .array (ofValues object items)
  | .tuple items => .array (ofValues object items)
  | .segment s => ofSegment s
  | .pickerRow r => ofPickerRow r
  | .pickerComponent c => ofPickerComponent c
  | .tableSection s => ofSection object s
  | .selection rows => ofSelection rows
  | .operation _ => .record "method" []
  | .type _ => .record "type" []
  | .object id => object id

/-- The written forms of several values. -/
def ofValues (object : ObjectId → Written) : List Value → List Written
  | [] => []
  | v :: vs => ofValue object v :: ofValues object vs

end

/-- The written form of a value that refers to no object. -/
def ofPlain (v : Value) : Written := ofValue (fun _ => .null) v

end Written
end ViewMarkup
