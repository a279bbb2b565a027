import ViewMarkup.Failure
import ViewMarkup.Position
import ViewMarkup.Value

/-!
# Pickers and segments

A picker has columns, called components, of rows. They are declared one after the other: a row goes
to the component declared last, and rows before any component to one without a name. A selection
remembers the number of a row for the number of a component.

## Main results

- `Picker.addPart_selected`: declaring components and rows keeps the selection.
-/

namespace ViewMarkup

/-! ## Segments -/

/-- The segment that a raw element declares: it has a title or an image. -/
def Segment.ofAttributes (attributes : Table String String) : Except DecodeFault Segment :=
  if !attributes.has "title" && !attributes.has "image" then .error .segmentIncomplete
  else
    .ok {
      title := attributes.get? "title"
      value := attributes.get? "value"
      imageName := attributes.get? "image" }

/-! ## Pickers -/

/-- What a picker shows and what is selected in it. -/
structure Picker where
  components : List PickerComponent := []
  selected : Selection := []

namespace Picker

/-- The components with a row added to the last one. -/
def addRow (row : PickerRow) : List PickerComponent → List PickerComponent
  | [] => [{ rows := [row] }]
  | [c] => [{ c with rows := c.rows ++ [row] }]
  | c :: cs => c :: addRow row cs

/-- The picker with what a raw element declares. -/
def addPart (p : Picker) (cls name : String) (attributes : Table String String) :
    Except Fault Picker :=
  match name with
  | "component" =>
    .ok { p with components := p.components ++ [{ name := attributes.get? "name" }] }
  | "row" =>
    match attributes.get? "title" with
    | none => .error (.decode .rowIncomplete)
    | some title =>
      .ok { p with components := addRow ⟨title, attributes.get? "value"⟩ p.components }
  | _ => .error (.element (.rawRefused cls name))

/-- The number of the first row of a component that has a value. -/
def rowWithValue? (c : PickerComponent) (value : Option String) : Option Nat :=
  c.rows.findIdx? (·.value == value)

/-- Selects the row with a value in a component, and says whether there is one. -/
def select (p : Picker) (value : Option String) (component : Key) : Option (Bool × Picker) :=
  (atPosition? p.components component.number).map fun c =>
    match rowWithValue? c value with
    | some row => (true, { p with selected := p.selected.put component row })
    | none => (false, p)

/-- Declaring components and rows keeps the selection. -/
theorem addPart_selected {p q : Picker} {cls name : String} {attributes : Table String String}
    (h : p.addPart cls name attributes = .ok q) : q.selected = p.selected := by
  unfold addPart at h
  split at h
  · cases h
    rfl
  · split at h
    · cases h
    · cases h
      rfl
  · cases h

end Picker
end ViewMarkup
