import ViewMarkup.Component.Registry
import ViewMarkup.View.Display
import ViewMarkup.View.Receive

/-!
# Asking views

The operations that a host calls on a view to learn about its titles, segments, rows and sections,
the one that selects a row of a picker, and the hooks called like any other operation.
-/

namespace ViewMarkup

open Text

namespace Value

/-- A number, or nothing. -/
def ofNat? : Option Nat → Value
  | some n => .int n
  | Option.none => .none

end Value

namespace Scene

/-! ## Children -/

/-- The views of a section: its header, its rows and its footer. -/
def sectionViews (sc : Scene) (v : Value) : Except Failure (List Value) := do
  let ends (attr : String) : Except Failure (List Value) := do
    match ← sc.requireAttribute v attr with
    | .none => return []
    | view => return [view]
  let header ← ends "header"
  let rows ← sc.elements (← sc.requireAttribute v "rows")
  return header ++ rows ++ (← ends "footer")

/-- The children that a view arranges, by the rule by which it takes them. -/
def arrangedChildren (sc : Scene) (id : ObjectId) : Except Failure (List Value) := do
  let rule : Option HookRule := (sc.store.class? id).bind fun cls =>
    sc.classes.nearest? cls fun c =>
      ((c.hooks.find? fun h => h.1 = .append && h.2 ≠ .record)).map (·.2)
  match rule with
  | some .addArranged => sc.elements (sc.stored id "arranged_subviews")
  | some .setContent =>
    match sc.stored id "content_view" with
    | .none => return []
    | view => return [view]
  | some .addRow =>
    return (← (← sc.elements (sc.stored id "sections")).mapM sc.sectionViews).flatten
  | some _ => sc.elements (sc.stored id "subviews")
  | none => return []

/-! ## Looking things up -/

/-- The number of the first element that has a value under an attribute, counted on from `n`. -/
def firstWith (sc : Scene) (attr : String) (wanted : Value) :
    (n : Nat) → List Value → Except Failure (Option Nat)
  | _, [] => .ok none
  | n, v :: vs => do
    if (← sc.requireAttribute v attr).same wanted then return some n
    else sc.firstWith attr wanted (n + 1) vs

/-- The number of the first element of a value that has a value under an attribute. -/
def find (sc : Scene) (v : Value) (attr : String) (wanted : Value) :
    Except Failure (Option Nat) := do
  sc.firstWith attr wanted 0 (← sc.elements v)

/-- An attribute of the element at a place. -/
def partAt (sc : Scene) (v place : Value) (attr : String) : Except Failure Value := do
  sc.requireAttribute (← sc.elementAt v place) attr

/-- A value in the name of an attribute. -/
def nameOf (sc : Scene) : Value → String
  | .text s => s
  | .member m => toString m.value
  | v => sc.display v

/-- What a button shows in a state, by default its own: what is set for the state, or else what is
set for the normal one. -/
def shownInState (sc : Scene) (id : ObjectId) (what : String) (state : Value) :
    Except Failure Value := do
  let name := if state.isTrue then sc.nameOf state else sc.controlState id
  match ← sc.requireAttribute (.object id) (name ++ "_" ++ what) with
  | .none => sc.requireAttribute (.object id) ("normal_" ++ what)
  | v => return v

/-- The value of the selected row of a component. -/
def valueForComponent (sc : Scene) (id : ObjectId) (component : Value) : Except Failure Value := do
  match sc.stored id "selected_rows" with
  | .selection rows =>
    match ← sc.selectedAt rows component with
    | none => return .none
    | some row =>
      let rows ← sc.partAt (sc.stored id "components") component "rows"
      sc.partAt rows (.int row) "value"
  | _ => throw .noAttribute

/-- Whether a value is a view of a class, given by its number. -/
def isInstance (sc : Scene) (cls : ClassId) : Value → Bool
  | .object id => (sc.store.class? id).any fun own => sc.classes.isA own cls
  | _ => false

/-- The values of the cells among some rows that are checked. -/
def checkedValues (sc : Scene) (cell : ClassId) (rows : List Value) :
    Except Failure (List Value) := do
  let cells ← rows.filterM fun row => do
    if sc.isInstance cell row then return (← sc.requireAttribute row "checked").isTrue
    else return false
  cells.mapM fun row => sc.requireAttribute row "value"

/-- The values of the checked cells of a section. -/
def valuesForSection (sc : Scene) (cell : ClassId) (id : ObjectId) (place : Value) :
    Except Failure (List Value) := do
  sc.checkedValues cell (← sc.elements (← sc.partAt (sc.stored id "sections") place "rows"))

/-- The answer to an operation that changes nothing, where `owner` is the class that gives it and
`cell` the class of table cells. -/
def answer (sc : Scene) (cell : ClassId) (id : ObjectId) (owner method : String)
    (args : List Value) : Except Failure Value :=
  let segments := sc.stored id "segments"
  let components := sc.stored id "components"
  let sections := sc.stored id "sections"
  match method, args with
  | "markup_children", _ => return .list (← sc.arrangedChildren id)
  | "title_for_state", _ => sc.shownInState id "title" (args.headD .none)
  | "title_color_for_state", _ => sc.shownInState id "title_color" (args.headD .none)
  | "value_for_segment", [i] => sc.partAt segments i "value"
  | "segment_with_value", [v] => return .ofNat? (← sc.find segments "value" v)
  | "number_of_components", _ => return .int (← sc.length components)
  | "number_of_rows", [i] => do
    let parts := if owner = "PickerView" then components else sections
    return .int (← sc.length (← sc.partAt parts i "rows"))
  | "name_for_component", [i] => sc.partAt components i "name"
  | "component_with_name", [v] => return .ofNat? (← sc.find components "name" v)
  | "row_for_value", [v, i] =>
    return .ofNat? (← sc.find (← sc.partAt components i "rows") "value" v)
  | "value_for_component", [i] => sc.valueForComponent id i
  | "number_of_sections", _ => return .int (← sc.length sections)
  | "cell", [i, j] => do sc.elementAt (← sc.partAt sections i "rows") j
  | "name_for_section", [i] => sc.partAt sections i "name"
  | "section_with_name", [v] => return .ofNat? (← sc.find sections "name" v)
  | "value_for_section", [i] => return (← sc.valuesForSection cell id i).headD .none
  | "values_for_section", [i] => return .list (← sc.valuesForSection cell id i)
  | _, _ => .error .noAttribute

/-- A list with the element at a position replaced. -/
def replaceAt (items : List Value) (position : Int) (v : Value) : List Value :=
  items.set (if position < 0 then position + items.length else position).toNat v

/-- What was selected, with a row selected under a key. A host may have put a list in its place. -/
def withSelected (sc : Scene) (selected key : Value) (row : Nat) : Except Failure Value :=
  match selected, key.key? with
  | .selection rows, some k => .ok (.selection (rows.put k row))
  | .list items, some k =>
    if (atPosition? items k.number).isSome then .ok (.list (replaceAt items k.number (.int row)))
    else .error .indexOutOfRange
  | v, _ => .error (.mistyped (.fixedElements (sc.typeName v)))

end Scene

/-! ## Operations -/

/-- What a component is told when a hook is called with some arguments, if it can be told that. -/
def Hook.call? : Hook → List Value → Option Call
  | .instruction, [.text target, .text data] => some (.instruction target data)
  | .text, [.text s] => some (.text s)
  | .append, [.object view] => some (.append view)
  | _, _ => none

namespace Acting

/-- Selects the row with a value in a component of a picker, and says whether there is one. -/
def selectValue (id : ObjectId) (value component : Value) : Acting Value := do
  let rows ← look fun sc => sc.partAt (sc.stored id "components") component "rows"
  match ← look (·.find rows "value" value) with
  | none => return .bool false
  | some row =>
    let selected ← look fun sc => sc.withSelected (sc.stored id "selected_rows") component row
    put id "selected_rows" selected
    return .bool true

/-- Makes another instance of the class of an object, in a style. -/
def create (id : ObjectId) (style : Value) : Acting Value := do
  let sc ← get
  match sc.store.class? id with
  | none => throw .noAttribute
  | some cls =>
    let style := match style with
      | .none => none
      | v => some (sc.nameOf v)
    let (new, store) ← look fun _ => sc.classes.instantiateStyled cls style sc.store
    modify fun sc => { sc with store }
    return .object new

/-- Carries out an operation of an object, where `cell` is the class of table cells. -/
def ask (platform : String) (cell : ClassId) (id : ObjectId) (method : String) (args : List Value) :
    Acting Value := do
  refuseReplaced id method
  let sc ← get
  match (sc.store.class? id).bind (sc.classes.operation? · method) with
  | none =>
    let v ← look (·.requireAttribute (.object id) method)
    throw (.mistyped (.notCallable (sc.typeName v)))
  | some (owner, operation) =>
    look fun _ => (operation.check owner args.length).mapError .mistyped
    match [Hook.instruction, .raw, .text, .append].find? (·.name = method), args with
    | some hook, _ =>
      match hook.call? args with
      | some call =>
        tell platform id call
        return .none
      | none => throw .noAttribute
    | none, [value, component] =>
      if method = "select_value" then selectValue id value component
      else look fun sc => sc.answer cell id owner method args
    | none, [style] =>
      if method = Operation.create.name then create id style
      else look fun sc => sc.answer cell id owner method args
    | none, _ => look fun sc => sc.answer cell id owner method args

end Acting
end ViewMarkup
