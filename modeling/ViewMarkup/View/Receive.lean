import ViewMarkup.Object.Attribute
import ViewMarkup.View.Ending
import ViewMarkup.View.Picker
import ViewMarkup.View.Sections

/-!
# What components do with what they are told

A component is told of instructions, raw elements, text and finished child views, one at a time,
through the hooks of its class. What it does changes its attributes, one after the other. The list
in an attribute may hold what a host has put there; a view goes on behind that.

## Main results

- `knownSections_ofSections`, `knownComponents_ofComponents`: what a view has put into a list is
  found in it again.
-/

namespace ViewMarkup

open Text

/-- What a component is told. -/
inductive Call where
  | instruction (target data : String)
  | raw (name : String) (attributes : Table String String)
  | text (s : String)
  | append (view : ObjectId)
deriving DecidableEq, Repr

/-- The hook that a call goes through. -/
def Call.hook : Call → Hook
  | .instruction _ _ => .instruction
  | .raw _ _ => .raw
  | .text _ => .text
  | .append _ => .append

/-! ## Platforms -/

/-- Other names of platforms. -/
def platformAliases : Table String String :=
  [("macos", "darwin"), ("osx", "darwin"), ("win", "windows")]

/-- The platforms that an instruction lists. -/
def platformsNamed (data : String) : List String :=
  (Text.words (lower data)).map fun name => (platformAliases.get? name).getD name

/-! ## Parts in lists -/

/-- The section that a value is. -/
def Value.section? : Value → Option TableSection
  | .tableSection s => some s
  | _ => Option.none

/-- The component of a picker that a value is. -/
def Value.component? : Value → Option PickerComponent
  | .pickerComponent c => some c
  | _ => Option.none

/-- The sections at the end of a list, and what stands in front of them. -/
def knownSections (items : List Value) : List Value × List TableSection :=
  Ending.cut Value.section? items

/-- The components of a picker at the end of a list, and what stands in front of them. -/
def knownComponents (items : List Value) : List Value × List PickerComponent :=
  Ending.cut Value.component? items

theorem knownSections_ofSections (ss : List TableSection) :
    knownSections (ss.map Value.tableSection) = ([], ss) :=
  Ending.cut_map (f := Value.tableSection) (fun _ => rfl) ss

theorem knownComponents_ofComponents (cs : List PickerComponent) :
    knownComponents (cs.map Value.pickerComponent) = ([], cs) :=
  Ending.cut_map (f := Value.pickerComponent) (fun _ => rfl) cs

/-! ## Acting -/

/-- What is done to objects may fail, and keeps what was done before it failed. -/
abbrev Acting := ExceptT Failure (StateM Scene)

namespace Acting

/-- What fails or succeeds without changing anything. -/
def look {α : Type} (f : Scene → Except Failure α) : Acting α := do
  match f (← get) with
  | .ok x => return x
  | .error failure => throw failure

/-- Sets an attribute of an object, whatever it is. -/
def put (id : ObjectId) (attr : String) (v : Value) : Acting Unit :=
  modify fun sc => { sc with store := sc.store.setField id attr v }

/-- Sets an attribute of a value, if it can be set. -/
def setAttribute (v : Value) (attr : String) (new : Value) : Acting Unit := do
  let store ← look fun sc => sc.setAttribute v attr new
  modify fun sc => { sc with store }

/-- The list that an object has stored under an attribute. -/
def listAt (id : ObjectId) (attr : String) : Acting (List Value) := do
  match (← get).store.field? id attr with
  | some (.list items) => return items
  | _ => throw .noAttribute

/-- Adds an element to a list that an object has stored. -/
def push (id : ObjectId) (attr : String) (v : Value) : Acting Unit := do
  put id attr (.list ((← listAt id attr) ++ [v]))

/-! ## Recording components -/

/-- Keeps a child view of a recording component, which has no list of them before the first. -/
def keepChild (id view : ObjectId) : Acting Unit := do
  if ((← get).store.field? id "children").isNone then put id "children" (.list [])
  push id "children" (.object view)

end Acting

namespace Scene

/-- How many events a component has recorded. -/
def eventCount (sc : Scene) (id : ObjectId) : Nat :=
  match sc.store.field? id "events" with
  | some (.list items) => items.length
  | _ => 0

/-- How a call is recorded. Of a child view its class, the number of events that it has recorded
itself and its title are kept. -/
def recordOf (sc : Scene) : Call → Value
  | .instruction target data => .list [.text "instruction", .text target, .text data]
  | .raw name attributes =>
    .list [.text "raw", .text name,
      .list (attributes.map fun (k, v) => .list [.text k, .text v])]
  | .text s => .list [.text "text", .text s]
  | .append view =>
    .list [.text "append", .text (sc.typeName (.object view)), .int (sc.eventCount view),
      sc.stored view "title"]

/-- The place that a table has announced for its next view. -/
def announcedSlot (sc : Scene) (id : ObjectId) : Slot :=
  match sc.stored id "_pending_slot" with
  | .text "header" => .header
  | .text "footer" => .footer
  | _ => .row

/-- Whether a section that a host has put into a table is begun. -/
def isBegunSection (sc : Scene) (v : Value) : Except Failure Bool :=
  ["rows", "header", "footer", "name", "title"].anyM fun attr => do
    return (← sc.requireAttribute v attr).isTrue

end Scene

/-- Why a class refuses a call that its hook could take. -/
def refusal? (c : ComponentClass) (call : Call) : Option Failure :=
  match c.raises.find? (·.1 = call.hook), call, c.accepts with
  | some (_, message), _, _ => some (.invalid (.fromComponent message))
  | none, .instruction target _, some accepted =>
    if accepted.contains target then none
    else some (.of (.instruction (.rejected c.name target)))
  | none, _, _ => none

namespace Acting

/-- What a recording component does: it keeps child views, and a record of every call. -/
def record (id : ObjectId) (cls : ClassId) (call : Call) : Acting Unit := do
  let sc ← get
  if let some failure := (sc.classes.get? cls).bind (refusal? · call) then throw failure
  let event := sc.recordOf call
  if let .append view := call then keepChild id view
  push id "events" event

/-! ## Views -/

/-- Restricts a view to some platforms: on others it is hidden. -/
def restrict (platform : String) (id : ObjectId) (target data : String) : Acting Unit := do
  if target ≠ "platform" then
    throw (.of (.instruction (.refused ((← get).typeName (.object id)) target)))
  match platformsNamed data with
  | [] => throw (.of (.instruction .noPlatform))
  | names =>
    put id "platforms" (.tuple (names.map .text))
    if !names.contains (lower platform) then put id "hidden" (.bool true)

/-- Shows a single view. -/
def setContent (owner : String) (id view : ObjectId) : Acting Unit := do
  match (← get).stored id "content_view" with
  | .none =>
    put id "content_view" (.object view)
    push id "subviews" (.object view)
  | _ => throw (.of (.child (.occupied owner)))

/-- Declares a segment. -/
def addSegment (owner : String) (id : ObjectId) (name : String)
    (attributes : Table String String) : Acting Unit := do
  if name ≠ "segment" then throw (.of (.element (.rawRefused owner name)))
  let segment ← look fun _ => (Segment.ofAttributes attributes).mapError (.of ∘ .decode)
  push id "segments" (.segment segment)

/-! ### Tables -/

/-- The sections at the end of the list in a table, with what stands in front of them. -/
def sectionsOf (id : ObjectId) : Acting (List Value × Sections) := do
  let sc ← get
  match sc.stored id "sections" with
  | .list items =>
    let (front, all) := knownSections items
    return (front, { all, slot := sc.announcedSlot id })
  | _ => return ([], { all := [], slot := sc.announcedSlot id })

/-- Announces a place in a table. -/
def announce (id : ObjectId) : Slot → Acting Unit
  | .row => put id "_pending_slot" .none
  | .header => put id "_pending_slot" (.text "header")
  | .footer => put id "_pending_slot" (.text "footer")

/-- Leaves sections at the end of the list in a table. -/
def leaveSections (id : ObjectId) (front : List Value) (t : Sections) : Acting Unit := do
  put id "sections" (.list (front ++ t.all.map .tableSection))
  announce id t.slot

/-- Starts a section where the last one is not one that the table has made. -/
def startAfter (id : ObjectId) (name title : Option String) : Acting Unit := do
  let last ← look fun sc => sc.elementAt (sc.stored id "sections") (.int (-1))
  if ← look (·.isBegunSection last) then push id "sections" (.tableSection { name, title })
  else
    setAttribute last "name" (.ofText? name)
    setAttribute last "title" (.ofText? title)
  announce id .row

/-- Puts a view at a place in a section that the table has not made. -/
def putInto (slot : Slot) (view : ObjectId) (last : Value) : Acting Unit := do
  match slot with
  | .header => setAttribute last "header" (.object view)
  | .footer => setAttribute last "footer" (.object view)
  | .row =>
    match last, ← look (·.requireAttribute last "rows") with
    | .object o, .list _ => push o "rows" (.object view)
    | _, _ => throw .noAttribute

/-- Takes in a raw element of a table. -/
def addTablePart (owner : String) (id : ObjectId) (name : String)
    (attributes : Table String String) : Acting Unit := do
  let (front, t) ← sectionsOf id
  let after ← look fun _ => (t.addPart owner name attributes).mapError (.of ∘ .element)
  if name ≠ "section" then announce id after.slot
  else if t.all.isEmpty then startAfter id (attributes.get? "name") (attributes.get? "title")
  else leaveSections id front after

/-- Puts a view at its place in a table. -/
def addRow (id view : ObjectId) : Acting Unit := do
  let (front, t) ← sectionsOf id
  if t.all.isEmpty then
    putInto t.slot view (← look fun sc => sc.elementAt (sc.stored id "sections") (.int (-1)))
    announce id .row
  else leaveSections id front (t.addView view)
  push id "subviews" (.object view)

/-! ### Pickers -/

/-- Declares a row where the last component is not one that the picker has made. -/
def addRowAfter (id : ObjectId) (row : PickerRow) : Acting Unit := do
  let last ← look fun sc => sc.elementAt (sc.stored id "components") (.int (-1))
  match last, ← look (·.requireAttribute last "rows") with
  | .object o, .list _ => push o "rows" (.pickerRow row)
  | _, _ => throw .noAttribute

/-- Takes in a raw element of a picker. -/
def addPickerPart (owner : String) (id : ObjectId) (name : String)
    (attributes : Table String String) : Acting Unit := do
  let components := (← get).stored id "components"
  let (front, known) :=
    match components with
    | .list items => knownComponents items
    | _ => ([], [])
  let after ← look fun _ =>
    (({ components := known } : Picker).addPart owner name attributes).mapError .of
  match name, attributes.get? "title" with
  | "row", some title =>
    if known.isEmpty && components.isTrue then addRowAfter id ⟨title, attributes.get? "value"⟩
    else leave front after components
  | _, _ => leave front after components
where
  leave (front : List Value) (p : Picker) : Value → Acting Unit
    | .list _ => put id "components" (.list (front ++ p.components.map .pickerComponent))
    | _ => throw .noAttribute

/-! ## Hooks -/

/-- What a view does, where `owner` names the class that lays down the rule. -/
def obey (platform : String) (id : ObjectId) (owner : String) : HookRule → Call → Acting Unit
  | .restrictPlatforms, .instruction target data => restrict platform id target data
  | .setText, .text s => put id "text" (.text s)
  | .addSubview, .append view => push id "subviews" (.object view)
  | .addArranged, .append view => do
    push id "arranged_subviews" (.object view)
    push id "subviews" (.object view)
  | .setContent, .append view => setContent owner id view
  | .addRow, .append view => addRow id view
  | .addTablePart, .raw name attributes => addTablePart owner id name attributes
  | .addPickerPart, .raw name attributes => addPickerPart owner id name attributes
  | .addSegment, .raw name attributes => addSegment owner id name attributes
  | _, _ => pure ()

/-- What an object has stored under the name of an operation of its class takes the place of the
operation, and cannot be called. -/
def refuseReplaced (id : ObjectId) (operation : String) : Acting Unit := do
  let sc ← get
  if let some v := sc.store.field? id operation then
    throw (.mistyped (.notCallable (sc.typeName v)))

/-- Tells a component something. One whose class has no hook for it cannot be told. -/
def tell (platform : String) (id : ObjectId) (call : Call) : Acting Unit := do
  refuseReplaced id call.hook.name
  let sc ← get
  match sc.store.class? id with
  | none => throw .noAttribute
  | some cls =>
    match sc.classes.hookFrom? cls call.hook with
    | none => throw .noAttribute
    | some (_, .record) => record id cls call
    | some (owner, rule) => obey platform id owner rule call

end Acting
end ViewMarkup
