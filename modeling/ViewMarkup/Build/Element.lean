import ViewMarkup.Build.Progress

/-!
# Building elements

An element is built depth first: its instructions are delivered, its attributes assigned, its text
handed over and its children built and appended, before the instructions after the last child. An
include stands for the root element of another document.
-/

namespace ViewMarkup

open Text

/-- The instruction that stands for another document. -/
def includeTarget : String := "include"

namespace Assembly

/-! ## Instructions -/

/-- Delivers an instruction to an object that takes instructions. One that is inert here may be
refused, or delivered to an object that takes none. -/
def deliver (a : Assembly) (id : ObjectId) (caps : Capabilities) (i : Instruction) :
    Building Unit := do
  let inert := a.settings.inert.contains i.target
  if caps.instruction then
    tryCatch (a.tell id (.instruction i.target i.data)) fun
      | .markup (.instruction why) path =>
        if inert then pure () else throw (.markup (.instruction why) path)
      | failure => throw failure
  else if inert then pure ()
  else throw (.of (.instruction (.refused (← a.typeName id) i.target)))

/-- Delivers instructions in order. -/
def deliverAll (a : Assembly) (id : ObjectId) (caps : Capabilities) (is : List Instruction) :
    Building Unit :=
  is.forM (a.deliver id caps)

/-! ## Attributes -/

/-- What the attributes of an element ask for besides properties: an outlet, and paths of the view
with the paths of the owner that they are bound to. -/
structure Requests where
  outlet : Option String := none
  binds : List (String × String) := []

/-- Assigns a property of an instance, or of an object that its dotted name leads to. -/
def assignProperty (a : Assembly) (id : ObjectId) (entry : String × String) : Building Unit := do
  let sc ← a.scene
  Building.note (.assigned id entry.1 (sc.way (.object id) (splitOn '.' entry.1)))
  let store ← Building.fetching (sc.assign a.decoder a.files (.object id) entry.1 entry.2)
  modify fun p => { p with store }

/-- Takes in one attribute: it is requested of the owner, or assigned. -/
def takeAttribute (a : Assembly) (id : ObjectId) (rs : Requests) (entry : String × String) :
    Building Requests := do
  let (name, value) := entry
  let start := a.settings.bindPrefix.toList
  if name = a.settings.outletAttribute then return { rs with outlet := some (trim value) }
  else if start.isPrefixOf name.toList then
    let path := String.ofList (name.toList.drop start.length)
    return { rs with binds := rs.binds ++ [(path, trim value)] }
  else
    a.assignProperty id entry
    return rs

/-- Whether an owner has a field for an outlet: an attribute, or a name that its class declares. -/
def hasField (sc : Scene) (owner : ObjectId) (name : String) : Except Failure Bool := do
  if (← sc.attribute? (.object owner) name).isSome then return true
  match sc.store.type? owner with
  | some (.host _ declared _) => return declared.contains name
  | _ => return false

/-- Notes an outlet down. Without an owner it is passed over. -/
def addOutlet (a : Assembly) (id : ObjectId) (name : String) : Building Unit := do
  match a.owner with
  | none => pure ()
  | some owner =>
    if isIdentifier name && (← Building.ofExcept (hasField (← a.scene) owner name)) then
      modify fun p => { p with outlets := p.outlets ++ [(name, id)] }
    else throw (.of (.outlet (← a.typeName owner) name))

/-- Notes a binding down. Both paths have to lead somewhere, and neither end may be kept alive by
being referred to. -/
def addLink (a : Assembly) (id : ObjectId) (viewPath ownerPath : String) : Building Unit := do
  match a.owner with
  | none => throw (.of (.binding (.noOwner viewPath)))
  | some owner =>
    let sc ← a.scene
    let _ ← Building.ofExcept (sc.readPath (.object owner) ownerPath)
    let _ ← Building.ofExcept (sc.readPath (.object id) viewPath)
    match [owner, id].find? (!sc.store.isReferable ·) with
    | some blocked => throw (.of (.binding (.notReferenceable viewPath (← a.typeName blocked))))
    | none => modify fun p => { p with links := p.links ++ [⟨owner, ownerPath, id, viewPath⟩] }

/-- Assigns the properties of an element, then notes its outlet and its bindings down. -/
def takeAttributes (a : Assembly) (id : ObjectId) (attributes : Table String String) :
    Building Unit := do
  let rs ← attributes.foldlM (a.takeAttribute id) {}
  match rs.outlet with
  | some name => if !name.isEmpty then a.addOutlet id name
  | none => pure ()
  rs.binds.forM fun (viewPath, ownerPath) => a.addLink id viewPath ownerPath

/-! ## Text -/

/-- Hands the text of an element over, unless it is blank. -/
def takeText (a : Assembly) (id : ObjectId) (caps : Capabilities) (name text : String) :
    Building Unit := do
  let text := trim text
  if text.isEmpty then return
  if !caps.text then throw (.of (.text (.refused name)))
  a.tell id (.text text)

/-! ## Children -/

/-- Refuses a child view for an object that takes none, or has its only one. -/
def checkAppend (a : Assembly) (parent : ObjectId) (caps : Capabilities) : Building Unit := do
  match caps.append with
  | .none => throw (.of (.element (.noChildren (← a.typeName parent))))
  | .single =>
    if 1 ≤ (← get).count parent then
      throw (.of (.child (.single (← a.typeName parent))))
  | .multi => pure ()

/-- Gives a finished view to an object. -/
def append (a : Assembly) (parent : ObjectId) (caps : Capabilities) (view : ObjectId) :
    Building Unit := do
  a.checkAppend parent caps
  a.tell parent (.append view)
  modify fun p => { p with appended := p.appended.put (p.number parent) (p.count parent + 1) }

/-- Hands a raw element over. It has nothing inside. -/
def deliverRaw (a : Assembly) (parent : ObjectId) (e : Element) : Building Unit := do
  if !e.children.isEmpty then throw (.of (.malformed (.rawChildren e.name)))
  if !isBlankText e.text then throw (.of (.text (.inRaw e.name)))
  if !e.trailing.isEmpty then throw (.of (.malformed (.rawInstructions e.name)))
  a.tell parent (.raw e.name e.attributes)

/-- A new instance of a component. -/
def instantiate (a : Assembly) (c : Component) : Building ObjectId := do
  let (id, store) ← Building.ofExcept
    (a.library.classes.instantiateStyled c.cls c.style (← get).store)
  modify fun p => { p with store }
  Building.note (.made id)
  return id

/-- The component that a child element stands for. Where raw elements are taken, a name without a
namespace is only looked up among what is registered by now. -/
def componentOf (a : Assembly) (caps : Capabilities) (e : Element) :
    Building (Option Component) := do
  if caps.raw && e.prefix?.isNone then return (← get).registries.peek a.registry e.name
  else Building.registering (a.library.resolve a.registry e.name)

/-- Starts a child: makes its instance, or hands it over as a raw element. -/
def start (a : Assembly) (parent : ObjectId) (caps : Capabilities) (e : Element)
    (leading : List Instruction) : Building (Option (ObjectId × Capabilities)) := do
  match ← a.componentOf caps e with
  | some c =>
    a.checkAppend parent caps
    return some (← a.instantiate c, c.capabilities)
  | none =>
    if !caps.raw then throw (.of (.element (.unknown e.name)))
    a.deliverAll parent caps leading
    a.deliverRaw parent e
    return none

/-! ## Includes -/

/-- How the root element of an included document is built, given the names of the documents that it
is included through, outermost first. -/
abbrev Expansion := List String → Element → Building ObjectId

/-- The document with a name that an include asks for. No document may be included through
itself. -/
def findIncluded (a : Assembly) (stack : List String) (parent : ObjectId) (caps : Capabilities)
    (name : String) : Building Document := do
  if name.isEmpty then throw (.of (.malformed .includeUnnamed))
  if stack.contains name then throw (.of (.includeCycle (stack ++ [name])))
  a.checkAppend parent caps
  Building.loading (loadDocument a.files name)

/-- Builds the root of the document that an include names and appends it. -/
def takeInclude (a : Assembly) (expand : Expansion) (stack : List String) (parent : ObjectId)
    (caps : Capabilities) (path name : String) : Building Unit := do
  let name := trim name
  let d ← Building.within path (a.findIncluded stack parent caps name)
  let view ← expand (stack ++ [name]) d.root
  Building.within path (a.append parent caps view)

/-- Carries out the includes among instructions, and gives the other instructions. -/
def takeIncludes (a : Assembly) (expand : Expansion) (stack : List String) (parent : ObjectId)
    (caps : Capabilities) (path : String) (is : List Instruction) :
    Building (List Instruction) := do
  (is.filter (·.target = includeTarget)).forM fun i =>
    a.takeInclude expand stack parent caps path i.data
  return is.filter (·.target ≠ includeTarget)

/-- Carries out the instructions after the last child, each in its turn. -/
def takeTrailing (a : Assembly) (expand : Expansion) (stack : List String) (id : ObjectId)
    (caps : Capabilities) (path : String) (is : List Instruction) : Building Unit :=
  is.forM fun i =>
    if i.target = includeTarget then a.takeInclude expand stack id caps path i.data
    else Building.within path (a.deliver id caps i)

/-! ## Elements -/

/-- Builds a child element, given how its instance is worked on: the includes in front of it, then
the child itself, which is appended when it is finished. -/
def takeChild (a : Assembly) (expand : Expansion) (stack : List String) (parent : ObjectId)
    (caps : Capabilities) (path : String) (e : Element)
    (work : ObjectId → Capabilities → List Instruction → Building Unit) : Building Unit := do
  let leading ← a.takeIncludes expand stack parent caps path e.leading
  match ← Building.within path (a.start parent caps e leading) with
  | none => pure ()
  | some (id, own) => do
    work id own leading
    Building.within path (a.append parent caps id)

mutual

/-- Builds everything that an element says about its instance, after the instructions given. -/
def process (a : Assembly) (expand : Expansion) (stack : List String) :
    Element → ObjectId → Capabilities → (path : String) → List Instruction → Building Unit
  | .mk name attributes children _ trailing text, id, caps, path, leading => do
    Building.within path do
      a.deliverAll id caps leading
      a.takeAttributes id attributes
      a.takeText id caps name text
    processChildren a expand stack children id caps path 0
    a.takeTrailing expand stack id caps path trailing

/-- Builds child elements in order, the first of which has the index given. -/
def processChildren (a : Assembly) (expand : Expansion) (stack : List String) :
    List Element → ObjectId → Capabilities → (path : String) → (index : Nat) → Building Unit
  | [], _, _, _, _ => pure ()
  | e :: es, parent, caps, path, index => do
    let here := path ++ "/" ++ e.name ++ "[" ++ toString index ++ "]"
    a.takeChild expand stack parent caps here e fun id own leading =>
      process a expand stack e id own here leading
    processChildren a expand stack es parent caps path (index + 1)

end

end Assembly
end ViewMarkup
