import ViewMarkup.Component.Class
import ViewMarkup.Text.Blank
import ViewMarkup.Text.Quoted

/-!
# Registries of components

A registry maps element names to components. It may lie over another one, which answers what it
cannot answer itself. A namespace stands for a module, whose components are registered when a name
in the namespace is first asked for.

## Main results

- `Registries.get_update_self`, `Registries.get_update_ne`: a change of one registry leaves the
  others as they were.
- `Registries.get_addOver_of_lt`, `Registries.get_addOver_self`: a new registry leaves the others as
  they were and has nothing yet.
- `namespaceOf?_member`: a member of a namespace has its name in that namespace.
-/

namespace ViewMarkup

open Text

/-- A class under the name of an element. The style belongs to the name, so that one class can stand
behind several. -/
structure Component where
  name : String
  cls : ClassId
  style : Option String
  capabilities : Capabilities
deriving DecidableEq, Repr

/-- A module that a namespace can stand for, with the classes that can be found in it. A module may
say itself which components it registers. Only a package has modules inside of it. -/
structure ComponentModule where
  members : Table String ClassId := []
  registers : Option (List (String × ClassId × Option String)) := none
  isPackage : Bool := false

/-- Modules by name. -/
abbrev Modules := Table String ComponentModule

/-- The number of a registry. -/
abbrev RegistryId := Nat

/-- A registry. `below` lists the registries that it lies over, nearest first; `loaded` are the
namespaces whose modules have been registered. What a namespace stands for should be the name of a
module. -/
structure Registry where
  below : List RegistryId := []
  types : Table String Component := []
  namespaces : Table String Value := []
  loaded : List String := []

/-- All registries by number. -/
structure Registries where
  all : Array Registry := #[]

/-- The namespace in front of the first colon of an element name. -/
def namespaceOf? (name : String) : Option String :=
  (cutFirst? ':' name.toList).map fun (space, _) => String.ofList space

/-- What a namespace gives its members as names has that namespace in front. -/
theorem namespaceOf?_member {name space : String} (h : namespaceOf? name = some space)
    (member : String) : namespaceOf? (space ++ ":" ++ member) = some space := by
  obtain ⟨⟨a, b⟩, hCut, rfl⟩ := Option.map_eq_some_iff.1 h
  have hList : (String.ofList a ++ ":" ++ member).toList = a ++ ':' :: member.toList := by
    simp
  rw [namespaceOf?, hList, cutFirst?_append _ (not_mem_of_cutFirst? hCut)]
  rfl

namespace Registries

/-- A registry by number; where there is none, an empty one. -/
def get (rs : Registries) (id : RegistryId) : Registry := rs.all[id]?.getD {}

/-- The registries with one changed. -/
def update (rs : Registries) (id : RegistryId) (f : Registry → Registry) : Registries :=
  { all := rs.all.modify id f }

/-- The registries that answer for a registry: itself, then those that it lies over. -/
def chain (rs : Registries) (id : RegistryId) : List RegistryId := id :: (rs.get id).below

/-- A new registry over another one, or over none. -/
def addOver (rs : Registries) (parent : Option RegistryId) : RegistryId × Registries :=
  let below := match parent with
    | some p => rs.chain p
    | none => []
  (rs.all.size, { all := rs.all.push { below } })

theorem get_update_self {rs : Registries} {id : RegistryId} (f : Registry → Registry)
    (h : id < rs.all.size) : (rs.update id f).get id = f (rs.get id) := by
  simp [update, get, h, Array.getElem_modify]

theorem get_update_ne {rs : Registries} {id id' : RegistryId} (f : Registry → Registry)
    (hNe : id' ≠ id) : (rs.update id f).get id' = rs.get id' := by
  simp [update, get, Array.getElem?_modify, Ne.symm hNe]

theorem get_of_size_le {rs : Registries} {id : RegistryId} (h : rs.all.size ≤ id) :
    rs.get id = {} := by
  simp [get, Array.getElem?_eq_none h]

theorem get_addOver_of_lt {rs : Registries} {id : RegistryId} (parent : Option RegistryId)
    (h : id < rs.all.size) : (rs.addOver parent).2.get id = rs.get id := by
  simp [addOver, get, Array.getElem?_push, Nat.ne_of_lt h]

theorem get_addOver_self (rs : Registries) (parent : Option RegistryId) :
    (rs.addOver parent).2.get rs.all.size = { below := parent.elim [] rs.chain } := by
  cases parent <;> simp [addOver, get]

theorem size_addOver (rs : Registries) (parent : Option RegistryId) :
    (rs.addOver parent).2.all.size = rs.all.size + 1 := by
  simp [addOver]

/-- A registry after one more was made is as it was, or new and without entries of its own. -/
theorem get_addOver_cases (rs : Registries) (parent : Option RegistryId) (r : RegistryId) :
    (rs.addOver parent).2.get r = rs.get r ∨
      r = rs.all.size ∧ (rs.addOver parent).2.get r = { below := parent.elim [] rs.chain } := by
  rcases Nat.lt_trichotomy r rs.all.size with hLt | rfl | hGt
  · exact .inl (get_addOver_of_lt parent hLt)
  · exact .inr ⟨rfl, get_addOver_self rs parent⟩
  · refine .inl ?_
    rw [get_of_size_le (Nat.le_of_lt hGt), get_of_size_le (by rw [size_addOver]; exact hGt)]

/-- Whether a registry maps the namespace of a name. -/
def ownsSpace (rs : Registries) (id : RegistryId) (name : String) : Bool :=
  (namespaceOf? name).any fun space => (rs.get id).namespaces.has space

/-- What the registries of a chain have under a name by now. A registry that maps the namespace of
the name hides those below. -/
def peekIn (rs : Registries) (name : String) : List RegistryId → Option Component
  | [] => none
  | id :: below =>
    match (rs.get id).types.get? name with
    | some c => some c
    | none => if rs.ownsSpace id name then none else rs.peekIn name below

/-- The component that a name stands for by now. -/
def peek (rs : Registries) (id : RegistryId) (name : String) : Option Component :=
  rs.peekIn name (rs.chain id)

/-- All names with a component, in order. -/
def names (rs : Registries) (id : RegistryId) : List String :=
  ((rs.chain id).flatMap fun r => (rs.get r).types.keys).eraseDups.mergeSort (· ≤ ·)

/-- All namespaces with their modules. -/
def namespaces (rs : Registries) (id : RegistryId) : Table String Value :=
  Table.ofList ((rs.chain id).reverse.flatMap fun r => (rs.get r).namespaces)

end Registries

/-- Registering may fail, and keeps what was registered before it failed. -/
abbrev Registering := ExceptT Failure (StateM Registries)

/-- What registering needs to know. -/
structure Library where
  classes : Classes
  modules : Modules := []

namespace Library

/-- The component that a class makes under a name. -/
def component (lib : Library) (name : String) (cls : ClassId) (style : Option String) :
    Except Failure Component := do
  if name.isEmpty || trim name != name then throw (.invalid (.componentName name))
  if style.isSome && (lib.classes.factory? cls).isNone then
    throw (.mistyped (.factoryMissing (lib.classes.name cls)))
  let capabilities ← (lib.classes.capabilities cls).mapError .mistyped
  return { name, cls, style, capabilities }

/-- Registers a class under a name. A name keeps its first component. -/
def register (lib : Library) (on : RegistryId) (name : String) (cls : ClassId)
    (style : Option String) : Registering Component := do
  let c ← (lib.component name cls style : Except Failure Component)
  match ((← get).get on).types.get? name with
  | some existing =>
    if existing = c then return c
    else throw (.invalid (.componentTaken name (lib.classes.name existing.cls)))
  | none =>
    modify fun rs => rs.update on fun r => { r with types := r.types.put name c }
    return c

/-- Maps a namespace to a module. A namespace keeps its first module. -/
def registerNamespace (on : RegistryId) (space : String) (target : Value) : Registering Unit := do
  if space.isEmpty || hasChar ':' space then throw (.invalid (.namespaceName space))
  match ((← get).get on).namespaces.get? space, target with
  | some (.text current), .text name =>
    if current ≠ name then throw (.invalid (.namespaceTaken space current))
  | some (.text current), _ => throw (.invalid (.namespaceTaken space current))
  | _, _ =>
    modify fun rs => rs.update on fun r => { r with namespaces := r.namespaces.put space target }

/-- A dotted name and the names of all that contains it, outermost first. -/
def enclosingNames (name : String) : List String :=
  let parts := splitOn '.' name
  (List.range parts.length).map fun i => joined "." (parts.take (i + 1))

/-- Why there is no module with a name. What is missing is the outermost part of the name inside of
which nothing is there; if that lies in a module which is no package, this is told, too. -/
def absence (modules : Modules) (name : String) : String :=
  let outward := (enclosingNames name).reverse
  let missing := outward.takeWhile fun n => !modules.has n
  let around := outward[missing.length]?
  "No module named " ++ quoted (missing.getLast?.getD name) ++
    match around, around.bind modules.get? with
    | some p, some m => if m.isPackage then "" else "; " ++ quoted p ++ " is not a package"
    | _, _ => ""

/-- The module with a name. -/
def findModule (lib : Library) (space name : String) : Except Failure ComponentModule :=
  match lib.modules.get? name with
  | some m => .ok m
  | none =>
    if name.isEmpty then .error (.invalid .emptyModuleName)
    else if name.toList.head? = some '.' then .error (.mistyped (.relativeModule name))
    else .error (.of (.element (.moduleMissing space name (absence lib.modules name))))

/-- What is registered for a module: what it says itself, or each class that was defined in it, is
not marked as private and declares properties of its own. -/
def entries (lib : Library) (name : String) (m : ComponentModule) :
    List (String × ClassId × Option String) :=
  m.registers.getD <| m.members.filterMap fun (member, cls) =>
    match lib.classes.get? cls with
    | some c =>
      if member.toList.head? ≠ some '_' ∧ c.unit = name ∧ c.properties.isSome then
        some (member, cls, none)
      else none
    | none => none

/-- Registers some entries of a module in order. -/
def registerAll (lib : Library) (on : RegistryId) (space : String) :
    List (String × ClassId × Option String) → Registering Unit
  | [] => pure ()
  | (name, cls, style) :: rest => do
    let _ ← lib.register on (space ++ ":" ++ name) cls style
    lib.registerAll on space rest

/-- Registers the module of a namespace, unless that has been done. A namespace that stands for
nothing has none, and by what is no name none can be found. -/
def load (lib : Library) (on : RegistryId) (space : String) : Registering Unit := do
  let r := (← get).get on
  if r.loaded.contains space then return
  match r.namespaces.get? space with
  | none | some .none => return
  | some (.text target) =>
    let m ← (lib.findModule space target : Except Failure ComponentModule)
    lib.registerAll on space (lib.entries target m)
    modify fun rs => rs.update on fun r => { r with loaded := space :: r.loaded }
  | some _ => throw .noAttribute

/-- What the registries of a chain have under a name, after the nearest one that maps the namespace
of the name has registered its module. -/
def resolveIn (lib : Library) (name : String) : List RegistryId → Registering (Option Component)
  | [] => pure none
  | id :: below => do
    let rs ← get
    match rs.peekIn name (id :: below), namespaceOf? name with
    | some c, _ => return some c
    | none, none => return none
    | none, some space =>
      if rs.ownsSpace id name then
        lib.load id space
        return ((← get).get id).types.get? name
      else lib.resolveIn name below

/-- The component that a name stands for. -/
def resolve (lib : Library) (id : RegistryId) (name : String) : Registering (Option Component) := do
  lib.resolveIn name ((← get).chain id)

end Library

/-! ## Instances -/

namespace Classes

/-- The attribute that a style sets on a new instance, and its value. -/
def styleField (cs : Classes) (cls : ClassId) (style : Option String) :
    Except Invalid (Option (String × String)) :=
  match cs.factory? cls, style with
  | some .button, none => .ok (some ("style", "system"))
  | some .button, some s =>
    if s = "system" ∨ s = "custom" then .ok (some ("style", s)) else .error (.buttonStyle s)
  | some .box, none => .ok (some ("axis", "vertical"))
  | some .box, some s =>
    if s = "horizontal" ∨ s = "vertical" then .ok (some ("axis", s)) else .error (.boxAxis s)
  | some .cell, none => .ok (some ("style", "default"))
  | some .cell, some s =>
    if ["default", "subtitle", "value1", "value2"].contains s then .ok (some ("style", s))
    else .error (.cellStyle s)
  | _, _ => .ok none

/-- A new instance of a class in a style. The style is given like any attribute that is laid down; a
class that only stores styles stores that there is none, too. -/
def instantiateStyled (cs : Classes) (cls : ClassId) (style : Option String) (s : Store) :
    Except Failure (ObjectId × Store) := do
  let given ← (cs.styleField cls style).mapError .invalid
  if let some (name, _) := given then
    if !(cs.laidDown cls).has name then
      let first := ((cs.layingDown cls).head?.map (·.name)).getD "object"
      throw (.mistyped (.unexpectedArgument (first ++ ".__init__") name))
  let (new, s) := cs.instantiate cls s (given.toList.map fun (name, v) => (name, .value (.text v)))
  match cs.factory? cls with
  | some .storesStyle => return (new, s.setField new "style" (.ofText? style))
  | _ => return (new, s)

end Classes
end ViewMarkup
