import ViewMarkup.Demo.Profile
import ViewMarkup.Object.Snapshot
import ViewMarkup.View.Outline

/-!
# Workspaces

A workspace is what a host has in its hands: a builder, the objects there are, and names for some of
them. A reference is a name, or a name followed by the indices of children. What no name leads to is
no longer alive.
-/

namespace ViewMarkup

open Text

/-- A builder with objects, some of which have names. -/
structure Workspace where
  builder : Builder
  world : World
  held : Table String ObjectId := []

/-- Why something cannot be done in a workspace. -/
inductive Trouble where
  | noVariable
  | failed (failure : Failure)

/-- Working may fail, and keeps what was done before it failed. -/
abbrev Working := ExceptT Trouble (StateM Workspace)

/-- What a build has given. -/
structure Built where
  tree : Snapshot
  outline : Option (List String)
  owner : Option (Written × Nat)

/-- What can be seen of an object. -/
inductive Shown where
  | tree (s : Snapshot)
  | value (w : Written)

namespace Workspace

/-- The objects as they are now. -/
def scene (w : Workspace) : Scene where
  classes := w.builder.library.classes
  store := w.world.store

/-- What the host holds. -/
def roots (w : Workspace) : List ObjectId := w.held.map (·.2)

/-- The names that components go by. -/
def names (w : Workspace) : Except Failure Names := w.scene.namesIn w.held

/-- The child of an object at the end of some indices. -/
def descend (sc : Scene) : ObjectId → List String → Except Failure (Option ObjectId)
  | id, [] => .ok (some id)
  | id, i :: rest => do
    let children ← sc.children id
    match i.toNat?.bind (children[·]?) with
    | some child => descend sc child rest
    | none => return none

/-- The object that a reference leads to. -/
def find? (w : Workspace) (ref : String) : Except Failure (Option ObjectId) :=
  match splitOn '/' ref with
  | [] => .ok none
  | name :: indices =>
    match w.held.get? name with
    | none => .ok none
    | some id => descend w.scene id indices

/-- The written form of a value. -/
def write (w : Workspace) (v : Value) : Except Failure Written :=
  w.names.map (w.scene.write · v)

/-- The lines of the outline of a component, if all of its tree are views. -/
def outline? (w : Workspace) (id : ObjectId) : Except Failure (Option (List String)) := do
  if ← w.scene.isViewTree id then return some (splitOn '\n' (← w.scene.outline id))
  else return none

end Workspace

namespace Working

/-- What may fail without changing anything. -/
def ofExcept {α : Type} : Except Failure α → Working α
  | .ok x => pure x
  | .error failure => throw (.failed failure)

/-- The object that a reference leads to. -/
def find (ref : String) : Working ObjectId := do
  match ← ofExcept ((← get).find? ref) with
  | some id => return id
  | none => throw .noVariable

/-- The object that a reference leads to, if there is a reference. -/
def findOptional : Option String → Working (Option ObjectId)
  | some ref => some <$> find ref
  | none => pure none

/-- The written form of a value. -/
def write (v : Value) : Working Written := do
  ofExcept ((← get).write v)

/-- Leaves a store behind. -/
def leave (store : Store) : Working Unit :=
  modify fun w => { w with world := { w.world with store } }

/-- Gives a name to an object. -/
def name (var : String) (id : ObjectId) : Working Unit :=
  modify fun w => { w with held := w.held.put var id }

/-- Makes a value. Every reference in it has to lead somewhere. -/
def make (b : Blueprint) : Working Value := do
  let found ← b.references.mapM fun ref => return (ref, ← find ref)
  let (v, store) := b.make (fun ref => .ofObject? (Table.get? found ref)) (← get).world.store
  leave store
  return v

/-! ## Objects -/

/-- A new object under a name. -/
def create (var : String) (b : Blueprint) : Working Unit := do
  match ← make b with
  | .object id => name var id
  | _ => pure ()

/-- A new instance of a class under a name, with some attributes set. -/
def createInstance (var : String) (cls : ClassId) (fields : List (String × Blueprint)) :
    Working Unit := do
  let (id, store) := (← get).scene.classes.instantiate cls (← get).world.store
  leave store
  for (attr, b) in fields do
    let v ← make b
    leave (← ofExcept ((← get).scene.setAttribute (.object id) attr v))
  name var id

/-- Takes a name away. -/
def drop (var : String) : Working Unit := do
  if ((← get).held.get? var).isNone then throw .noVariable
  modify fun w => { w with held := w.held.without var }

/-- What can be seen of an object. -/
def dump (ref : String) : Working Shown := do
  let id ← find ref
  let w ← get
  let names ← ofExcept w.names
  if (w.scene.component? id).isSome then return .tree (← ofExcept (w.scene.snapshot names id))
  else return .value (w.scene.write names (.object id))

/-- The outline of a view. -/
def describe (ref : String) : Working (Option (List String)) := do
  let id ← find ref
  ofExcept ((← get).outline? id)

/-! ## Attributes -/

/-- The value at the end of a path. -/
def read (ref path : String) : Working Written := do
  let id ← find ref
  write (← ofExcept ((← get).scene.readPath (.object id) path))

/-- Sets the attribute at the end of a path. -/
def set (ref path : String) (b : Blueprint) : Working Unit := do
  let id ← find ref
  let v ← make b
  leave (← ofExcept ((← get).scene.writePath (.object id) path v))

/-- Assigns a property from a text, with the builder's tables and resources unless told without. -/
def assign (ref property raw : String) (bare : Bool) : Working (List (String × Written)) := do
  let id ← find ref
  let w ← get
  let decoder := if bare then Decoder.make [] [] else w.builder.decoder
  let resources := if bare then none else some w.world.loader
  let (answer, resources) :=
    (w.scene.assign decoder w.builder.files (.object id) property raw).run resources
  if let some loader := resources then
    modify fun w => { w with world := { w.world with loader } }
  leave (← ofExcept answer)
  let w ← get
  let names ← ofExcept w.names
  return (w.world.store.class? id).elim [] (w.scene.shownFields names id)

/-! ## Builds -/

/-- What has been built, once it has its name. -/
def built (var : String) (id : ObjectId) (owner : Option ObjectId) : Working Built := do
  name var id
  let w ← get
  let names ← ofExcept w.names
  return {
    tree := ← ofExcept (w.scene.snapshot names id)
    outline := ← ofExcept (w.outline? id)
    owner := owner.map fun o =>
      (w.scene.write names (.object o), (w.world.bindings.of o).length) }

/-- Builds something and names it. -/
def building (var : String) (owner root : Option String)
    (act : Builder → Option ObjectId → Option ObjectId → World → Except Failure ObjectId × World) :
    Working Built := do
  let owner ← findOptional owner
  let root ← findOptional root
  let w ← get
  let (answer, world) := act w.builder owner root w.world
  modify fun w => { w with world }
  built var (← ofExcept answer) owner

/-- Builds a document. -/
def build (source : Xml.Input) (owner root : Option String) (var : String) : Working Built :=
  building var owner root fun b owner root w =>
    match Document.read source "<string>" with
    | .error failure => (.error failure, w)
    | .ok d => b.build d owner root w

/-- Builds the document with a name. -/
def buildNamed (document : String) (owner root : Option String) (var : String) : Working Built :=
  building var owner root fun b => b.buildNamed document

/-! ## Bindings -/

/-- Registers a binding. -/
def bind (owner ownerPath view viewPath : String) : Working Unit := do
  let owner ← find owner
  let view ← find view
  let w ← get
  let bindings ← ofExcept (w.world.bindings.register w.scene ⟨owner, ownerPath, view, viewPath⟩)
  modify fun w => { w with world := { w.world with bindings } }

/-- Copies values along some bindings and counts the copies. -/
def copy (roots : List ObjectId) (move : Binding → Scene → Except Failure Store)
    (far : Binding → ObjectId) (bs : List Binding) : Working Nat := do
  let (answer, sc) := propagate roots move far bs [] 0 (← get).scene
  leave sc.store
  ofExcept answer

/-- The bindings of an owner, without those whose view is no longer alive. -/
def liveBindings (owner : ObjectId) : Working (List Binding) := do
  let w ← get
  let bindings := w.world.bindings.prune w.scene w.roots owner
  modify fun w => { w with world := { w.world with bindings } }
  return bindings.of owner

/-- Copies the values of an owner to the views that are bound to it. -/
def pushOwner (owner : ObjectId) : Working Nat := do
  copy (owner :: (← get).roots) Binding.push (·.view) (← liveBindings owner)

/-- Copies the values of an owner to the views that are bound to it. -/
def push (ref : String) : Working Nat := do pushOwner (← find ref)

/-- Copies the values of views to the owner that they are bound to. -/
def pullOwner (owner : ObjectId) : Working Nat := do
  copy (owner :: (← get).roots) Binding.pull (·.view) (← liveBindings owner)

/-- Copies the values of views to the owner that they are bound to. -/
def pull (ref : String) : Working Nat := do pullOwner (← find ref)

/-- Copies the values of a view to all owners, for one path if it is given. -/
def changed (ref : String) (path : Option String) : Working Nat := do
  let view ← find ref
  let w ← get
  copy (view :: w.roots) Binding.pull (·.owner) (w.world.bindings.ofView view path)

/-- Takes the bindings of an owner away and counts them. -/
def release (ref : String) : Working Nat := do
  let owner ← find ref
  let count := ((← get).world.bindings.of owner).length
  modify fun w => { w with world := { w.world with bindings := w.world.bindings.release owner } }
  return count

/-- How many bindings an owner has. -/
def count (ref : String) : Working Nat := do
  let owner ← find ref
  return ((← get).world.bindings.of owner).length

/-- The bindings of an owner with their views, as far as these are alive. -/
def bindings (ref : String) : Working (List (Binding × Option Written)) := do
  let owner ← find ref
  let w ← get
  let alive := w.world.store.reachable w.roots
  let names ← ofExcept w.names
  return (w.world.bindings.of owner).map fun b =>
    (b, if alive.contains b.view then some (w.scene.write names (.object b.view)) else none)

/-! ## Operations -/

/-- What is done to objects as a part of working. -/
def acting {α : Type} (act : Acting α) : Working α := do
  let (answer, sc) := act.run (← get).scene
  leave sc.store
  ofExcept answer

/-- Carries out an operation of a view, or of the owner of the profile screen. -/
def call (ref method : String) (args : List Blueprint) : Working Written := do
  let id ← find ref
  let args ← args.mapM make
  let w ← get
  if w.scene.typeName (.object id) = Demo.ownerName ∧ method = Demo.sizeOperation.name then
    ofExcept ((Demo.sizeOperation.check Demo.ownerName args.length).mapError .mistyped)
    write (← ofExcept (Demo.selectedSize w.scene id))
  else write (← acting (Acting.ask w.builder.platform View.Catalog.cellClass id method args))

/-- Tells a component something. -/
def tell (ref : String) (c : Call) : Working Unit := do
  let id ← find ref
  acting (Acting.tell (← get).builder.platform id c)

/-- Tells a component of a child view. -/
def append (ref child : String) : Working Unit := do
  let view ← find child
  tell ref (.append view)

/-- The element names that the builder knows. -/
def elementNames : Working (List String) := do
  let w ← get
  return w.world.registries.names w.builder.registry

/-! ## The profile screen -/

/-- Builds the profile screen for a new owner and shows the owner's values on it. -/
def openProfile (owner var : String) (userName status : Blueprint) : Working Built := do
  create owner (Demo.owner userName status)
  let id ← find owner
  let w ← get
  let (answer, world) := Demo.build w.builder.library w.builder.platform id w.world
  modify fun w => { w with world }
  let view ← ofExcept answer
  name var view
  let _ ← pushOwner id
  built var view (some id)

end Working
end ViewMarkup
