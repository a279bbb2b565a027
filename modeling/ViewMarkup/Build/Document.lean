import ViewMarkup.Build.Element

/-!
# Building documents

A document is built from its root element, into a new instance or into one that is supplied. When
the whole tree stands, the owner gets its outlets and the bindings are registered.

Documents that are being included have different names, all of which some document mentions. So the
number of names mentioned bounds how deep includes can go.
-/

namespace ViewMarkup

open Text

/-! ## How deep includes go -/

/-- The names that an element and the elements inside of it include. -/
def Element.included (e : Element) : List String :=
  e.preorder.flatMap fun x =>
    ((x.leading ++ x.trailing).filter (·.target = includeTarget)).map fun i => trim i.data

/-- The names that a document includes, if it can be read. -/
def includedIn (source : Xml.Input) : List String :=
  match Document.read source "" with
  | .ok d => d.root.included
  | .error _ => []

/-- The names that the documents of a loader include. -/
def Loader.included (fs : Files) : Loader → List String
  | .tables _ _ documents =>
    documents.flatMap fun (_, stored) =>
      match stored with
      | .text s => includedIn (.text s)
      | .parsed d => d.root.included
  | .directory _ _ _ documents =>
    (documents.flatMap fun (_, d) => d.root.included) ++
      fs.entries.flatMap fun (_, content) => includedIn (.bytes content.data)

/-- How many documents can be included through each other, the one built itself counted. -/
def includeDepth (fs : Files) (l : Loader) (root : Element) : Nat :=
  (root.included ++ l.included fs).eraseDups.length + 1

/-- Where the document of a build comes from: it is given, or the resources have it under a
name. -/
inductive Origin where
  | given (d : Document)
  | named (name : String)

namespace Assembly

/-! ## Roots -/

/-- The name of the element that stands for the supplied root, whatever it is. -/
def rootName : String := "root"

/-- The object that a root element describes, and what it may contain. -/
def rootInstance (a : Assembly) (e : Element) (root : Option ObjectId) :
    Building (ObjectId × Capabilities) := do
  let classes := a.library.classes
  if e.name = rootName then
    match root with
    | none => throw (.of (.root .missing))
    | some id =>
      match (← get).store.class? id with
      | some cls => return (id, ← Building.ofExcept ((classes.capabilities cls).mapError .mistyped))
      | none => return (id, {})
  else
    match ← Building.registering (a.library.resolve a.registry e.name) with
    | none => throw (.of (.element (.unknown e.name)))
    | some c =>
      match root with
      | none => return (← a.instantiate c, c.capabilities)
      | some id =>
        if ((← get).store.class? id).any (classes.isA · c.cls) then return (id, c.capabilities)
        else throw (.of (.root (.mismatch (← a.typeName id) (classes.name c.cls))))

/-- Starts a root element. An include has nothing to be appended to there. -/
def startRoot (a : Assembly) (e : Element) (root : Option ObjectId) :
    Building (ObjectId × Capabilities) := do
  let instance? ← a.rootInstance e root
  if e.leading.any (·.target = includeTarget) then
    throw (.of (.instruction .includeBeforeRoot))
  return instance?

/-- Builds a root element. -/
def buildRoot (a : Assembly) :
    (depth : Nat) → (stack : List String) → Element → Option ObjectId → Building ObjectId
  | 0, stack, _, _ => throw (.of (.includeCycle stack))
  | depth + 1, stack, e, root => do
    let (id, caps) ← Building.within e.name (a.startRoot e root)
    a.process (fun stack e => a.buildRoot depth stack e none) stack e id caps e.name e.leading
    return id

/-! ## Outlets and bindings -/

/-- Sets the outlets of the owner in order. -/
def commitOutlets (a : Assembly) (owner : ObjectId) : List (String × ObjectId) → Building Unit
  | [] => pure ()
  | (name, id) :: rest => do
    let store ← Building.ofExcept ((← a.scene).setAttribute (.object owner) name (.object id))
    modify fun p => { p with store }
    a.commitOutlets owner rest

/-- Registers bindings in order. -/
def commitLinks (a : Assembly) : List Binding → Building Unit
  | [] => pure ()
  | b :: rest => do
    let bindings ← Building.ofExcept ((← get).bindings.register (← a.scene) b)
    modify fun p => { p with bindings }
    a.commitLinks rest

/-- Gives the owner what was noted down for it. -/
def commit (a : Assembly) : Building Unit := do
  if let some owner := a.owner then a.commitOutlets owner (← get).outlets
  a.commitLinks (← get).links

/-- Builds the tree of a document, which is reached through the names given. -/
def buildDocument (a : Assembly) (stack : List String) (d : Document) (root : Option ObjectId) :
    Building ObjectId := do
  let depth := includeDepth a.files (← get).loader d.root
  a.buildRoot depth stack d.root root

/-- Builds the tree of the document at an origin. -/
def buildTree (a : Assembly) (root : Option ObjectId) : Origin → Building ObjectId
  | .given d => a.buildDocument [] d root
  | .named name => do
    let d ← Building.loading (loadDocument a.files name)
    a.buildDocument [name] d root

/-- Builds a tree and, when it stands, gives the owner what is its own. -/
def build (a : Assembly) (root : Option ObjectId) (origin : Origin) : Building ObjectId := do
  let view ← a.buildTree root origin
  a.commit
  return view

end Assembly

namespace Builder

/-- The outcome of a build: its answer, and how far it has come. -/
def outcome (b : Builder) (owner root : Option ObjectId) (origin : Origin) (w : World) :
    Except Failure ObjectId × Progress :=
  (({ b with owner } : Assembly).build root origin).run { w with }

/-- Builds a document for an owner, into a new object or into the one supplied. -/
def build (b : Builder) (d : Document) (owner root : Option ObjectId) (w : World) :
    Except Failure ObjectId × World :=
  let (answer, p) := b.outcome owner root (.given d) w
  (answer, p.toWorld)

/-- Builds the document with a name, for an owner, into a new object or into the one supplied. -/
def buildNamed (b : Builder) (name : String) (owner root : Option ObjectId) (w : World) :
    Except Failure ObjectId × World :=
  let (answer, p) := b.outcome owner root (.named name) w
  (answer, p.toWorld)

end Builder
end ViewMarkup
