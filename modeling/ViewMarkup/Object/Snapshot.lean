import ViewMarkup.Object.Tree
import ViewMarkup.Written

/-!
# Snapshots

A snapshot shows a component with its attributes and the components inside of it. Of a view only
what differs from a new one is shown. Inside of attributes, components go by names.
-/

namespace ViewMarkup

/-- What can be seen of a component. -/
inductive Snapshot where
  | mk (cls : String) (fields : List (String × Written)) (children : List Snapshot)

namespace Scene

/-- The attributes of a new instance of a class, with the objects that they refer to. -/
def fresh (sc : Scene) (cls : ClassId) : Fields × Scene :=
  let (new, store) := sc.classes.instantiate cls sc.store
  (store.fields new, { sc with store })

/-- The written form of attributes, where `object` writes an object. -/
def writeFields (object : Scene → ObjectId → Written) (sc : Scene) (fields : Fields) :
    List (String × Written) :=
  fields.map fun (name, v) => (name, Written.ofValue (object sc) v)

/-- The attributes of an instance that are written differently from those of a new one. -/
def differing (object : Scene → ObjectId → Written) (sc : Scene) (id : ObjectId) (cls : ClassId) :
    List (String × Written) :=
  let (freshFields, freshScene) := sc.fresh cls
  let expected := writeFields object freshScene freshFields
  (writeFields object sc (sc.store.fields id)).filter fun (name, w) =>
    Table.get? expected name != some w

/-- The written form of an object: components go by their names, drawing attributes show what
differs, and the objects of a host show all. -/
def writeObject (names : Names) : (depth : Nat) → Scene → ObjectId → Written
  | 0, _, _ => .null
  | depth + 1, sc, id =>
    match sc.component? id, sc.store.type? id with
    | some cls, _ => .view ((names.get? id).getD ("?" ++ sc.classes.name cls))
    | none, some (.component cls) =>
      .record (sc.classes.name cls) (differing (writeObject names depth) sc id cls)
    | none, some (.host name _ _) =>
      .record name (writeFields (writeObject names depth) sc (sc.store.fields id))
    | none, none => .null

/-- The written form of a value. -/
def write (sc : Scene) (names : Names) (v : Value) : Written :=
  .ofValue (sc.writeObject names (sc.store.size + 2)) v

/-- The attributes that a snapshot of a component shows. -/
def shownFields (sc : Scene) (names : Names) (id : ObjectId) (cls : ClassId) :
    List (String × Written) :=
  let object := writeObject names (sc.store.size + 2)
  if sc.classes.isView cls then
    (differing object sc id cls).filter fun (name, _) =>
      name != "subviews" && name.toList.head? != some '_'
  else if (sc.component? id).isNone then differing object sc id cls
  else (writeFields object sc (sc.store.fields id)).filter fun (name, _) => name != "children"

/-- The snapshot of a component. A tree that is deeper than there are objects does not end. -/
def snapshotTo (sc : Scene) (names : Names) : (depth : Nat) → ObjectId → Except Failure Snapshot
  | 0, _ => .error .endlessTree
  | depth + 1, id =>
    match sc.component? id with
    | some cls => do
      let children ← (← sc.children id).mapM (sc.snapshotTo names depth)
      return .mk (sc.classes.name cls) (sc.shownFields names id cls) children
    | none => .ok (.mk "" [] [])

/-- The snapshot of a component with all that is inside of it. -/
def snapshot (sc : Scene) (names : Names) (id : ObjectId) : Except Failure Snapshot :=
  sc.snapshotTo names (sc.store.size + 1) id

end Scene
end ViewMarkup
