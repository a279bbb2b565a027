import ViewMarkup.Object.Attribute

/-!
# Trees of components

A component can have others inside of it, which makes trees of them. A component of a tree goes by
the name of the root and the indices of the children on the way.
-/

namespace ViewMarkup

/-- The names that components go by. -/
abbrev Names := Table ObjectId String

namespace Scene

/-- The class of a component that is no mere part. -/
def component? (sc : Scene) (id : ObjectId) : Option ClassId :=
  (sc.store.class? id).filter fun cls => !(sc.classes.get? cls).any (·.role = .part)

/-- The components inside of an object: what a view shows, or what a component was given. An
attribute that is not there holds none; one that holds no list cannot be looked through. -/
def children (sc : Scene) (id : ObjectId) : Except Failure (List ObjectId) :=
  match sc.component? id with
  | none => .ok []
  | some cls =>
    match sc.store.field? id (if sc.classes.isView cls then "subviews" else "children") with
    | none => .ok []
    | some v =>
      (sc.elements v).map (·.filterMap fun
        | .object c => (sc.component? c).map fun _ => c
        | _ => none)

/-! ## Names -/

/-- Names for the objects of a tree that have none yet, in preorder. No object is gone through
twice. -/
def nameTree (sc : Scene) : (depth : Nat) → Names → String → ObjectId → Except Failure Names
  | 0, names, _, _ => .ok names
  | depth + 1, names, place, id =>
    if names.has id then .ok names
    else do
      (← sc.children id).zipIdx.foldlM
        (fun names (c, i) => sc.nameTree depth names (place ++ "/" ++ toString i) c)
        (names.put id place)

/-- Names for everything in some trees: the first place where it stands. -/
def namesIn (sc : Scene) (roots : Table String ObjectId) : Except Failure Names :=
  roots.foldlM (fun names (name, id) => sc.nameTree (sc.store.size + 1) names name id) []

end Scene
end ViewMarkup
