import ViewMarkup.Object.Attribute
import ViewMarkup.Object.Reach

/-!
# Bindings

A binding links a path on an owner with a path on a view. The host says when values have changed,
and they are then copied from the one to the other. Bindings keep nothing alive: a binding whose
view or owner can no longer be reached is passed over.

## Main results

- `Bindings.of_release_self`, `Bindings.of_release_ne`: releasing one owner takes all of its
  bindings and none of another's.
- `Bindings.of_record_self`, `Bindings.of_record_ne`: a new binding comes after those that the owner
  has, and other owners have theirs.
-/

namespace ViewMarkup

/-- A link between a path on an owner and a path on a view. -/
structure Binding where
  owner : ObjectId
  ownerPath : String
  view : ObjectId
  viewPath : String
deriving DecidableEq, Repr

/-- The bindings of owners. -/
abbrev Bindings := Table ObjectId (List Binding)

/-- Whether an object can be referred to without being kept alive. -/
def Store.isReferable (s : Store) (id : ObjectId) : Bool :=
  match s.type? id with
  | some (.host _ _ referable) => referable
  | _ => true

namespace Bindings

/-- The bindings of an owner in the order in which they were registered. -/
def of (t : Bindings) (owner : ObjectId) : List Binding := (t.get? owner).getD []

/-- The bindings with one more. -/
def record (t : Bindings) (b : Binding) : Bindings := t.put b.owner (t.of b.owner ++ [b])

/-- Registers a binding. Both paths have to lead somewhere. -/
def register (t : Bindings) (sc : Scene) (b : Binding) : Except Failure Bindings := do
  let _ ← sc.readPath (.object b.owner) b.ownerPath
  let _ ← sc.readPath (.object b.view) b.viewPath
  match [b.owner, b.view].find? (!sc.store.isReferable ·) with
  | some blocked =>
    throw (.of (.binding (.unbindable (sc.typeName (.object b.owner)) (sc.typeName (.object b.view))
      (sc.typeName (.object blocked)))))
  | none => return t.record b

/-- The bindings without those of an owner. -/
def release (t : Bindings) (owner : ObjectId) : Bindings := t.without owner

/-- The bindings without those of an owner whose views are no longer alive. -/
def prune (t : Bindings) (sc : Scene) (roots : List ObjectId) (owner : ObjectId) : Bindings :=
  match t.get? owner with
  | some bs =>
    let alive := sc.store.reachable (owner :: roots)
    t.put owner (bs.filter fun b => alive.contains b.view)
  | none => t

/-- The bindings of a view, of all owners in order; those of one path, if one is given. -/
def ofView (t : Bindings) (view : ObjectId) (path : Option String) : List Binding :=
  t.flatMap fun (_, bs) => bs.filter fun b => b.view == view && path.all (· == b.viewPath)

theorem of_eq_of_get? {t : Bindings} {owner : ObjectId} {bs : List Binding}
    (h : t.get? owner = some bs) : t.of owner = bs := by
  rw [of, h, Option.getD_some]

theorem of_record_self (t : Bindings) (b : Binding) :
    (t.record b).of b.owner = t.of b.owner ++ [b] := by
  simp [record, of, Table.get?_put_self]

theorem of_record_ne {t : Bindings} {b : Binding} {other : ObjectId} (hNe : other ≠ b.owner) :
    (t.record b).of other = t.of other := by
  simp [record, of, Table.get?_put_ne _ hNe]

theorem of_release_self (t : Bindings) (owner : ObjectId) : (t.release owner).of owner = [] := by
  simp [release, of, Table.get?_without_self]

theorem of_release_ne {t : Bindings} {owner other : ObjectId} (hNe : other ≠ owner) :
    (t.release owner).of other = t.of other := by
  simp [release, of, Table.get?_without_ne hNe]

end Bindings

/-! ## Propagation -/

namespace Binding

/-- Copies the owner's value to the view. -/
def push (b : Binding) (sc : Scene) : Except Failure Store := do
  sc.writePath (.object b.view) b.viewPath (← sc.readPath (.object b.owner) b.ownerPath)

/-- Copies the view's value to the owner. -/
def pull (b : Binding) (sc : Scene) : Except Failure Store := do
  sc.writePath (.object b.owner) b.ownerPath (← sc.readPath (.object b.view) b.viewPath)

end Binding

/-- Carries out copies one after the other and counts them. A binding whose `far` end is no longer
alive by then is passed over; the one before it is still held at that moment. The first failure ends
the run, and what was copied before stays. -/
def propagate (roots : List ObjectId) (move : Binding → Scene → Except Failure Store)
    (far : Binding → ObjectId) :
    List Binding → (held : List ObjectId) → (count : Nat) → Scene → Except Failure Nat × Scene
  | [], _, count, sc => (.ok count, sc)
  | b :: bs, held, count, sc =>
    if sc.store.isAlive (held ++ roots) (far b) then
      match move b sc with
      | .ok store => propagate roots move far bs [far b] (count + 1) { sc with store }
      | .error failure => (.error failure, sc)
    else propagate roots move far bs [] count sc

end ViewMarkup
