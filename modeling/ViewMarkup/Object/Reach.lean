import ViewMarkup.Object.Store

/-!
# Reachable objects

An object is alive while it can be reached from what the host holds. References run through the
attributes of objects. What has attributes without being an object is never gone, so that what it
refers to is always alive.

## Main results

- `Store.mem_mark_of_mem`: what is marked stays marked.
-/

namespace ViewMarkup.Store

/-- The objects that an object refers to. -/
def references (s : Store) (id : ObjectId) : List ObjectId :=
  (s.fields id).flatMap fun (_, v) => v.objects

/-- The objects that the attributes of what is no object refer to. -/
def borneObjects (s : Store) : List ObjectId :=
  s.borne.flatMap fun (_, fields) => fields.flatMap fun (_, v) => v.objects

/-- How many references objects have in all. -/
def referenceCount (s : Store) : Nat :=
  s.objects.foldl (fun n o => n + (o.fields.flatMap fun (_, v) => v.objects).length) 0

/-- Marks what can be reached from a worklist; the fuel counts the entries taken off it. -/
def mark (s : Store) : (fuel : Nat) → (marked work : List ObjectId) → List ObjectId
  | 0, marked, _ => marked
  | _, marked, [] => marked
  | fuel + 1, marked, id :: work =>
    if marked.contains id then s.mark fuel marked work
    else s.mark fuel (id :: marked) (s.references id ++ work)

/-- What can be reached from some objects. Every object is marked once, so no more entries are taken
off the worklist than there are roots and references. -/
def reachable (s : Store) (roots : List ObjectId) : List ObjectId :=
  let work := roots ++ s.borneObjects
  s.mark (work.length + s.referenceCount) [] work

/-- Whether an object can be reached from some objects. -/
def isAlive (s : Store) (roots : List ObjectId) (id : ObjectId) : Bool :=
  (s.reachable roots).contains id

/-- What is marked stays marked. -/
theorem mem_mark_of_mem (s : Store) (fuel : Nat) (marked work : List ObjectId) {id : ObjectId}
    (h : id ∈ marked) : id ∈ s.mark fuel marked work := by
  fun_induction mark s fuel marked work <;> simp_all

end ViewMarkup.Store
