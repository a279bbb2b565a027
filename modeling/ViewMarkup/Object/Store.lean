import ViewMarkup.Value

/-!
# Objects

Views and the objects of a host live in a store and are referred to by number. An object is never
removed from its number, and a number is never given to another object.

## Main results

- `Store.get?_add_self`, `Store.get?_add_of_lt`: a new object gets a number of its own and leaves
  the others as they were.
- `Store.get?_modify_ne`: changing one object leaves the others as they were.
-/

namespace ViewMarkup

/-- The number of a component class. -/
abbrev ClassId := Nat

/-- What an object is: an instance of a component class, or an object of the host. `declared` are
the names that its class declares without a value; only an object that can be referred to weakly can
be bound, and only such a one takes new attributes. -/
inductive ObjectType where
  | component (cls : ClassId)
  | host (name : String) (declared : List String) (referable : Bool)
deriving DecidableEq, Repr

/-- An object with its attributes. -/
structure Object where
  type : ObjectType
  fields : Fields := []
deriving Repr

/-- What is no object and yet takes new attributes: every use of it shows them. -/
inductive Bearer where
  | member (m : Member)
  | image (width height : Nat)
deriving DecidableEq, Repr

/-- All objects there have been, by number, and the attributes that a host has given to what is no
object. -/
structure Store where
  objects : Array Object := #[]
  borne : Table Bearer Fields := []

namespace Store

/-- How many objects there have been. -/
def size (s : Store) : Nat := s.objects.size

/-- The object with a number. -/
def get? (s : Store) (id : ObjectId) : Option Object := s.objects[id]?

/-- What an object is. -/
def type? (s : Store) (id : ObjectId) : Option ObjectType := (s.get? id).map (·.type)

/-- The class of a component. -/
def class? (s : Store) (id : ObjectId) : Option ClassId :=
  match s.type? id with
  | some (.component cls) => some cls
  | _ => none

/-- The store with one more object, and its number. -/
def add (s : Store) (o : Object) : ObjectId × Store :=
  (s.size, { s with objects := s.objects.push o })

/-- The store with one object changed. -/
def modify (s : Store) (id : ObjectId) (f : Object → Object) : Store :=
  { s with objects := s.objects.modify id f }

/-- The attributes of an object. -/
def fields (s : Store) (id : ObjectId) : Fields := ((s.get? id).map (·.fields)).getD []

/-- The value that an object has stored under an attribute. -/
def field? (s : Store) (id : ObjectId) (name : String) : Option Value := (s.fields id).get? name

/-- The store with an attribute of an object set. -/
def setField (s : Store) (id : ObjectId) (name : String) (v : Value) : Store :=
  s.modify id fun o => { o with fields := o.fields.put name v }

/-- The attribute that a host has given to what is no object. -/
def borne? (s : Store) (b : Bearer) (name : String) : Option Value :=
  (s.borne.get? b).bind (·.get? name)

/-- The store with an attribute given to what is no object. -/
def bear (s : Store) (b : Bearer) (name : String) (v : Value) : Store :=
  { s with borne := s.borne.put b (((s.borne.get? b).getD []).put name v) }

theorem get?_add_self (s : Store) (o : Object) : (s.add o).2.get? (s.add o).1 = some o := by
  simp [add, get?, size]

theorem get?_add_of_lt {s : Store} {id : ObjectId} (o : Object) (h : id < s.size) :
    (s.add o).2.get? id = s.get? id := by
  have hNe : id ≠ s.objects.size := Nat.ne_of_lt h
  simp [add, get?, Array.getElem?_push, hNe]

theorem get?_modify_ne {s : Store} {id id' : ObjectId} (f : Object → Object) (hNe : id' ≠ id) :
    (s.modify id f).get? id' = s.get? id' := by
  simp [modify, get?, Array.getElem?_modify, Ne.symm hNe]

end Store
end ViewMarkup
