import ViewMarkup.Object.Store

/-!
# Blueprints

A blueprint says how a value is made: as it stands, or with new objects inside. Making a value from
the same blueprint twice gives two values that share no object.
-/

namespace ViewMarkup

/-- How a value is made. A reference names an object that is there already. -/
inductive Blueprint where
  | value (v : Value)
  | reference (name : String)
  | list (items : List Blueprint)
  | object (type : ObjectType) (fields : List (String × Blueprint))
deriving Repr

namespace Blueprint

mutual

/-- Makes a value; `lookup` finds the objects that are referred to by name. -/
def make (lookup : String → Value) : Blueprint → Store → Value × Store
  | .value v, s => (v, s)
  | .reference name, s => (lookup name, s)
  | .list items, s =>
    let (vs, s) := makeList lookup items s
    (.list vs, s)
  | .object type fields, s =>
    let (id, s) := s.add { type }
    (.object id, makeFields lookup id fields s)

/-- Makes several values in order. -/
def makeList (lookup : String → Value) : List Blueprint → Store → List Value × Store
  | [], s => ([], s)
  | b :: bs, s =>
    let (v, s) := make lookup b s
    let (vs, s) := makeList lookup bs s
    (v :: vs, s)

/-- Makes the attributes of an object in order. -/
def makeFields (lookup : String → Value) (id : ObjectId) : List (String × Blueprint) → Store → Store
  | [], s => s
  | (name, b) :: rest, s =>
    let (v, s) := make lookup b s
    makeFields lookup id rest (s.setField id name v)

end

mutual

/-- The names that a blueprint refers to. -/
def references : Blueprint → List String
  | .value _ => []
  | .reference name => [name]
  | .list items => referencesOfList items
  | .object _ fields => referencesOfFields fields

/-- The names that some blueprints refer to. -/
def referencesOfList : List Blueprint → List String
  | [] => []
  | b :: bs => references b ++ referencesOfList bs

/-- The names that the attributes of an object refer to. -/
def referencesOfFields : List (String × Blueprint) → List String
  | [] => []
  | (_, b) :: rest => references b ++ referencesOfFields rest

end

/-- The value, if every use of the blueprint may share one. Fonts and collections are made for each
instance. -/
def fixed? : Blueprint → Option Value
  | .value (.font _) | .value (.list _) | .value (.selection _) => none
  | .value v => some v
  | _ => none

end Blueprint
end ViewMarkup
