import ViewMarkup.Toml.Value

/-!
# Tables of settings files

A file builds up a tree of tables. Which parts of it may still be extended is kept beside the tree
as marks on keys: a table that has a heading gets no second one, and tables and arrays written
inline stay as they are.
-/

namespace ViewMarkup.Toml

/-- A key with dots: the way from the root. -/
abbrev Key := List String

/-- Changes the table that a key leads to, which is made where it is missing. Through an array the
way leads to its last element, if `throughArrays` holds; there is no way through other values. -/
def updateAt (throughArrays : Bool)
    (change : List (String × Toml) → Reading (List (String × Toml))) :
    Key → List (String × Toml) → Reading (List (String × Toml))
  | [], t => change t
  | k :: ks, t => do
    match Table.get? (α := Toml) t k with
    | none => return t ++ [(k, .table (← updateAt throughArrays change ks []))]
    | some (.table inner) =>
      return Table.put (α := Toml) t k (.table (← updateAt throughArrays change ks inner))
    | some (.array items) =>
      if !throughArrays then malformed
      else
        match items.getLast? with
        | some (.table inner) =>
          let inner ← updateAt throughArrays change ks inner
          return Table.put (α := Toml) t k (.array (items.dropLast ++ [.table inner]))
        | _ => malformed
    | some _ => malformed

/-- Adds a value under a key that has none. -/
def insertAt (throughArrays : Bool) (parent : Key) (k : String) (v : Toml)
    (t : List (String × Toml)) : Reading (List (String × Toml)) :=
  updateAt throughArrays (fun inner =>
    if (Table.get? (α := Toml) inner k).isSome then malformed else .ok (inner ++ [(k, v)])) parent t

/-- Adds an empty table to the array under a key, which is made where it is missing. -/
def appendTable (parent : Key) (k : String) (t : List (String × Toml)) :
    Reading (List (String × Toml)) :=
  updateAt true (fun inner =>
    match Table.get? (α := Toml) inner k with
    | none => .ok (inner ++ [(k, .array [.table []])])
    | some (.array items) => .ok (Table.put (α := Toml) inner k (.array (items ++ [.table []])))
    | some _ => malformed) parent t

/-- What keys are marked with: tables with a heading (or opened by dots), and what may not be
changed, which holds for everything below as well. -/
structure Marks where
  headed : List Key := []
  frozen : List Key := []

/-- Whether a key is marked as a table that is not opened again. -/
def Marks.isHeaded (m : Marks) (k : Key) : Bool := m.headed.contains k

/-- Whether a key lies at or below one that may not be changed. -/
def Marks.isFrozen (m : Marks) (k : Key) : Bool := m.frozen.any (·.isPrefixOf k)

/-- Forgets what is known of a key and everything below it. -/
def Marks.forget (m : Marks) (k : Key) : Marks where
  headed := m.headed.filter fun k' => !k.isPrefixOf k'
  frozen := m.frozen.filter fun k' => !k.isPrefixOf k'

/-- Marks a table as having its heading. -/
def Marks.head (m : Marks) (k : Key) : Marks := { m with headed := k :: m.headed }

/-- Marks a value as not to be changed. -/
def Marks.freeze (m : Marks) (k : Key) : Marks := { m with frozen := k :: m.frozen }

/-- Whether a value contains others, so that its key may lead further. -/
def isContainer : Toml → Bool
  | .array _ | .table _ => true
  | _ => false

end ViewMarkup.Toml
