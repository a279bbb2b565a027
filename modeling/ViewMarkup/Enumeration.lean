/-!
# Enumerations

An enumeration lists names with integer values. A name whose value an earlier name has is another
name of that member, and no member of its own.
-/

namespace ViewMarkup

/-- A list of names with values, in order of declaration. -/
structure Enumeration where
  name : String
  entries : List (String × Int)
deriving DecidableEq, Repr

/-- A member together with the enumeration that it comes from. -/
structure Member where
  enumeration : String
  name : String
  value : Int
deriving DecidableEq, Repr

/-- The entries whose value has not occurred before. -/
def firstByValue : List Int → List (String × Int) → List (String × Int)
  | _, [] => []
  | seen, (name, value) :: rest =>
    if seen.contains value then firstByValue seen rest
    else (name, value) :: firstByValue (value :: seen) rest

/-- The members in order of declaration. -/
def Enumeration.members (e : Enumeration) : List Member :=
  (firstByValue [] e.entries).map fun (name, value) => ⟨e.name, name, value⟩

/-- The member with a value. -/
def Enumeration.ofValue? (e : Enumeration) (value : Int) : Option Member :=
  e.members.find? (·.value == value)

end ViewMarkup
