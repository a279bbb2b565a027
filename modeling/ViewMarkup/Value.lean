import ViewMarkup.Color.Basic
import ViewMarkup.Enumeration
import ViewMarkup.Font
import ViewMarkup.Table

/-!
# Values

The attributes of views and of the objects of a host hold values. Views and other objects are
referred to by number; everything else stands in the attribute itself.

## Main results

- `Selection.get?_put_self`, `Selection.get?_put_ne`: what is selected after a row was.
-/

namespace ViewMarkup

/-- The number of an object in a store. Numbers are never used twice. -/
abbrev ObjectId := Nat

/-- The number that tells an object apart from all others that are alive. -/
abbrev Identity := Nat

/-- One choice of a segmented control. -/
structure Segment where
  title : Option String
  value : Option String
  imageName : Option String
deriving DecidableEq, Repr

/-- One row of a picker component. -/
structure PickerRow where
  title : String
  value : Option String
deriving DecidableEq, Repr

/-- One column of a picker. -/
structure PickerComponent where
  name : Option String := none
  rows : List PickerRow := []
deriving DecidableEq, Repr

/-- One section of a table, with the views of its rows, header and footer. -/
structure TableSection where
  name : Option String := none
  title : Option String := none
  header : Option ObjectId := none
  footer : Option ObjectId := none
  rows : List ObjectId := []
deriving DecidableEq, Repr

/-- A number that serves as a key, as it was given. Only the number counts. -/
inductive Key where
  | int (n : Int)
  | bool (b : Bool)
  | member (m : Member)
deriving DecidableEq, Repr

/-- The number that a key is. -/
def Key.number : Key → Int
  | .int n => n
  | .bool b => if b then 1 else 0
  | .member m => m.value

/-- What is selected: the number of a row for each of some keys, in order of first selection. -/
abbrev Selection := List (Key × Nat)

namespace Selection

/-- The row selected under a key, which is found by its number. -/
def get? (t : Selection) (n : Int) : Option Nat :=
  (t.find? fun e => e.1.number == n).map (·.2)

/-- Selects a row under a key. A key that is there stays as it was first given. -/
def put : Selection → Key → Nat → Selection
  | [], k, row => [(k, row)]
  | e :: t, k, row =>
    if e.1.number = k.number then (e.1, row) :: t else e :: put t k row

theorem get?_put_self (t : Selection) (k : Key) (row : Nat) :
    (t.put k row).get? k.number = some row := by
  induction t with
  | nil => simp [put, get?]
  | cons e t ih =>
    by_cases h : e.1.number = k.number
    · simp [put, get?, h]
    · simpa [put, get?, h] using ih

theorem get?_put_ne {t : Selection} {k : Key} {n : Int} (row : Nat) (hNe : n ≠ k.number) :
    (t.put k row).get? n = t.get? n := by
  induction t with
  | nil => simp [put, get?, Ne.symm hNe]
  | cons e t ih =>
    by_cases h : e.1.number = k.number
    · simp [put, get?, h, Ne.symm hNe]
    · by_cases hn : e.1.number = n
      · subst hn
        simp [put, get?, h]
      · simpa [put, get?, h, hn] using ih

end Selection

/-- What an attribute can hold. An operation is one of an object's class, by name; a type is a class
as such. -/
inductive Value where
  | none
  | bool (b : Bool)
  | int (n : Int)
  | float (x : Float)
  | text (s : String)
  | member (m : Member)
  | color (c : Color)
  | descriptor (d : FontDescriptor)
  | font (f : Font)
  | image (width height : Nat)
  | list (items : List Value)
  | tuple (items : List Value)
  | segment (s : Segment)
  | pickerRow (r : PickerRow)
  | pickerComponent (c : PickerComponent)
  | tableSection (s : TableSection)
  | selection (rows : Selection)
  | operation (name : String)
  | type (name : String)
  | object (id : ObjectId)
deriving Repr

/-- Attributes by name, in the order in which they were first set. -/
abbrev Fields := Table String Value

namespace Value

/-- A text or nothing. -/
def ofText? : Option String → Value
  | some s => .text s
  | Option.none => .none

/-- An object or nothing. -/
def ofObject? : Option ObjectId → Value
  | some id => .object id
  | Option.none => .none

/-- A key as a value. -/
def ofKey : Key → Value
  | .int n => .int n
  | .bool b => .bool b
  | .member m => .member m

/-- The value as a key, if it is a whole number. -/
def key? : Value → Option Key
  | .int n => some (.int n)
  | .bool b => some (.bool b)
  | .member m => some (.member m)
  | _ => Option.none

/-- A number as it was given. -/
def ofNumber : Number → Value
  | .int n => .int n
  | .float x => .float x

/-- The value as a number, if it counts as one. Truth values and members of enumerations do. -/
def number? : Value → Option Number
  | .bool b => some (.int (if b then 1 else 0))
  | .int n => some (.int n)
  | .float x => some (.float x)
  | .member m => some (.int m.value)
  | _ => Option.none

/-- What a value is called in messages, where `object` says it of an object. -/
def typeName (object : ObjectId → String) : Value → String
  | .none => "NoneType"
  | .bool _ => "bool"
  | .int _ => "int"
  | .float _ => "float"
  | .text _ => "str"
  | .member m => m.enumeration
  | .color _ => "Color"
  | .descriptor _ => "FontDescriptor"
  | .font _ => "Font"
  | .image _ _ => "Image"
  | .list _ => "list"
  | .tuple _ => "tuple"
  | .segment _ => "Segment"
  | .pickerRow _ => "PickerRow"
  | .pickerComponent _ => "PickerComponent"
  | .tableSection _ => "TableSection"
  | .selection _ => "dict"
  | .operation _ => "method"
  | .type _ => "type"
  | .object id => object id

/-- What a value that is no object is called in messages. -/
def plainTypeName (v : Value) : String := v.typeName fun _ => "object"

/-- Whether the value stands for yes where only that is asked. -/
def isTrue : Value → Bool
  | .none => false
  | .bool b => b
  | .int n => n ≠ 0
  | .float x => x != 0.0
  | .text s => !s.isEmpty
  | .member m => m.value ≠ 0
  | .list items => !items.isEmpty
  | .tuple items => !items.isEmpty
  | .selection rows => !rows.isEmpty
  | _ => true

/-- The objects that a section refers to. -/
def sectionObjects (s : TableSection) : List ObjectId :=
  s.header.toList ++ s.rows ++ s.footer.toList

mutual

/-- The objects that a value refers to, in order. -/
def objects : Value → List ObjectId
  | .object id => [id]
  | .list items => objectsOfList items
  | .tuple items => objectsOfList items
  | .tableSection s => sectionObjects s
  | _ => []

/-- The objects that some values refer to, in order. -/
def objectsOfList : List Value → List ObjectId
  | [] => []
  | v :: vs => objects v ++ objectsOfList vs

end

end Value
end ViewMarkup
