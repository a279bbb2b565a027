import ViewMarkup.Object.Scene
import ViewMarkup.Position

/-!
# Values as collections

An attribute that should hold a list can be given anything. What is asked of a list is therefore
asked of a value, and fails by the name of what the value is.

## Main results

- `Scene.elementAt_list`: in a list, the element at an integer is the one at that position.
-/

namespace ViewMarkup
namespace Scene

/-- What a value runs through, element by element. -/
def elements (sc : Scene) : Value → Except Failure (List Value)
  | .list items | .tuple items => .ok items
  | .text s => .ok (s.toList.map fun c => .text (String.singleton c))
  | .selection rows => .ok (rows.map fun (k, _) => .ofKey k)
  | v => .error (.mistyped (.notIterable (sc.typeName v)))

/-- How many elements a value has. -/
def length (sc : Scene) : Value → Except Failure Nat
  | .list items | .tuple items => .ok items.length
  | .text s => .ok s.length
  | .selection rows => .ok rows.length
  | v => .error (.mistyped (.noLength (sc.typeName v)))

/-- The row selected under a key. Whatever can be a key may be asked for; a list cannot. -/
def selectedAt (sc : Scene) (rows : Selection) (key : Value) : Except Failure (Option Nat) :=
  match key with
  | .list _ | .selection _ | .pickerComponent _ =>
    .error (.mistyped (.noKey (sc.typeName key)))
  | _ =>
    match key.number? with
    | some (.int n) => .ok (rows.get? n)
    | some (.float x) => .ok ((Decimal.toInt? x).bind rows.get?)
    | none => .ok none

/-- An element of a list by its place, where `container` says what kind of list it is. -/
def elementOf (sc : Scene) (container : String) (items : List Value) (place : Value) :
    Except Failure Value :=
  match place.key? with
  | some k => (atPosition? items k.number).elim (.error .indexOutOfRange) .ok
  | none => .error (.mistyped (.indexNotInteger container (sc.typeName place)))

/-- The element of a value at a place. -/
def elementAt (sc : Scene) (v place : Value) : Except Failure Value :=
  match v with
  | .list items => sc.elementOf "list" items place
  | .tuple items => sc.elementOf "tuple" items place
  | .text s =>
    match place.key? with
    | some k =>
      match atPosition? s.toList k.number with
      | some c => .ok (.text (String.singleton c))
      | none => .error .indexOutOfRange
    | none => .error (.mistyped (.textIndexNotInteger (sc.typeName place)))
  | .selection rows => do
    match ← sc.selectedAt rows place with
    | some row => return .int row
    | none => throw .keyMissing
  | v => .error (.mistyped (.notIndexable (sc.typeName v)))

theorem elementAt_list (sc : Scene) (items : List Value) (n : Int) :
    sc.elementAt (.list items) (.int n) =
      (atPosition? items n).elim (.error .indexOutOfRange) .ok := rfl

end Scene
end ViewMarkup
