import ViewMarkup.Component.Capabilities
import ViewMarkup.Failure

/-!
# Operations of classes

What a class lets its instances do, by name, with the names of the arguments. Whether an operation
takes a number of arguments is decided before it is carried out.

## Main results

- `Operation.check_eq_ok_iff`: an operation takes from as many arguments as it needs up to as many
  as it knows.
-/

namespace ViewMarkup

/-- An operation: the arguments that it needs, and those that it may be given besides. -/
structure Operation where
  name : String
  needed : List String := []
  optional : List String := []
deriving DecidableEq, Repr

namespace Operation

/-- How many arguments an operation knows. -/
def most (o : Operation) : Nat := o.needed.length + o.optional.length

/-- Checks the number of arguments given to an operation of a class. In the wording the object
itself counts as an argument. -/
def check (o : Operation) (cls : String) (given : Nat) : Except Mistyped Unit :=
  let label := cls ++ "." ++ o.name
  if o.most < given then
    .error (.tooManyArguments label (o.needed.length + 1) (o.most + 1) (given + 1))
  else
    match o.needed.drop given with
    | [] => .ok ()
    | missing => .error (.missingArguments label missing)

theorem check_eq_ok_iff (o : Operation) (cls : String) (given : Nat) :
    o.check cls given = .ok () ↔ o.needed.length ≤ given ∧ given ≤ o.most := by
  unfold check
  by_cases hMost : o.most < given
  · simp [hMost, Nat.not_le.2 hMost]
  · by_cases hLeast : o.needed.length ≤ given
    · simp [hMost, List.drop_eq_nil_of_le hLeast, hLeast, Nat.not_lt.1 hMost]
    · have hDrop : o.needed.drop given ≠ [] := by
        simpa [List.drop_eq_nil_iff] using Nat.not_le.1 hLeast
      simp [hMost, hLeast]

/-- The operation that makes an instance in a style. -/
def create : Operation := { name := "create_for_markup", needed := ["style"] }

end Operation

/-- The operation behind a hook. -/
def Hook.operation (h : Hook) : Operation where
  name := h.name
  needed :=
    match h with
    | .instruction => ["target", "data"]
    | .raw => ["name", "attributes"]
    | .text => ["text"]
    | .append => ["view"]

end ViewMarkup
