/-!
# Linearization

A class that builds on several others needs an order in which their parts are looked up. The lineage
of a class lists the class itself and all it builds on, such that every class stands before those
that it builds on and the bases of every class keep their order.
-/

namespace ViewMarkup.Component

variable {α : Type} [DecidableEq α]

/-- Whether no list has the element behind its front. -/
def isFree (x : α) (lists : List (List α)) : Bool := lists.all fun l => !l.tail.contains x

/-- The first front that stands behind no other front. -/
def nextFront? (lists : List (List α)) : Option α :=
  (lists.filterMap List.head?).find? fun x => isFree x lists

/-- Takes an element off the fronts. -/
def dropFront (x : α) (lists : List (List α)) : List (List α) :=
  lists.map fun l => if l.head? = some x then l.tail else l

/-- Merges lists into one that keeps the order of each. When that cannot be done, the fronts at
which it failed are given. -/
def merge : (fuel : Nat) → List (List α) → Except (List α) (List α)
  | 0, lists => .error (lists.filterMap List.head?)
  | fuel + 1, lists =>
    let lists := lists.filter fun l => !l.isEmpty
    if lists.isEmpty then .ok []
    else
      match nextFront? lists with
      | some x => (merge fuel (dropFront x lists)).map (x :: ·)
      | none => .error (lists.filterMap List.head?).eraseDups

/-- The lineage of a class on bases with the lineages given. -/
def linearize (x : α) (bases : List (α × List α)) : Except (List α) (List α) :=
  let lists := bases.map (·.2) ++ [bases.map (·.1)]
  (merge (lists.flatten.length + 1) lists).map (x :: ·)

end ViewMarkup.Component
