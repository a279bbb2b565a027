/-!
# Positions

A position counts from the front, the first element being at zero, or from the end, the last element
being at minus one.

## Main results

- `atPosition?_ofNat`: positions that are not negative are indices.
- `mem_of_atPosition?`: what is found at a position is one of the elements.
-/

namespace ViewMarkup

/-- The element at a position. -/
def atPosition? {α : Type} (xs : List α) : Int → Option α
  | .ofNat i => xs[i]?
  | .negSucc i => if i < xs.length then xs[xs.length - 1 - i]? else none

theorem atPosition?_ofNat {α : Type} (xs : List α) (i : Nat) : atPosition? xs i = xs[i]? := rfl

theorem mem_of_atPosition? {α : Type} {xs : List α} {i : Int} {x : α}
    (h : atPosition? xs i = some x) : x ∈ xs := by
  cases i with
  | ofNat i => exact List.mem_of_getElem? h
  | negSucc i =>
    simp only [atPosition?] at h
    split at h
    · exact List.mem_of_getElem? h
    · cases h

end ViewMarkup
