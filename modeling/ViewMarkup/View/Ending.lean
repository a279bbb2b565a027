/-!
# Endings of lists

What a view has added to one of its lists stands at the end of it, behind whatever a host has put
there.

## Main results

- `Ending.mem_of_cut`: cutting makes up no element.
- `Ending.cut_map`: a list of nothing but known elements is all ending.
-/

namespace ViewMarkup.Ending

variable {α β : Type}

/-- A list cut in front of its longest ending of known elements. -/
def cut (known? : α → Option β) : List α → List α × List β
  | [] => ([], [])
  | x :: xs =>
    match cut known? xs with
    | ([], ys) =>
      match known? x with
      | some y => ([], y :: ys)
      | none => ([x], ys)
    | (front, ys) => (x :: front, ys)

/-- What stands in front is from the list, and every element behind it is one of the list. -/
theorem mem_of_cut (known? : α → Option β) (xs : List α) :
    (∀ x ∈ (cut known? xs).1, x ∈ xs) ∧ ∀ y ∈ (cut known? xs).2, ∃ x ∈ xs, known? x = some y := by
  induction xs with
  | nil => simp [cut]
  | cons x xs ih =>
    obtain ⟨hFront, hEnding⟩ := ih
    have hTail : ∀ y ∈ (cut known? xs).2, ∃ z ∈ x :: xs, known? z = some y := by
      intro y hy
      obtain ⟨z, hz, hKnown⟩ := hEnding y hy
      exact ⟨z, List.mem_cons_of_mem _ hz, hKnown⟩
    simp only [cut]
    split
    · next ys hCut =>
      rw [hCut] at hTail
      split
      · next y hKnown =>
        refine ⟨by simp, fun z hz => ?_⟩
        rcases List.mem_cons.1 hz with rfl | hz
        · exact ⟨x, List.mem_cons_self, hKnown⟩
        · exact hTail z hz
      · exact ⟨fun z hz => by simp_all, hTail⟩
    · next front ys hNe hCut =>
      rw [hCut] at hTail hFront
      refine ⟨fun z hz => ?_, hTail⟩
      rcases List.mem_cons.1 hz with rfl | hz
      · exact List.mem_cons_self
      · exact List.mem_cons_of_mem _ (hFront z hz)

/-- A list of nothing but known elements is all ending. -/
theorem cut_map {known? : α → Option β} {f : β → α} (h : ∀ y, known? (f y) = some y)
    (ys : List β) : cut known? (ys.map f) = ([], ys) := by
  induction ys with
  | nil => rfl
  | cons y ys ih => simp [cut, ih, h]

end ViewMarkup.Ending
