/-!
# Splitting at a separator

Texts are cut at the first or at the last occurrence of a separator character, or at all of them.

## Main results

- `joinList_splitList`: joining the pieces with the separator gives the text back.
- `cutFirst?_append`: a text without the separator is cut off in front of one.
-/

namespace ViewMarkup.Text

/-- The parts before and after the first separator, if there is one. -/
def cutFirst? (sep : Char) : List Char → Option (List Char × List Char)
  | [] => none
  | c :: cs =>
    if c = sep then some ([], cs) else (cutFirst? sep cs).map fun (a, b) => (c :: a, b)

/-- The parts before and after the last separator, if there is one. -/
def cutLast? (sep : Char) (cs : List Char) : Option (List Char × List Char) :=
  (cutFirst? sep cs.reverse).map fun (b, a) => (a.reverse, b.reverse)

/-- The pieces between the separators; a text without one is a single piece. -/
def splitList (sep : Char) : List Char → List (List Char)
  | [] => [[]]
  | c :: cs =>
    if c = sep then [] :: splitList sep cs
    else
      match splitList sep cs with
      | [] => [[c]]
      | p :: ps => (c :: p) :: ps

/-- The pieces of a text between the separators. -/
def splitOn (sep : Char) (s : String) : List String :=
  (splitList sep s.toList).map String.ofList

/-- The pieces of a list joined with a separator. -/
def joinList (sep : Char) : List (List Char) → List Char
  | [] => []
  | [p] => p
  | p :: ps => p ++ sep :: joinList sep ps

/-- The part before the first separator has none. -/
theorem not_mem_of_cutFirst? {sep : Char} {cs a b : List Char}
    (h : cutFirst? sep cs = some (a, b)) : sep ∉ a := by
  induction cs generalizing a with
  | nil => cases h
  | cons c cs ih =>
    rw [cutFirst?] at h
    split at h
    · cases h
      exact List.not_mem_nil
    · next hNe =>
      obtain ⟨⟨a', b'⟩, hCut, hEq⟩ := Option.map_eq_some_iff.1 h
      cases hEq
      exact List.not_mem_cons_of_ne_of_not_mem (Ne.symm hNe) (ih hCut)

theorem cutFirst?_append {sep : Char} {a : List Char} (b : List Char) (h : sep ∉ a) :
    cutFirst? sep (a ++ sep :: b) = some (a, b) := by
  induction a with
  | nil => simp [cutFirst?]
  | cons c a ih =>
    obtain ⟨hNe, hTail⟩ := List.ne_and_not_mem_of_not_mem_cons h
    simp [cutFirst?, Ne.symm hNe, ih hTail]

theorem splitList_ne_nil (sep : Char) (cs : List Char) : splitList sep cs ≠ [] := by
  cases cs with
  | nil => simp [splitList]
  | cons c cs =>
    simp only [splitList]
    split
    · simp
    · split <;> simp

theorem splitOn_ne_nil (sep : Char) (s : String) : splitOn sep s ≠ [] :=
  fun h => splitList_ne_nil sep s.toList (List.map_eq_nil_iff.1 h)

/-- Splitting loses nothing. -/
theorem joinList_splitList (sep : Char) (cs : List Char) :
    joinList sep (splitList sep cs) = cs := by
  induction cs with
  | nil => rfl
  | cons c cs ih =>
    simp only [splitList]
    split
    · next h =>
      cases hs : splitList sep cs with
      | nil => exact absurd hs (splitList_ne_nil sep cs)
      | cons p ps =>
        rw [hs] at ih
        simp [joinList, ih, h]
    · cases hs : splitList sep cs with
      | nil => exact absurd hs (splitList_ne_nil sep cs)
      | cons p ps =>
        rw [hs] at ih
        cases ps <;> simp_all [joinList]

/-- Whether the text contains the character. -/
def hasChar (c : Char) (s : String) : Bool := s.toList.contains c

/-- Texts joined with a separating text. -/
def joined (sep : String) (parts : List String) : String := sep.intercalate parts

end ViewMarkup.Text
