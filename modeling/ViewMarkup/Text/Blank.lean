/-!
# Blank characters and trimming

Attribute values, element text and instruction data are trimmed before they are used. The blank
characters are those with the Unicode property `White_Space` and the four information separators
U+001C to U+001F.

## Main results

- `trimList_eq_self`: a text that neither starts nor ends with a blank is its own trimmed form.
-/

namespace ViewMarkup.Text

/-- Whether the character is removed by trimming. -/
def isBlank (c : Char) : Bool :=
  let n := c.toNat
  (9 ≤ n && n ≤ 13) || (28 ≤ n && n ≤ 32) || n == 0x85 || n == 0xa0 || n == 0x1680 ||
    (0x2000 ≤ n && n ≤ 0x200a) || n == 0x2028 || n == 0x2029 || n == 0x202f || n == 0x205f ||
    n == 0x3000

/-- A list of characters without the blanks at either end. -/
def trimList (cs : List Char) : List Char :=
  ((cs.dropWhile isBlank).reverse.dropWhile isBlank).reverse

/-- A text without the blanks at either end. -/
def trim (s : String) : String := String.ofList (trimList s.toList)

/-- Whether nothing but blanks stands in the text. -/
def isBlankText (s : String) : Bool := s.toList.all isBlank

theorem dropWhile_eq_self {p : Char → Bool} {cs : List Char}
    (h : ∀ c, cs.head? = some c → p c = false) : cs.dropWhile p = cs := by
  cases cs with
  | nil => rfl
  | cons c cs => simp [h c rfl]

/-- Trimming changes nothing when there is no blank at either end. -/
theorem trimList_eq_self {cs : List Char} (hHead : ∀ c, cs.head? = some c → isBlank c = false)
    (hLast : ∀ c, cs.getLast? = some c → isBlank c = false) : trimList cs = cs := by
  rw [trimList, dropWhile_eq_self hHead, dropWhile_eq_self, List.reverse_reverse]
  simpa using hLast

/-- The maximal runs of characters that are not blank, in order. -/
def words (s : String) : List String :=
  go s.toList []
where
  /-- `current` holds the word being read, last character first. -/
  go : List Char → List Char → List String
    | [], [] => []
    | [], current => [String.ofList current.reverse]
    | c :: cs, current =>
      if isBlank c then
        if current.isEmpty then go cs [] else String.ofList current.reverse :: go cs []
      else go cs (c :: current)

end ViewMarkup.Text
