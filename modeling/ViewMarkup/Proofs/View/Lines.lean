import ViewMarkup.Text.Split

/-!
# Trees as indented lines

A tree is written with one line for each of its nodes, in preorder and indented by two spaces for
every level. The lines are joined into a text. The text falls into the lines again if and only if no
line holds a line feed. The lines make up the tree again if none of them starts with a space by
itself: how deep a node stands is how far its line is indented, and what stands below it are the
lines behind it that are indented further.

## Main results

* `Text.splitOn_joined_eq_iff` — when a text falls into the lines that it was joined from.
* `Rose.eq_of_lines_eq` — trees with the same lines are the same.
* `Rose.splitOn_text_eq_iff`, `Rose.eq_of_text_eq` — when the text of a tree has its lines, and that
  it determines the tree then.
-/

namespace ViewMarkup

/-! ## Lines in a text -/

namespace Text

variable {sep : Char} {a b cs : List Char} {parts : List (List Char)}

private theorem splitList_append (b : List Char) (h : sep ∉ a) :
    splitList sep (a ++ sep :: b) = a :: splitList sep b := by
  induction a with
  | nil => simp [splitList]
  | cons c a ih =>
    obtain ⟨hNe, hTail⟩ := List.ne_and_not_mem_of_not_mem_cons h
    simp [splitList, Ne.symm hNe, ih hTail]

private theorem splitList_of_not_mem (h : sep ∉ a) : splitList sep a = [a] := by
  induction a with
  | nil => rfl
  | cons c a ih =>
    obtain ⟨hNe, hTail⟩ := List.ne_and_not_mem_of_not_mem_cons h
    simp [splitList, Ne.symm hNe, ih hTail]

/-- No piece has a separator in it. -/
theorem not_mem_of_mem_splitList (h : a ∈ splitList sep cs) : sep ∉ a := by
  induction cs generalizing a with
  | nil =>
    rw [splitList, List.mem_singleton] at h
    rw [h]
    exact List.not_mem_nil
  | cons c cs ih =>
    rw [splitList] at h
    split at h
    · rcases List.mem_cons.1 h with rfl | h
      · exact List.not_mem_nil
      · exact ih h
    · next hNe =>
      cases hRest : splitList sep cs with
      | nil => exact absurd hRest (splitList_ne_nil sep cs)
      | cons p ps =>
        simp only [hRest] at h ih
        rcases List.mem_cons.1 h with rfl | h
        · exact List.not_mem_cons_of_ne_of_not_mem (Ne.symm hNe) (ih List.mem_cons_self)
        · exact ih (List.mem_cons_of_mem p h)

/-- Pieces without separators are found again. -/
theorem splitList_joinList (hParts : parts ≠ []) (h : ∀ p ∈ parts, sep ∉ p) :
    splitList sep (joinList sep parts) = parts := by
  induction parts with
  | nil => exact absurd rfl hParts
  | cons p parts ih =>
    obtain ⟨hHead, hTail⟩ := List.forall_mem_cons.1 h
    cases parts with
    | nil => exact splitList_of_not_mem hHead
    | cons q parts =>
      rw [joinList, splitList_append _ hHead, ih (List.cons_ne_nil _ _) hTail]
      simp

private theorem toList_joined (lines : List String) :
    (joined "\n" lines).toList = joinList '\n' (lines.map String.toList) := by
  have hSeparator : "\n".toList = ['\n'] := rfl
  unfold joined
  rw [String.toList_intercalate, hSeparator]
  induction lines with
  | nil => rfl
  | cons line lines ih =>
    cases lines with
    | nil => simp [joinList]
    | cons next lines =>
      rw [List.map_cons, List.map_cons, List.intercalate_cons_cons, joinList]
      · rw [← List.map_cons, ih]
        simp
      · simp

/-- A text falls into the lines that it was joined from if and only if none of them has a line feed
in it. -/
theorem splitOn_joined_eq_iff {lines : List String} (hLines : lines ≠ []) :
    splitOn '\n' (joined "\n" lines) = lines ↔ ∀ line ∈ lines, '\n' ∉ line.toList := by
  unfold splitOn
  rw [toList_joined]
  constructor
  · intro h line hLine
    rw [← h] at hLine
    obtain ⟨piece, hPiece, rfl⟩ := List.mem_map.1 hLine
    rw [String.toList_ofList]
    exact not_mem_of_mem_splitList hPiece
  · intro h
    rw [splitList_joinList (by simpa using hLines) (by simpa using h), List.map_map]
    simp

end Text

/-! ## Trees -/

/-- A tree whose nodes have labels and any number of subtrees, in order. -/
inductive Rose (α : Type) where
  | node (label : α) (below : List (Rose α))

namespace Rose

variable {α β : Type}

/-- The label at the root. -/
def label : Rose α → α
  | node a _ => a

mutual

/-- The labels in preorder. -/
def labels : Rose α → List α
  | node a below => a :: labelsAll below

/-- The labels of several trees. -/
def labelsAll : List (Rose α) → List α
  | [] => []
  | t :: ts => labels t ++ labelsAll ts

end

mutual

/-- The tree with other labels. -/
def map (f : α → β) : Rose α → Rose β
  | node a below => node (f a) (mapAll f below)

/-- Several trees with other labels. -/
def mapAll (f : α → β) : List (Rose α) → List (Rose β)
  | [] => []
  | t :: ts => map f t :: mapAll f ts

end

theorem mem_labelsAll {a : α} {ts : List (Rose α)} :
    a ∈ labelsAll ts ↔ ∃ t ∈ ts, a ∈ t.labels := by
  induction ts with
  | nil => simp [labelsAll]
  | cons t ts ih => simp [labelsAll, ih]

/-- Lists of trees that are determined by their labels. -/
theorem eq_of_map_label_eq {ts ts' : List (Rose α)}
    (h : ∀ t ∈ ts, ∀ t' ∈ ts', t.label = t'.label → t = t')
    (hLabels : ts.map label = ts'.map label) : ts = ts' := by
  induction ts generalizing ts' with
  | nil => exact (List.map_eq_nil_iff.1 hLabels.symm).symm
  | cons t ts ih =>
    cases ts' with
    | nil => cases hLabels
    | cons t' ts' =>
      obtain ⟨hHead, hTail⟩ := List.cons.inj hLabels
      rw [h t List.mem_cons_self t' List.mem_cons_self hHead]
      rw [ih (fun u hu u' hu' => h u (List.mem_cons_of_mem t hu) u' (List.mem_cons_of_mem t' hu'))
        hTail]

mutual

theorem labels_map (f : α → β) : ∀ t : Rose α, (t.map f).labels = t.labels.map f
  | node a below => by rw [map, labels, labels, List.map_cons, labelsAll_mapAll f below]

theorem labelsAll_mapAll (f : α → β) : ∀ ts : List (Rose α),
    labelsAll (mapAll f ts) = (labelsAll ts).map f
  | [] => rfl
  | t :: ts => by
    rw [mapAll, labelsAll, labelsAll, List.map_append, labels_map f t, labelsAll_mapAll f ts]

end

/-- A line that is indented by two spaces for every level. -/
def indented (depth : Nat) (line : String) : String :=
  String.ofList (List.replicate (2 * depth) ' ') ++ line

mutual

/-- The lines of a tree at a depth. -/
def lines (depth : Nat) : Rose String → List String
  | node line below => indented depth line :: linesAll (depth + 1) below

/-- The lines of several trees at the same depth. -/
def linesAll (depth : Nat) : List (Rose String) → List String
  | [] => []
  | t :: ts => lines depth t ++ linesAll depth ts

end

theorem linesAll_mapAll (f : α → String) (ts : List (Rose α)) (depth : Nat) :
    linesAll depth (mapAll f ts) = (ts.map fun t => (t.map f).lines depth).flatten := by
  induction ts with
  | nil => rfl
  | cons t ts ih => rw [mapAll, linesAll, ih, List.map_cons, List.flatten_cons]

/-! ## Reading the lines -/

/-- A line that does not start with a space by itself. -/
def Flush (line : String) : Prop := line.toList.head? ≠ some ' '

/-- How many spaces a line starts with. -/
def indentation (line : String) : Nat := (line.toList.takeWhile (· == ' ')).length

variable {line line' : String} {depth : Nat}

theorem indentation_indented (h : Flush line) : indentation (indented depth line) = 2 * depth := by
  have hLine : line.toList.takeWhile (· == ' ') = [] := by
    cases hChars : line.toList with
    | nil => rfl
    | cons c cs =>
      have hNe : ¬ c = ' ' := by simpa [Flush, hChars] using h
      simp [hNe]
  have hSpaces (n : Nat) : ((List.replicate n ' ' ++ line.toList).takeWhile (· == ' ')).length =
      n := by
    induction n with
    | zero => simp [hLine]
    | succ n ih => simpa [List.replicate_succ] using ih
  rw [indentation, indented, String.toList_append, String.toList_ofList, hSpaces]

private theorem indented_inj (h : indented depth line = indented depth line') : line = line' := by
  have hChars := congrArg String.toList h
  rw [indented, indented, String.toList_append, String.toList_append] at hChars
  exact String.toList_inj.1 (List.append_cancel_left hChars)

/-- Lines behind those of trees at a depth: the first of them is indented less. -/
def Behind (depth : Nat) (rest : List String) : Prop :=
  ∀ line ∈ rest.head?, indentation line < 2 * depth

private theorem Behind.lines_append (t : Rose String) (rest : List String) (h : Flush t.label) :
    Behind (depth + 1) (t.lines depth ++ rest) := by
  cases t with
  | node line below =>
    intro first hFirst
    obtain rfl : indented depth line = first := Option.some.inj hFirst
    have hLine : Flush line := h
    rw [indentation_indented hLine]
    omega

private theorem Behind.linesAll_append {ts : List (Rose String)} {rest : List String}
    (hFlush : ∀ line ∈ labelsAll ts, Flush line) (h : Behind depth rest) :
    Behind (depth + 1) (linesAll depth ts ++ rest) := by
  cases ts with
  | nil =>
    intro line hLine
    have := h line hLine
    omega
  | cons t ts =>
    rw [linesAll, List.append_assoc]
    refine lines_append t _ (hFlush t.label ?_)
    cases t with
    | node line below => exact List.mem_append_left _ List.mem_cons_self

/-- What is behind some trees is none of their lines. -/
theorem Behind.ne_linesAll {t : Rose String} {ts : List (Rose String)} {rest rest' : List String}
    (hFlush : ∀ line ∈ labelsAll (t :: ts), Flush line) (h : Behind depth rest) :
    rest ≠ linesAll depth (t :: ts) ++ rest' := by
  rintro rfl
  cases t with
  | node line below =>
    have hLess := h (indented depth line) rfl
    have hLine : Flush line := hFlush line (List.mem_append_left _ List.mem_cons_self)
    rw [indentation_indented hLine] at hLess
    omega

mutual

/-- The lines of a tree end where a line is not indented further than the first of them. -/
theorem lines_append_inj : ∀ (t t' : Rose String) {depth : Nat} {rest rest' : List String},
    (∀ line ∈ t.labels, Flush line) → (∀ line ∈ t'.labels, Flush line) →
    Behind (depth + 1) rest → Behind (depth + 1) rest' →
    t.lines depth ++ rest = t'.lines depth ++ rest' → t = t' ∧ rest = rest'
  | node line below, node line' below', _, _, _, hFlush, hFlush', hRest, hRest', h => by
    obtain ⟨hLine, hBelow⟩ := List.cons.inj h
    obtain ⟨rfl, hSame⟩ := linesAll_append_inj below below'
      (fun l hl => hFlush l (List.mem_cons_of_mem line hl))
      (fun l hl => hFlush' l (List.mem_cons_of_mem line' hl)) hRest hRest' hBelow
    exact ⟨by rw [indented_inj hLine], hSame⟩

/-- So do the lines of several trees. -/
theorem linesAll_append_inj : ∀ (ts ts' : List (Rose String)) {depth : Nat}
    {rest rest' : List String}, (∀ line ∈ labelsAll ts, Flush line) →
    (∀ line ∈ labelsAll ts', Flush line) → Behind depth rest → Behind depth rest' →
    linesAll depth ts ++ rest = linesAll depth ts' ++ rest' → ts = ts' ∧ rest = rest'
  | [], [], _, _, _, _, _, _, _, h => ⟨rfl, h⟩
  | [], _ :: _, _, _, _, _, hFlush', hRest, _, h => absurd h (hRest.ne_linesAll hFlush')
  | _ :: _, [], _, _, _, hFlush, _, _, hRest', h => absurd h.symm (hRest'.ne_linesAll hFlush)
  | t :: ts, t' :: ts', _, _, _, hFlush, hFlush', hRest, hRest', h => by
    rw [linesAll, linesAll, List.append_assoc, List.append_assoc] at h
    have hTail := fun l hl => hFlush l (List.mem_append_right t.labels hl)
    have hTail' := fun l hl => hFlush' l (List.mem_append_right t'.labels hl)
    obtain ⟨rfl, hSame⟩ := lines_append_inj t t' (fun l hl => hFlush l (List.mem_append_left _ hl))
      (fun l hl => hFlush' l (List.mem_append_left _ hl)) (hRest.linesAll_append hTail)
      (hRest'.linesAll_append hTail') h
    obtain ⟨rfl, hEnd⟩ := linesAll_append_inj ts ts' hTail hTail' hRest hRest' hSame
    exact ⟨rfl, hEnd⟩

end

/-- Trees with the same lines are the same. -/
theorem eq_of_lines_eq {t t' : Rose String} (hFlush : ∀ line ∈ t.labels, Flush line)
    (hFlush' : ∀ line ∈ t'.labels, Flush line) (h : t.lines depth = t'.lines depth) : t = t' := by
  have hNone : Behind (depth + 1) [] := fun _ h => nomatch h
  exact (lines_append_inj t t' hFlush hFlush' hNone hNone (by rw [h])).1

/-! ## Reading the text -/

private theorem mem_indented_iff {c : Char} (hc : c ≠ ' ') :
    c ∈ (indented depth line).toList ↔ c ∈ line.toList := by
  simp [indented, hc]

mutual

/-- A character is in none of the lines if it is in none of the labels. -/
theorem forall_mem_lines_iff {c : Char} (hc : c ≠ ' ') : ∀ (t : Rose String) {depth : Nat},
    (∀ line ∈ t.lines depth, c ∉ line.toList) ↔ ∀ label ∈ t.labels, c ∉ label.toList
  | node label below, depth => by
    rw [lines, labels, List.forall_mem_cons, List.forall_mem_cons, mem_indented_iff hc,
      forall_mem_linesAll_iff hc below]

theorem forall_mem_linesAll_iff {c : Char} (hc : c ≠ ' ') : ∀ (ts : List (Rose String))
    {depth : Nat}, (∀ line ∈ linesAll depth ts, c ∉ line.toList) ↔
      ∀ label ∈ labelsAll ts, c ∉ label.toList
  | [], depth => by simp [linesAll, labelsAll]
  | t :: ts, depth => by
    rw [linesAll, labelsAll, List.forall_mem_append, List.forall_mem_append,
      forall_mem_lines_iff hc t, forall_mem_linesAll_iff hc ts]

end

/-- The text of a tree. -/
def text (t : Rose String) : String := Text.joined "\n" (t.lines 0)

/-- The text of a tree falls into its lines if and only if no label has a line feed in it. -/
theorem splitOn_text_eq_iff (t : Rose String) :
    Text.splitOn '\n' t.text = t.lines 0 ↔ ∀ label ∈ t.labels, '\n' ∉ label.toList := by
  have hLines : t.lines 0 ≠ [] := by
    cases t
    exact List.cons_ne_nil _ _
  rw [text, Text.splitOn_joined_eq_iff hLines]
  exact forall_mem_lines_iff (by decide) t

/-- Trees with the same text are the same. -/
theorem eq_of_text_eq {t t' : Rose String}
    (hFlush : ∀ label ∈ t.labels, Flush label ∧ '\n' ∉ label.toList)
    (hFlush' : ∀ label ∈ t'.labels, Flush label ∧ '\n' ∉ label.toList) (h : t.text = t'.text) :
    t = t' := by
  have hLines := t.splitOn_text_eq_iff.2 fun label hLabel => (hFlush label hLabel).2
  have hLines' := t'.splitOn_text_eq_iff.2 fun label hLabel => (hFlush' label hLabel).2
  refine eq_of_lines_eq (fun label hLabel => (hFlush label hLabel).1)
    (fun label hLabel => (hFlush' label hLabel).1) (?_ : t.lines 0 = t'.lines 0)
  rw [← hLines, ← hLines', h]

end Rose
end ViewMarkup
