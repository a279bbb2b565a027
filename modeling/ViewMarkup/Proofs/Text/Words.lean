import ViewMarkup.Literal
import ViewMarkup.Proofs.Text.Case
import ViewMarkup.Text.Split

/-!
# Words of names

A name in capitals consists of words with underscores between them. Its camel-case form has no
underscores: a word starts there with a capital letter, apart from the first one. The way back puts
an underscore in front of every capital letter that follows a small letter or a digit. So a word is
found again if it starts with a letter, and if the word before it does not consist of a capital
letter alone.

## Main results

* `Text.separateWords_append` — underscores depend on the characters on either side only.
* `Text.constantCase_camelCase_iff` — which names are found again from their camel-case forms.
-/

namespace ViewMarkup.Text

variable {c : Char} {cs first word : List Char} {words : List (List Char)}

/-! ## Characters of names -/

/-- A capital letter or a digit of ASCII. -/
def IsCapital (c : Char) : Prop := c.isUpper = true ∨ c.isDigit = true

instance (c : Char) : Decidable (IsCapital c) :=
  inferInstanceAs (Decidable (_ = true ∨ _ = true))

/-- Whether a character ends a word when a capital letter follows. -/
def endsWord (c : Char) : Bool := c.isLower || c.isDigit

namespace IsCapital

theorem isAlphanum (h : IsCapital c) : c.isAlphanum = true := by
  rcases h with h | h <;> simp [Char.isAlphanum, Char.isAlpha, h]

theorem isAscii (h : IsCapital c) : IsAscii c := isAscii_of_isAlphanum h.isAlphanum

theorem toUpper_eq (h : IsCapital c) : c.toUpper = c :=
  h.isAscii.induction (P := fun c => IsCapital c → c.toUpper = c) (by decide +kernel) h

private theorem toUpper_toLower (h : IsCapital c) : c.toLower.toUpper = c :=
  (Char.toUpper_toLower_eq_toUpper c).trans h.toUpper_eq

private theorem endsWord_toLower (h : IsCapital c) : endsWord c.toLower = true :=
  h.isAscii.induction (P := fun c => IsCapital c → endsWord c.toLower = true) (by decide +kernel) h

theorem ne_underscore (h : IsCapital c) : c ≠ '_' := by
  rintro rfl
  revert h
  decide

end IsCapital

theorem map_toUpper_map_toLower (h : ∀ c ∈ cs, IsCapital c) :
    (cs.map Char.toLower).map Char.toUpper = cs := by
  rw [List.map_map]
  exact (List.map_congr_left fun c hc => (h c hc).toUpper_toLower).trans (List.map_id cs)

private theorem endsWord_of_isUpper (h : c.isUpper = true) : endsWord c = false :=
  IsCapital.isAscii (.inl h) |>.induction
    (P := fun c => c.isUpper = true → endsWord c = false) (by decide +kernel) h

/-! ## Separating words -/

/-- The underscore between two texts, if one is put there. -/
def gap (cs ds : List Char) : List Char :=
  if cs.getLast?.any endsWord && ds.head?.any Char.isUpper then ['_'] else []

/-- Underscores depend on the characters on either side only. -/
theorem separateWords_append (cs ds : List Char) :
    separateWords (cs ++ ds) = separateWords cs ++ gap cs ds ++ separateWords ds := by
  induction cs with
  | nil => simp [separateWords, gap]
  | cons c cs ih =>
    cases cs with
    | nil =>
      cases ds with
      | nil => simp [separateWords, gap]
      | cons d ds =>
        have hEnds : endsWord c = (c.isLower || c.isDigit) := rfl
        by_cases h : (endsWord c && d.isUpper) = true
        · simp [separateWords, gap, hEnds ▸ h, h]
        · simp [separateWords, gap, hEnds ▸ h, h]
    | cons c' cs =>
      have hGap : gap (c :: c' :: cs) ds = gap (c' :: cs) ds := by simp [gap]
      rw [List.cons_append, List.cons_append, separateWords, ← List.cons_append, ih, hGap,
        separateWords]
      split <;> simp

/-- No underscore is put where capital letters do not follow on anything. -/
theorem separateWords_eq_self (h : ∀ c ∈ cs.tail, c.isUpper = false) : separateWords cs = cs := by
  induction cs with
  | nil => rfl
  | cons c cs ih =>
    cases cs with
    | nil => rfl
    | cons d cs =>
      obtain ⟨hHead, hTail⟩ := List.forall_mem_cons.1 h
      rw [separateWords, if_neg (by simp [hHead]), ih hTail]

private theorem head?_separateWords (cs : List Char) : (separateWords cs).head? = cs.head? := by
  match cs with
  | [] => rfl
  | [_] => rfl
  | c :: d :: cs =>
    rw [separateWords]
    split <;> rfl

/-! ## Names in capitals -/

/-- A word of capital letters and digits. -/
def IsWord (word : List Char) : Prop := word ≠ [] ∧ ∀ c ∈ word, IsCapital c

instance (word : List Char) : Decidable (IsWord word) :=
  letI := List.decidableBAll IsCapital word
  inferInstanceAs (Decidable (_ ∧ ∀ c ∈ word, IsCapital c))

/-- Words in capital letters with underscores between them. There is a letter among the characters,
for a name is no number. -/
structure IsConstantName (name : String) : Prop where
  words : ∀ word ∈ splitList '_' name.toList, IsWord word
  letter : ∃ c ∈ name.toList, c.isUpper = true

instance (name : String) : Decidable (IsConstantName name) :=
  letI := List.decidableBEx (fun c : Char => c.isUpper = true) name.toList
  decidable_of_iff
    ((∀ word ∈ splitList '_' name.toList, IsWord word) ∧ ∃ c ∈ name.toList, c.isUpper = true)
    ⟨fun h => ⟨h.1, h.2⟩, fun h => ⟨h.words, h.letter⟩⟩

private theorem joinList_cons (sep : Char) (first : List Char) (words : List (List Char)) :
    joinList sep (first :: words) = first ++ words.flatMap (sep :: ·) := by
  induction words generalizing first with
  | nil => simp [joinList]
  | cons word words ih =>
    rw [joinList, ih, List.flatMap_cons, List.cons_append]
    exact List.cons_ne_nil word words

namespace IsConstantName

variable {name : String}

/-- A name is put together from its words. -/
theorem exists_words (h : IsConstantName name) : ∃ first words,
    splitList '_' name.toList = first :: words ∧ IsWord first ∧ (∀ word ∈ words, IsWord word) ∧
      name.toList = first ++ words.flatMap ('_' :: ·) := by
  cases hSplit : splitList '_' name.toList with
  | nil => exact absurd hSplit (splitList_ne_nil _ _)
  | cons first words =>
    obtain ⟨hFirst, hWords⟩ := List.forall_mem_cons.1 (hSplit ▸ h.words)
    refine ⟨first, words, rfl, hFirst, hWords, ?_⟩
    rw [← joinList_cons, ← hSplit, joinList_splitList]

/-- Which characters stand in a name. -/
theorem mem (h : IsConstantName name) (hc : c ∈ name.toList) : IsCapital c ∨ c = '_' := by
  obtain ⟨first, words, -, hFirst, hWords, hName⟩ := h.exists_words
  rcases List.mem_append.1 (hName ▸ hc) with hc | hc
  · exact .inl (hFirst.2 c hc)
  · obtain ⟨word, hWord, hc⟩ := List.mem_flatMap.1 hc
    exact (List.mem_cons.1 hc).symm.imp_left ((hWords word hWord).2 c)

theorem isAscii (h : IsConstantName name) : ∀ c ∈ name.toList, IsAscii c := by
  intro c hc
  rcases h.mem hc with hc | rfl
  · exact hc.isAscii
  · decide

theorem isAscii_without (h : IsConstantName name) :
    ∀ c ∈ (withoutUnderscores name).toList, IsAscii c := fun c hc =>
  h.isAscii c (mem_withoutUnderscores.1 hc).1

theorem upper_without (h : IsConstantName name) :
    upper (withoutUnderscores name) = withoutUnderscores name := by
  have hUpper : ∀ c ∈ (withoutUnderscores name).toList, c.toUpper = c := by
    intro c hc
    obtain ⟨hc, hOther⟩ := mem_withoutUnderscores.1 hc
    exact ((h.mem hc).resolve_right hOther).toUpper_eq
  rw [upper_of_isAscii h.isAscii_without, List.map_congr_left hUpper, List.map_id',
    String.ofList_toList]

end IsConstantName

/-! ## Camel case -/

/-- A word in small letters with a capital letter at the start. -/
def capitalize : List Char → List Char
  | [] => []
  | c :: cs => c.toUpper :: cs.map Char.toLower

/-- The name without underscores, where all words but the first one start with a capital letter. -/
def camelCase (name : String) : String :=
  match splitList '_' name.toList with
  | [] => ""
  | first :: words => String.ofList (first.map Char.toLower ++ words.flatMap capitalize)

theorem camelCase_of_splitList {name : String} (h : splitList '_' name.toList = first :: words) :
    camelCase name = String.ofList (first.map Char.toLower ++ words.flatMap capitalize) := by
  rw [camelCase, h]

/-- Whether an underscore is put in front of every word, where the first one follows on `cs`. -/
def Apart : List Char → List (List Char) → Prop
  | _, [] => True
  | cs, word :: words => gap cs word = ['_'] ∧ Apart (capitalize word) words

theorem isUpper_of_mem_map_toLower (h : c ∈ word.map Char.toLower) : c.isUpper = false := by
  obtain ⟨a, -, rfl⟩ := List.mem_map.1 h
  exact Char.isUpper_toLower_eq_false a

private theorem isUpper_of_mem_capitalize (h : c ∈ (capitalize word).tail) : c.isUpper = false := by
  cases word with
  | nil => cases h
  | cons => exact isUpper_of_mem_map_toLower h

namespace IsWord

private theorem map_toUpper_capitalize (h : IsWord word) :
    (capitalize word).map Char.toUpper = word := by
  cases word with
  | nil => rfl
  | cons c cs =>
    obtain ⟨hHead, hTail⟩ := List.forall_mem_cons.1 h.2
    rw [capitalize, List.map_cons, map_toUpper_map_toLower hTail, hHead.toUpper_eq,
      hHead.toUpper_eq]

/-- A word in small letters may have a word in camel case after it. -/
theorem endsWord_getLast (h : IsWord word) :
    (word.map Char.toLower).getLast?.any endsWord = true := by
  rw [List.getLast?_map, List.getLast?_eq_some_getLast h.1]
  exact (h.2 _ (List.getLast_mem h.1)).endsWord_toLower

theorem isAscii_map_toLower (h : IsWord word) : ∀ c ∈ word.map Char.toLower, IsAscii c := by
  intro d hd
  obtain ⟨a, ha, rfl⟩ := List.mem_map.1 hd
  exact isAscii_toLower_iff.2 (h.2 a ha).isAscii

theorem exists_head (h : IsWord word) : ∃ c cs, word = c :: cs ∧ IsCapital c ∧
    capitalize word = c :: cs.map Char.toLower := by
  obtain ⟨c, cs, rfl⟩ := List.exists_cons_of_ne_nil h.1
  have hc : IsCapital c := h.2 c List.mem_cons_self
  exact ⟨c, cs, rfl, hc, by rw [capitalize, hc.toUpper_eq]⟩

private theorem isAscii_capitalize (h : IsWord word) : ∀ c ∈ capitalize word, IsAscii c := by
  obtain ⟨c, cs, rfl, hc, hCapital⟩ := h.exists_head
  rw [hCapital]
  refine List.forall_mem_cons.2 ⟨hc.isAscii, fun d hd => ?_⟩
  exact h.isAscii_map_toLower d (List.mem_cons_of_mem _ hd)

end IsWord

/-- The words of a name are found again in camel case if and only if an underscore is put in front
of each of them. -/
theorem separateWords_flatMap_iff (hFirst : ∀ c ∈ first.tail, c.isUpper = false)
    (hWords : ∀ word ∈ words, IsWord word) :
    (separateWords (first ++ words.flatMap capitalize)).map Char.toUpper =
      first.map Char.toUpper ++ words.flatMap ('_' :: ·) ↔ Apart first words := by
  induction words generalizing first with
  | nil => simp [Apart, separateWords_eq_self hFirst]
  | cons word words ih =>
    obtain ⟨hWord, hRest⟩ := List.forall_mem_cons.1 hWords
    obtain ⟨c, cs, hHead, hc, hCapital⟩ := hWord.exists_head
    have hGap : gap first (capitalize word ++ words.flatMap capitalize) = gap first word := by
      simp [gap, hHead, hc.toUpper_eq, capitalize]
    rw [List.flatMap_cons, separateWords_append, separateWords_eq_self hFirst, hGap, Apart,
      ← ih (fun _ => isUpper_of_mem_capitalize) hRest, hWord.map_toUpper_capitalize]
    by_cases hPut : gap first word = ['_']
    · simp [hPut]
    · have hNone : gap first word = [] := by
        unfold gap at hPut ⊢
        split at hPut
        · exact absurd rfl hPut
        · next h => rw [if_neg h]
      -- Without an underscore the word itself stands there, which starts with another character.
      refine iff_of_false (fun h => ?_) fun h => hPut h.1
      rw [hNone, List.append_nil, List.map_append, List.append_cancel_left_eq] at h
      have hStart := congrArg List.head? h
      rw [List.head?_map, head?_separateWords, hCapital] at hStart
      exact hc.ne_underscore (hc.toUpper_eq.symm.trans (Option.some.inj hStart))

/-- Underscores are put in front of all words if each of them starts with a letter, and none but the
last one is a single letter. -/
theorem apart_iff (hFirst : first.getLast?.any endsWord = true)
    (hWords : ∀ word ∈ words, IsWord word) :
    Apart first words ↔ (∀ word ∈ words, word.head?.any Char.isUpper = true) ∧
      ∀ word ∈ words.dropLast, 2 ≤ word.length := by
  induction words generalizing first with
  | nil => simp [Apart]
  | cons word words ih =>
    obtain ⟨hWord, hRest⟩ := List.forall_mem_cons.1 hWords
    obtain ⟨c, cs, rfl, hc, hCapital⟩ := hWord.exists_head
    have hGap : gap first (c :: cs) = ['_'] ↔ c.isUpper = true := by simp [gap, hFirst]
    rw [Apart, hGap, List.forall_mem_cons]
    cases words with
    | nil => simp [Apart]
    | cons next words =>
      rw [List.dropLast_cons_cons, List.forall_mem_cons (l := (next :: words).dropLast)]
      cases cs with
      | nil =>
        -- A single letter does not end a word where another one starts.
        refine iff_of_false (fun ⟨hLetter, hApart⟩ => ?_) fun h => absurd h.2.1 (by simp)
        have hNone : gap (capitalize [c]) next = [] := by
          simp [gap, hCapital, endsWord_of_isUpper hLetter]
        exact absurd (hNone.symm.trans hApart.1) (List.cons_ne_nil _ _).symm
      | cons d ds =>
        have hLast : (capitalize (c :: d :: ds)).getLast?.any endsWord = true := by
          have hBack : IsWord (d :: ds) :=
            ⟨List.cons_ne_nil d ds, (List.forall_mem_cons.1 hWord.2).2⟩
          rw [hCapital, List.getLast?_cons_of_ne_nil (by simp)]
          exact hBack.endsWord_getLast
        rw [ih hLast hRest]
        simp [and_assoc]

/-! ## The way back -/

/-- Separating words adds nothing but underscores. -/
theorem filter_separateWords (cs : List Char) :
    (separateWords cs).filter (· != '_') = cs.filter (· != '_') := by
  match cs with
  | [] => rfl
  | [_] => rfl
  | c :: d :: cs =>
    have ih := filter_separateWords (d :: cs)
    rw [separateWords]
    split
    · simp only [List.filter_cons, ih]
      rfl
    · simp only [List.filter_cons, ih]


private theorem mem_separateWords (h : c ∈ separateWords cs) : c ∈ cs ∨ c = '_' := by
  by_cases hc : c = '_'
  · exact .inr hc
  · have hKept : c ∈ (separateWords cs).filter (· != '_') :=
      List.mem_filter.2 ⟨h, by simpa using hc⟩
    rw [filter_separateWords] at hKept
    exact .inl (List.mem_filter.1 hKept).1

/-- Each word after the first one starts with a letter, and none between the first and the last one
is a single letter. -/
structure ReadsInCamelCase (name : String) : Prop where
  head : ∀ word ∈ (splitList '_' name.toList).tail, word.head?.any Char.isUpper = true
  inner : ∀ word ∈ (splitList '_' name.toList).tail.dropLast, 2 ≤ word.length

/-- The names that are found again from their camel-case forms. -/
theorem constantCase_camelCase_iff {name : String} (h : IsConstantName name) :
    constantCase (camelCase name) = name ↔ ReadsInCamelCase name := by
  obtain ⟨first, words, hSplit, hFirst, hWords, hName⟩ := h.exists_words
  have hAscii : ∀ c ∈ separateWords (first.map Char.toLower ++ words.flatMap capitalize),
      IsAscii c := by
    intro c hc
    rcases mem_separateWords hc with hc | rfl
    · rcases List.mem_append.1 hc with hc | hc
      · exact hFirst.isAscii_map_toLower c hc
      · obtain ⟨word, hWord, hc⟩ := List.mem_flatMap.1 hc
        exact (hWords word hWord).isAscii_capitalize c hc
    · decide
  have hSmall : ∀ c ∈ (first.map Char.toLower).tail, c.isUpper = false := fun c hc =>
    isUpper_of_mem_map_toLower (List.mem_of_mem_tail hc)
  have hRead := separateWords_flatMap_iff hSmall hWords
  rw [map_toUpper_map_toLower hFirst.2, ← hName, apart_iff hFirst.endsWord_getLast hWords] at hRead
  rw [constantCase, camelCase_of_splitList hSplit, upper_of_isAscii (by simpa using hAscii),
    ← String.toList_inj]
  simp only [String.toList_ofList, hRead]
  refine ⟨fun h => ⟨?_, ?_⟩, fun h => ⟨?_, ?_⟩⟩
  · simpa only [hSplit, List.tail_cons] using h.1
  · simpa only [hSplit, List.tail_cons] using h.2
  · simpa only [hSplit, List.tail_cons] using h.head
  · simpa only [hSplit, List.tail_cons] using h.inner

/-! ## Letters -/

private theorem filter_of_not_mem (h : '_' ∉ cs) : cs.filter (· != '_') = cs :=
  List.filter_eq_self.2 fun c hc => by simpa using fun hEq : c = '_' => h (hEq ▸ hc)

theorem underscore_not_mem_map_toLower (h : ∀ c ∈ cs, IsCapital c) :
    '_' ∉ cs.map Char.toLower := by
  intro hMem
  obtain ⟨c, hc, hEq⟩ := List.mem_map.1 hMem
  exact (h c hc).ne_underscore (toLower_eq_underscore_iff.1 hEq)

namespace IsWord

private theorem underscore_not_mem (h : IsWord word) : '_' ∉ word := fun hMem =>
  (h.2 '_' hMem).ne_underscore rfl

private theorem underscore_not_mem_capitalize (h : IsWord word) : '_' ∉ capitalize word := by
  obtain ⟨c, cs, rfl, hc, hCapital⟩ := h.exists_head
  rw [hCapital]
  exact List.not_mem_cons_of_ne_of_not_mem hc.ne_underscore.symm
    (underscore_not_mem_map_toLower (List.forall_mem_cons.1 h.2).2)

/-- A word has the same letters in camel case. -/
theorem map_toLower_capitalize (h : IsWord word) :
    (capitalize word).map Char.toLower = word.map Char.toLower := by
  obtain ⟨c, cs, rfl, -, hCapital⟩ := h.exists_head
  rw [hCapital, List.map_cons, List.map_cons, map_toLower_map_toLower]

end IsWord

namespace IsConstantName

variable {name : String}

theorem underscore_not_mem_camelCase (h : IsConstantName name) : '_' ∉ (camelCase name).toList := by
  obtain ⟨first, words, hSplit, hFirst, hWords, -⟩ := h.exists_words
  rw [camelCase_of_splitList hSplit, String.toList_ofList, List.mem_append, List.mem_flatMap]
  rintro (hMem | ⟨word, hWord, hMem⟩)
  · exact underscore_not_mem_map_toLower hFirst.2 hMem
  · exact (hWords word hWord).underscore_not_mem_capitalize hMem

/-- A name has the same letters in camel case. -/
theorem sameLetters_camelCase (h : IsConstantName name) :
    SameLetters (withoutUnderscores (camelCase name)) (withoutUnderscores name) := by
  obtain ⟨first, words, hSplit, hFirst, hWords, hName⟩ := h.exists_words
  have hWord : ∀ word ∈ words, (capitalize word).map Char.toLower =
      (('_' :: word).filter (· != '_')).map Char.toLower := by
    intro word hMem
    have hWord := hWords word hMem
    rw [hWord.map_toLower_capitalize, List.filter_cons_of_neg (by simp),
      filter_of_not_mem hWord.underscore_not_mem]
  rw [SameLetters, withoutUnderscores, withoutUnderscores, String.toList_ofList,
    String.toList_ofList, filter_of_not_mem h.underscore_not_mem_camelCase,
    camelCase_of_splitList hSplit, String.toList_ofList, hName, List.filter_append,
    filter_of_not_mem hFirst.underscore_not_mem, List.map_append, List.map_append,
    map_toLower_map_toLower, List.filter_flatMap, List.map_flatMap, List.map_flatMap,
    List.flatMap_def, List.map_congr_left hWord, ← List.flatMap_def]

theorem isAscii_camelCase (h : IsConstantName name) : ∀ c ∈ (camelCase name).toList, IsAscii c := by
  intro c hc
  by_cases hUnderscore : c = '_'
  · rw [hUnderscore]
    decide
  · exact h.sameLetters_camelCase.isAscii h.isAscii_without c
      (mem_withoutUnderscores.2 ⟨hc, hUnderscore⟩)

/-- There is nothing to find again where there is one word only. -/
theorem readsInCamelCase_of_not_mem (h : IsConstantName name) (hNot : '_' ∉ name.toList) :
    ReadsInCamelCase name := by
  obtain ⟨first, words, hSplit, -, -, hName⟩ := h.exists_words
  cases words with
  | nil => exact ⟨by simp [hSplit], by simp [hSplit]⟩
  | cons word words => exact absurd (by simp [hName]) hNot

end IsConstantName

end ViewMarkup.Text
