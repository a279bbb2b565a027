import ViewMarkup.Decoder
import ViewMarkup.Proofs.Decimal.Double
import ViewMarkup.Proofs.Decimal.Literal

/-!
# Fonts that are read

A font is written in one of four forms, which are told apart in order: a number is a bare size, a
text style is a whole font, and else the size stands behind the last comma and the style behind the
last hyphen of what is left. A size has no comma and a style no hyphen, so a family with commas,
hyphens and words for styles in it comes back as it is.

Everything that is read is in range: its family is not blank, its weight is between 1 and 1000, and
its size is above zero. So the checks of the constructors are never what fails.

## Main results

* `lookup_fontStyles_iff`, `familyAndStyle?_eq_some_iff` — what is read as a style.
* `Font.read_append` — what stands in front of the last comma and behind it.
* `Font.read_forms` — which font is read, and that what is read is in range.
-/

namespace ViewMarkup

open Text Decimal

variable {cs a b : List Char} {sep : Char} {family style word slant raw number : String}
  {weight : Int}

/-! ## The last separator -/

namespace Text

private theorem eq_append_of_cutFirst? (h : cutFirst? sep cs = some (a, b)) :
    cs = a ++ sep :: b := by
  induction cs generalizing a with
  | nil => cases h
  | cons c cs ih =>
    rw [cutFirst?] at h
    split at h
    · next hSep =>
      cases h
      rw [hSep, List.nil_append]
    · obtain ⟨⟨a', b'⟩, hCut, hEq⟩ := Option.map_eq_some_iff.1 h
      cases hEq
      rw [ih hCut, List.cons_append]

private theorem cutFirst?_eq_some_iff :
    cutFirst? sep cs = some (a, b) ↔ cs = a ++ sep :: b ∧ sep ∉ a := by
  refine ⟨fun h => ⟨eq_append_of_cutFirst? h, not_mem_of_cutFirst? h⟩, ?_⟩
  rintro ⟨rfl, hNot⟩
  exact cutFirst?_append b hNot

/-- The last separator is the one that has none behind it. -/
theorem cutLast?_eq_some_iff : cutLast? sep cs = some (a, b) ↔ cs = a ++ sep :: b ∧ sep ∉ b := by
  rw [cutLast?, Option.map_eq_some_iff]
  constructor
  · rintro ⟨⟨b', a'⟩, hCut, hEq⟩
    cases hEq
    obtain ⟨hText, hNot⟩ := cutFirst?_eq_some_iff.1 hCut
    refine ⟨?_, by simpa using hNot⟩
    rw [← List.reverse_reverse cs, hText]
    simp
  · rintro ⟨rfl, hNot⟩
    refine ⟨(b.reverse, a.reverse), cutFirst?_eq_some_iff.2 ⟨?_, by simpa using hNot⟩, by simp⟩
    simp

end Text

/-! ## Styles -/

/-- The text is the word for a style in some letter case. -/
def IsStyle (style : String) (weight : Int) (slant : String) : Prop :=
  ∃ word, (word, weight, slant) ∈ fontStyles ∧ SameLetters style word

/-- The words for styles are in small letters, and each of them stands for one style. -/
theorem fontStyles_words : ∀ entry ∈ fontStyles, fontStyles.lookup entry.1 = some entry.2 ∧
    entry.1.toList.all isOwnLower = true := by
  decide

private theorem fontStyles_weight : ∀ entry ∈ fontStyles, 1 ≤ entry.2.1 ∧ entry.2.1 ≤ 1000 := by
  decide

theorem lookup_fontStyles_iff :
    fontStyles.lookup (lower style) = some (weight, slant) ↔ IsStyle style weight slant := by
  have hLower {word : String} (hWord : (word, weight, slant) ∈ fontStyles) :
      lower style = word ↔ SameLetters style word :=
    lower_eq_iff (fontStyles_words _ hWord).2
  constructor
  · intro h
    have hMem : (lower style, weight, slant) ∈ fontStyles := mem_of_lookup h
    exact ⟨_, hMem, (hLower hMem).1 rfl⟩
  · rintro ⟨word, hWord, hSame⟩
    rw [(hLower hWord).2 hSame]
    exact (fontStyles_words _ hWord).1

namespace IsStyle

theorem isAlpha (h : IsStyle style weight slant) : ∀ c ∈ style.toList, c.isAlpha = true := by
  obtain ⟨word, hWord, hSame⟩ := h
  intro c hc
  obtain ⟨d, hd, hLetter⟩ := hSame.exists_of_mem hc
  rw [← Char.isAlpha_toLower_eq_isAlpha, ← hLetter, Char.isAlpha_toLower_eq_isAlpha]
  exact isAlpha_of_isOwnLower (List.all_eq_true.1 (fontStyles_words _ hWord).2 d hd)

private theorem hyphen_not_mem (h : IsStyle style weight slant) : '-' ∉ style.toList := fun hMem =>
  absurd (h.isAlpha '-' hMem) (by decide)

private theorem isBlank_eq_false (h : IsStyle style weight slant) :
    ∀ c ∈ style.toList, isBlank c = false :=
  fun c hc => isBlank_eq_false_of_isAlphanum (by simp [Char.isAlphanum, h.isAlpha c hc])

theorem weight_inRange (h : IsStyle style weight slant) : 1 ≤ weight ∧ weight ≤ 1000 := by
  obtain ⟨word, hWord, -⟩ := h
  exact fontStyles_weight _ hWord

end IsStyle

/-- What is read as a family with a style. -/
theorem familyAndStyle?_eq_some_iff :
    familyAndStyle? raw.toList = some (family, weight, slant) ↔
      family ≠ "" ∧ ∃ style, raw = family ++ "-" ++ style ∧ IsStyle style weight slant := by
  have hText (family style : String) : raw.toList = family.toList ++ '-' :: style.toList ↔
      raw = family ++ "-" ++ style := by
    rw [← String.toList_inj]
    simp
  constructor
  · intro h
    unfold familyAndStyle? at h
    split at h
    · cases h
    · cases h
    · next front back hFront hCut =>
      obtain ⟨⟨weight', slant'⟩, hLookup, hEq⟩ := Option.map_eq_some_iff.1 h
      cases hEq
      refine ⟨fun hEmpty => hFront (String.ofList_eq_empty_iff.1 hEmpty), String.ofList back, ?_,
        lookup_fontStyles_iff.1 hLookup⟩
      rw [← hText, String.toList_ofList, String.toList_ofList]
      exact (cutLast?_eq_some_iff.1 hCut).1
  · rintro ⟨hFamily, style, hRaw, hStyle⟩
    have hCut : cutLast? '-' raw.toList = some (family.toList, style.toList) :=
      cutLast?_eq_some_iff.2 ⟨(hText family style).2 hRaw, hStyle.hyphen_not_mem⟩
    have hFront : family.toList ≠ [] := fun hEmpty => hFamily (String.toList_eq_nil_iff.1 hEmpty)
    unfold familyAndStyle?
    split
    · next hNone => cases hCut.symm.trans hNone
    · next hEmpty =>
      have hParts := Option.some.inj (hCut.symm.trans hEmpty)
      exact absurd (congrArg Prod.fst hParts) hFront
    · next hSome =>
      cases hCut.symm.trans hSome
      simp only [String.ofList_toList, lookup_fontStyles_iff.2 hStyle, Option.map_some]

/-! ## What is in range -/

/-- A text that has been trimmed has something at its start, unless it is empty. -/
theorem exists_head_of_trim_eq (hTrim : trim raw = raw) (hRaw : raw ≠ "") :
    ∃ c cs, raw.toList = c :: cs ∧ isBlank c = false := by
  cases hText : raw.toList with
  | nil => exact absurd (String.toList_eq_nil_iff.1 hText) hRaw
  | cons c cs =>
    have hList : trimList (c :: cs) = c :: cs := by rw [← hText, ← toList_trim, hTrim]
    have hHead : (trimList (c :: cs)).head? = some c := by rw [hList, List.head?_cons]
    exact ⟨c, cs, rfl, head_trimList hHead⟩

/-- What stands at the start of such a text is not blank. -/
theorem isBlankText_of_trim_append {front back : String}
    (hTrim : trim (front ++ back) = front ++ back) (hFront : front ≠ "") :
    isBlankText front = false := by
  obtain ⟨c, cs, hText, hc⟩ := exists_head_of_trim_eq hTrim (by simp [hFront])
  cases hChars : front.toList with
  | nil => exact absurd (String.toList_eq_nil_iff.1 hChars) hFront
  | cons d ds =>
    rw [String.toList_append, hChars, List.cons_append] at hText
    obtain rfl : d = c := (List.cons.inj hText).1
    simp [isBlankText, hChars, hc]

theorem isBlankText_of_trim_eq (hTrim : trim raw = raw) (hRaw : raw ≠ "") :
    isBlankText raw = false :=
  isBlankText_of_trim_append (by rwa [String.append_empty]) hRaw

/-- The family is not blank, and the weight is between 1 and 1000. -/
structure FontDescriptor.InRange (d : FontDescriptor) : Prop where
  family : isBlankText d.family = false
  weight : 1 ≤ d.weight ∧ d.weight ≤ 1000

/-- The descriptor is in range, and the size is above zero. -/
structure Font.InRange (f : Font) : Prop where
  descriptor : f.descriptor.InRange
  size : ∃ x, f.size = .float x ∧ 0.0 < x

theorem FontDescriptor.inRange_of_family (h : isBlankText family = false) :
    FontDescriptor.InRange ⟨family, 400, "regular"⟩ :=
  ⟨h, (by decide : (1 : Int) ≤ 400 ∧ (400 : Int) ≤ 1000)⟩

theorem FontDescriptor.InRange.make_eq {d : FontDescriptor} (h : d.InRange) :
    FontDescriptor.make d.family d.weight d.slant = .ok d := by
  have hWeight : ¬ (d.weight < 1 ∨ 1000 < d.weight) := by
    have := h.weight
    omega
  rw [FontDescriptor.make, if_neg (by simp [h.family]), if_neg hWeight]

theorem Font.make_eq (d : FontDescriptor) {x : Float} (h : 0.0 < x) :
    Font.make d (.float x) = .ok ⟨d, .float x⟩ := by
  have hSize : Number.isAtMostZero (.float x) = false := decide_eq_false (not_le_of_lt h)
  rw [Font.make, hSize]
  rfl

/-- The answer is a failure of reading, or a value with a property. -/
def ReadsTo {α : Type} (P : α → Prop) (answer : Except Failure α) : Prop :=
  (∃ why, answer = .error (.of (.decode why))) ∨ ∃ a, answer = .ok a ∧ P a

namespace ReadsTo

variable {α β : Type} {P : α → Prop} {Q : β → Prop}

theorem bind {x : Except Failure α} {f : α → Except Failure β} (hx : ReadsTo P x)
    (hf : ∀ a, P a → ReadsTo Q (f a)) : ReadsTo Q (x >>= f) := by
  rcases hx with ⟨why, rfl⟩ | ⟨a, rfl, ha⟩
  · exact .inl ⟨why, rfl⟩
  · exact hf a ha

theorem map {x : Except Failure α} {f : α → β} (hx : ReadsTo P x) (hf : ∀ a, P a → Q (f a)) :
    ReadsTo Q (x.map f) := by
  rcases hx with ⟨why, rfl⟩ | ⟨a, rfl, ha⟩
  · exact .inl ⟨why, rfl⟩
  · exact .inr ⟨f a, rfl, hf a ha⟩

end ReadsTo

/-! ## Sizes -/

/-- A size is a number above zero. -/
theorem readFontSize_readsTo (raw : String) :
    ReadsTo (fun x : Float => 0.0 < x) ((readFontSize raw).mapError (.of ∘ .decode)) := by
  unfold readFontSize
  split
  · exact .inl ⟨_, rfl⟩
  · next l _ =>
    split
    · exact .inl ⟨_, rfl⟩
    · next hAbove => exact .inr ⟨_, rfl, lt_of_not_le l.isNumber_toFloat hAbove⟩

private theorem readFontSize_of_lt {l : Literal} (h : Literal.read? raw = some l)
    (hAbove : 0.0 < l.toFloat) : readFontSize raw = .ok l.toFloat := by
  simp only [readFontSize, h, if_neg (not_le_of_lt hAbove)]

namespace FontDescriptor

variable {d : FontDescriptor}

private theorem withSize_readsTo (h : d.InRange) (size : String) :
    ReadsTo Font.InRange (d.withSize size) := by
  refine (readFontSize_readsTo size).bind fun x hx => ?_
  rw [Font.make_eq d hx]
  exact .inr ⟨_, rfl, h, x, rfl, hx⟩

theorem withSize_of_lt {l : Literal} (h : Literal.read? number = some l)
    (hAbove : 0.0 < l.toFloat) : d.withSize number = .ok ⟨d, .float l.toFloat⟩ := by
  rw [withSize, readFontSize_of_lt h hAbove]
  show (Font.make d (.float l.toFloat)).mapError Failure.invalid = _
  rw [Font.make_eq d hAbove]
  rfl

/-! ## Descriptors -/

/-- A text in front of a style. -/
def EndsInStyle (family : String) : Prop :=
  ∃ front style weight slant, front ≠ "" ∧ family = front ++ "-" ++ style ∧
    IsStyle style weight slant

theorem read_of_inRange (hRaw : raw ≠ "")
    (hParts : (familyAndStyle? raw.toList).getD (raw, 400, "regular") = (family, weight, slant))
    (h : InRange ⟨family, weight, slant⟩) : read raw = .ok ⟨family, weight, slant⟩ := by
  have hEmpty : raw.isEmpty = false := by simpa using hRaw
  unfold read
  rw [hEmpty, hParts]
  show (make family weight slant).mapError Failure.invalid = _
  rw [h.make_eq]
  rfl

private theorem read_of_isStyle (hTrim : trim family = family) (hFamily : family ≠ "")
    (hStyle : IsStyle style weight slant) :
    read (family ++ "-" ++ style) = .ok ⟨family, weight, slant⟩ := by
  have hParts := familyAndStyle?_eq_some_iff.2 ⟨hFamily, style, rfl, hStyle⟩
  refine read_of_inRange ?_ (by rw [hParts, Option.getD_some]) ⟨?_, hStyle.weight_inRange⟩
  · simp [hFamily]
  · exact isBlankText_of_trim_eq hTrim hFamily

theorem read_of_not_endsInStyle (hTrim : trim family = family) (hFamily : family ≠ "")
    (hNot : ¬ EndsInStyle family) : read family = .ok ⟨family, 400, "regular"⟩ := by
  have hParts : familyAndStyle? family.toList = none := by
    refine Option.eq_none_iff_forall_ne_some.2 fun ⟨front, weight, slant⟩ hSome => hNot ?_
    obtain ⟨hFront, style, hText, hStyle⟩ := familyAndStyle?_eq_some_iff.1 hSome
    exact ⟨front, style, weight, slant, hFront, hText, hStyle⟩
  exact read_of_inRange hFamily (by rw [hParts, Option.getD_none])
    (inRange_of_family (isBlankText_of_trim_eq hTrim hFamily))

/-- A family with a style has no blank at either end. -/
theorem trim_append_style (hTrim : trim family = family) (hFamily : family ≠ "")
    (hStyle : IsStyle style weight slant) :
    trim (family ++ "-" ++ style) = family ++ "-" ++ style := by
  obtain ⟨c, cs, hText, hc⟩ := exists_head_of_trim_eq hTrim hFamily
  have hBack : ∀ d ∈ '-' :: style.toList, isBlank d = false :=
    List.forall_mem_cons.2 ⟨by decide, hStyle.isBlank_eq_false⟩
  have hAll : (family ++ "-" ++ style).toList = c :: cs ++ '-' :: style.toList := by simp [hText]
  rw [trim, trimList_eq_self, String.ofList_toList]
  · intro d hd
    rw [hAll, List.cons_append, List.head?_cons] at hd
    rwa [← Option.some.inj hd]
  · intro d hd
    rw [hAll, List.getLast?_append_of_ne_nil _ (List.cons_ne_nil _ _)] at hd
    exact hBack d (List.mem_of_getLast? hd)

/-- A descriptor is read unless there is nothing to read, for the family starts as the text does. -/
theorem read_readsTo (hTrim : trim raw = raw) : ReadsTo InRange (read raw) := by
  by_cases hRaw : raw = ""
  · subst hRaw
    exact .inl ⟨_, rfl⟩
  · by_cases hEnds : EndsInStyle raw
    · obtain ⟨front, style, weight, slant, hFront, hText, hStyle⟩ := hEnds
      have hBlank : isBlankText front = false := by
        rw [hText, String.append_assoc] at hTrim
        exact isBlankText_of_trim_append hTrim hFront
      have hParts := familyAndStyle?_eq_some_iff.2 ⟨hFront, style, hText, hStyle⟩
      have hInRange : InRange ⟨front, weight, slant⟩ := ⟨hBlank, hStyle.weight_inRange⟩
      exact .inr ⟨_, read_of_inRange hRaw (by rw [hParts, Option.getD_some]) hInRange, hInRange⟩
    · exact .inr ⟨_, read_of_not_endsInStyle hTrim hRaw hEnds,
        inRange_of_family (isBlankText_of_trim_eq hTrim hRaw)⟩

end FontDescriptor

namespace Font

/-- A text with a comma is no number and no text style. -/
theorem comma_not_mem {l : Literal} (h : Literal.read? raw = some l) : ',' ∉ raw.toList := by
  intro hMem
  rcases Literal.mem_of_read? h hMem with ((hDigit | h | h) | h | h | h) | h
  · exact absurd hDigit (by decide)
  all_goals exact absurd h (by decide)

theorem textStyles_inRange : ∀ entry ∈ textStyles, ',' ∉ entry.1.toList ∧
    (1 ≤ entry.2.1 ∧ entry.2.1 ≤ 1000) ∧ 0.0 < entry.2.2 := by
  decide +kernel

theorem lookup_textStyles_of_comma (h : ',' ∈ raw.toList) :
    textStyles.lookup (lower raw) = none := by
  have hComma : ',' ∈ (lower raw).toList := by
    rw [lower, String.toList_ofList]
    exact mem_lowerList (by decide) (by decide) h
  refine List.lookup_eq_none_iff.2 fun entry hEntry => ?_
  have hOther : lower raw ≠ entry.1 := fun hEq =>
    (textStyles_inRange entry hEntry).1 (hEq ▸ hComma)
  simpa using hOther

/-- What stands behind the last comma is the size. -/
theorem read_append {l : Literal} {d : FontDescriptor} (hTrim : trim family = family)
    (hFamily : family ≠ "") (hDescriptor : FontDescriptor.read family = .ok d)
    (hNumber : Literal.read? number = some l) (hAbove : 0.0 < l.toFloat) :
    read (family ++ "," ++ number) = .ok ⟨d, .float l.toFloat⟩ := by
  have hText : (family ++ "," ++ number).toList = family.toList ++ ',' :: number.toList := by simp
  have hComma : ',' ∈ (family ++ "," ++ number).toList := by simp
  have hLiteral : (Literal.read? (family ++ "," ++ number)).isSome = false := by
    cases hRead : Literal.read? (family ++ "," ++ number) with
    | none => rfl
    | some _ => exact absurd hComma (comma_not_mem hRead)
  have hCut : cutLast? ',' (family ++ "," ++ number).toList =
      some (family.toList, number.toList) :=
    cutLast?_eq_some_iff.2 ⟨hText, comma_not_mem hNumber⟩
  have hName : family.isEmpty = false := by simpa using hFamily
  unfold read
  simp only [hLiteral, lookup_textStyles_of_comma hComma, hCut, String.ofList_toList, hTrim, hName,
    hDescriptor, Bool.false_eq_true, if_false, bind, Except.bind]
  exact FontDescriptor.withSize_of_lt (Literal.read?_trim hNumber) hAbove

/-- The weight and the size of a text style are in range. -/
theorem textStyle_readsTo {size : Float} (h : (word, weight, size) ∈ textStyles) :
    ReadsTo InRange (do
      let descriptor ← (FontDescriptor.make "System" weight "regular").mapError Failure.invalid
      (Font.make descriptor (.float size)).mapError Failure.invalid) := by
  obtain ⟨-, hWeight, hSize⟩ := textStyles_inRange _ h
  have hSystem : FontDescriptor.InRange ⟨"System", weight, "regular"⟩ :=
    ⟨(by decide : isBlankText "System" = false), hWeight⟩
  refine .inr ⟨⟨⟨"System", weight, "regular"⟩, .float size⟩, ?_, hSystem, size, rfl, hSize⟩
  rw [hSystem.make_eq]
  show (Font.make _ (.float size)).mapError Failure.invalid = _
  rw [Font.make_eq _ hSize]
  rfl

/-- Everything that is read is in range. -/
theorem read_readsTo (raw : String) : ReadsTo InRange (read raw) := by
  have hSystem : FontDescriptor.InRange {} := FontDescriptor.inRange_of_family (by decide)
  unfold read
  split
  · exact FontDescriptor.withSize_readsTo hSystem raw
  · split
    · next hLookup => exact textStyle_readsTo (mem_of_lookup hLookup)
    · split
      · exact .inl ⟨_, rfl⟩
      · dsimp only
        split
        · exact .inl ⟨_, rfl⟩
        · exact (FontDescriptor.read_readsTo (trim_trim _)).bind fun d hd => d.withSize_readsTo hd _

/-- A family in front of a style and a size comes back as it is, and so does one in front of a size
alone unless it ends in a style of its own. Whatever else is written, it is not read or it is in
range. -/
theorem read_forms :
    (∀ family style weight slant number literal, family ≠ "" → trim family = family →
      IsStyle style weight slant → Literal.read? number = some literal → 0.0 < literal.toFloat →
      read (family ++ "-" ++ style ++ "," ++ number) =
        .ok ⟨⟨family, weight, slant⟩, .float literal.toFloat⟩) ∧
    (∀ family number literal, family ≠ "" → trim family = family →
      ¬ FontDescriptor.EndsInStyle family → Literal.read? number = some literal →
      0.0 < literal.toFloat →
      read (family ++ "," ++ number) =
        .ok ⟨⟨family, 400, "regular"⟩, .float literal.toFloat⟩) ∧
    ∀ (d : Decoder) raw enumeration,
      ReadsTo (fun reading => ∃ f : Font, reading = .value (.font f) ∧ f.InRange)
        (d.read raw .font enumeration) ∧
      ReadsTo (fun reading => ∃ f : FontDescriptor, reading = .value (.descriptor f) ∧ f.InRange)
        (d.read raw .fontDescriptor enumeration) := by
  refine ⟨?styled, ?plain, fun d raw enumeration => ⟨?font, ?descriptor⟩⟩
  case styled =>
    intro family style weight slant number literal hFamily hTrim hStyle hNumber hAbove
    exact read_append (FontDescriptor.trim_append_style hTrim hFamily hStyle) (by simp [hFamily])
      (FontDescriptor.read_of_isStyle hTrim hFamily hStyle) hNumber hAbove
  case plain =>
    intro family number literal hFamily hTrim hNot hNumber hAbove
    exact read_append hTrim hFamily (FontDescriptor.read_of_not_endsInStyle hTrim hFamily hNot)
      hNumber hAbove
  case font =>
    have hRead : d.read raw .font enumeration = (read (trim raw)).map (.value ∘ .font) := rfl
    rw [hRead]
    exact (read_readsTo (trim raw)).map fun f hf => ⟨f, rfl, hf⟩
  case descriptor =>
    have hRead : d.read raw .fontDescriptor enumeration =
        (FontDescriptor.read (trim raw)).map (.value ∘ .descriptor) := rfl
    rw [hRead]
    exact (FontDescriptor.read_readsTo (trim_trim raw)).map fun f hf => ⟨f, rfl, hf⟩

/-- A family with a comma, a hyphen, a style and a digit of its own. -/
theorem read_forms_times :
    Literal.read? "13.5" = some ⟨false, [1, 3], [5], 0⟩ ∧
    read ("Times, Light-9" ++ "-" ++ "BoldItalic" ++ "," ++ "13.5") =
      .ok ⟨⟨"Times, Light-9", 700, "italic"⟩,
        .float (Literal.toFloat ⟨false, [1, 3], [5], 0⟩)⟩ :=
  ⟨by decide, read_forms.1 "Times, Light-9" "BoldItalic" 700 "italic" "13.5" _ (by decide)
    (by decide) ⟨"bolditalic", by decide, by decide⟩ (by decide) (by decide +kernel)⟩

end Font
end ViewMarkup
