import ViewMarkup.Proofs.Decimal.Overflow
import ViewMarkup.Proofs.Font
import ViewMarkup.Proofs.Outcome

/-!
# Numbers that are read are finite up to a bound

A number is read from a literal by itself, and a font takes its size from one. Neither way looks at
how large the number is: the words for infinity and for what is no number are no literals, but
nothing stops a literal from having a large exponent. So what is read is always a number, and it is
finite just when the literal denotes a number below the bound of rounding.

## Main results

* `Font.size_of_read` — which literal the size of a font comes from.
* `read_isFinite_iff` — what is read is a number, and whether it is finite.
* `read_tenPow` — a literal that is read as an infinity in both ways.
-/

namespace ViewMarkup

open Text Decimal

variable {raw size : String} {d : FontDescriptor} {f : Font}

/-! ## The sizes of fonts -/

/-- The size that a descriptor is given is the one of a literal. -/
theorem FontDescriptor.size_of_withSize (h : d.withSize size = .ok f) :
    ∃ l, Literal.read? size = some l ∧ f.size = .float l.toFloat := by
  obtain ⟨x, hSize, hMake⟩ := exists_of_bind_eq_ok h
  have hMake := eq_ok_of_mapError_eq_ok hMake
  have hSize := eq_ok_of_mapError_eq_ok hSize
  unfold Font.make at hMake
  unfold readFontSize at hSize
  split at hMake
  · cases hMake
  · cases hMake
    split at hSize
    · cases hSize
    · next l hRead =>
      split at hSize
      · cases hSize
      · cases hSize
        exact ⟨l, hRead, rfl⟩

namespace Font

/-- The literal for the size of a font: the whole text, or what stands behind its last comma. The
name of a text style has none. -/
def sizeLiteral? (raw : String) : Option Literal :=
  (Literal.read? raw).or
    ((cutLast? ',' raw.toList).bind fun (_, size) => Literal.read? (trim (String.ofList size)))

private theorem cutLast?_of_not_mem {sep : Char} {cs : List Char} (h : sep ∉ cs) :
    cutLast? sep cs = none := by
  cases hCut : cutLast? sep cs with
  | none => rfl
  | some parts =>
    have hText : cs = parts.1 ++ sep :: parts.2 := (cutLast?_eq_some_iff.1 hCut).1
    exact absurd (by simp [hText]) h

/-- The sizes of the text styles are finite. -/
theorem textStyles_isFinite : ∀ entry ∈ textStyles,
    entry.2.2.isNaN = false ∧ entry.2.2.isFinite = true := by
  decide

/-- A size comes from its literal, or is the one of a text style. -/
theorem size_of_read (h : read raw = .ok f) :
    (∃ l, sizeLiteral? raw = some l ∧ f.size = .float l.toFloat) ∨
      sizeLiteral? raw = none ∧ ∃ entry ∈ textStyles, f.size = .float entry.2.2 := by
  unfold read at h
  split at h
  · obtain ⟨l, hRead, hSize⟩ := FontDescriptor.size_of_withSize h
    refine .inl ⟨l, ?_, hSize⟩
    rw [sizeLiteral?, hRead, Option.some_or]
  · next hLiteral =>
    have hWhole : Literal.read? raw = none := by simpa using hLiteral
    split at h
    · next weight x hLookup =>
      have hComma : ',' ∉ raw.toList := fun hMem =>
        nomatch hLookup.symm.trans (lookup_textStyles_of_comma hMem)
      obtain ⟨d, -, hMake⟩ := exists_of_bind_eq_ok h
      have hMake := eq_ok_of_mapError_eq_ok hMake
      unfold make at hMake
      split at hMake
      · cases hMake
      · cases hMake
        refine .inr ⟨?_, _, mem_of_lookup hLookup, rfl⟩
        rw [sizeLiteral?, hWhole, cutLast?_of_not_mem hComma, Option.bind_none, Option.none_or]
    · split at h
      · cases h
      · next name size hCut =>
        dsimp only at h
        split at h
        · cases h
        · obtain ⟨d, -, hSize⟩ := exists_of_bind_eq_ok h
          obtain ⟨l, hRead, hSize⟩ := FontDescriptor.size_of_withSize hSize
          refine .inl ⟨l, ?_, hSize⟩
          rw [sizeLiteral?, hWhole, hCut, Option.none_or, Option.bind_some]
          exact hRead

end Font

/-! ## What is read -/

theorem Decoder.readFloat_of_read? (d : Decoder) {l : Literal}
    (h : Literal.read? (trim raw) = some l) : d.readFloat raw = .ok l.toFloat := by
  simp only [readFloat, h]

/-- A literal is read as a number and not as what is none, by itself and as the size of a font. It
is finite just when the literal denotes a number below the bound of rounding. A font whose size is
not written as a literal has a finite one. -/
theorem read_isFinite_iff (d : Decoder) (raw : String) :
    (∀ l, Literal.read? (trim raw) = some l →
      ∃ x, d.readFloat raw = .ok x ∧ x.isNaN = false ∧
        (x.isFinite = true ↔ |l.value| < overflowBound)) ∧
    ∀ f, Font.read raw = .ok f →
      ∃ x, f.size = .float x ∧ x.isNaN = false ∧
        (x.isFinite = true ↔ ∀ l, Font.sizeLiteral? raw = some l → |l.value| < overflowBound) := by
  refine ⟨fun l hRead => ?number, fun f hRead => ?font⟩
  case number =>
    exact ⟨l.toFloat, d.readFloat_of_read? hRead, l.isNaN_toFloat, l.isFinite_toFloat_iff⟩
  case font =>
    rcases Font.size_of_read hRead with ⟨l, hLiteral, hSize⟩ | ⟨hLiteral, entry, hEntry, hSize⟩
    · refine ⟨l.toFloat, hSize, l.isNaN_toFloat, ?_⟩
      rw [l.isFinite_toFloat_iff, hLiteral]
      simp only [Option.some.injEq, forall_eq']
    · obtain ⟨hNumber, hFinite⟩ := Font.textStyles_isFinite entry hEntry
      refine ⟨entry.2.2, hSize, hNumber, iff_of_true hFinite fun l hSome => ?_⟩
      rw [hLiteral] at hSome
      cases hSome

/-- Of the literals with 17 digits, the greatest that is finite ends in 8 and the next one in 9. -/
def nearBound (last : ℕ) : Literal :=
  ⟨false, [1], [7, 9, 7, 6, 9, 3, 1, 3, 4, 8, 6, 2, 3, 1, 5, last], 308⟩

private theorem abs_value_nearBound (last : ℕ) :
    |(nearBound last).value| = ((17976931348623150 + last) * (10 ^ 146) ^ 2 : ℕ) := by
  have hDigits : ofDigits ((nearBound last).whole ++ (nearBound last).fraction) =
      17976931348623150 + last := by simp [nearBound, ofDigits]
  have hScale : (nearBound last).exponent - (nearBound last).fraction.length =
      (146 * 2 : ℕ) := by norm_num [nearBound]
  rw [Literal.abs_value, hDigits, hScale, tenPow_mul, ← Nat.cast_mul]

/-- The number that is greatest among the finite ones is read by itself, and the next one as a
size. -/
theorem read_isFinite_iff_nearBound :
    (Literal.read? (trim " 1.7976931348623158e308 ") = some (nearBound 8) ∧
      ∃ x, ({} : Decoder).readFloat " 1.7976931348623158e308 " = .ok x ∧ x.isFinite = true) ∧
    ∃ f, Font.read "Inter-Bold,1.7976931348623159e308" = .ok f ∧
      ∃ x, f.size = .float x ∧ x.isFinite = false := by
  have hRead : Literal.read? (trim " 1.7976931348623158e308 ") = some (nearBound 8) := by decide
  have hBelow : |(nearBound 8).value| < overflowBound := by
    rw [abs_value_nearBound, overflowBound_eq, Nat.cast_lt]
    decide
  have hFont : Font.read ("Inter-Bold" ++ "," ++ "1.7976931348623159e308") =
      .ok ⟨⟨"Inter", 700, "regular"⟩, .float (nearBound 9).toFloat⟩ :=
    Font.read_append (by decide) (by decide) rfl (by decide) (by decide +kernel)
  have hSize : Font.sizeLiteral? "Inter-Bold,1.7976931348623159e308" = some (nearBound 9) := by
    decide
  have hAbove : ¬ |(nearBound 9).value| < overflowBound := by
    rw [abs_value_nearBound, overflowBound_eq, Nat.cast_lt]
    decide
  obtain ⟨x, hFloat, -, hFinite⟩ := (read_isFinite_iff {} _).1 _ hRead
  obtain ⟨y, hFontSize, -, hInfinite⟩ := (read_isFinite_iff {} _).2 _ hFont
  refine ⟨⟨hRead, x, hFloat, hFinite.2 hBelow⟩, _, hFont, y, hFontSize, ?_⟩
  exact Bool.eq_false_iff.2 fun hAll => hAbove (hInfinite.1 hAll _ hSize)

/-- A literal that is read as an infinity, by itself and as a size. -/
theorem read_tenPow :
    Literal.read? (trim "1e999") = some ⟨false, [1], [], 999⟩ ∧
    ({} : Decoder).readFloat "1e999" = .ok (1.0 / 0.0) ∧
    Font.read "1e999" = .ok ⟨{}, .float (1.0 / 0.0)⟩ ∧
    (1.0 / 0.0 : Float).isFinite = false := by
  have hRead : Literal.read? (trim "1e999") = some ⟨false, [1], [], 999⟩ := by decide
  have hFloat : Literal.toFloat ⟨false, [1], [], 999⟩ = 1.0 / 0.0 := by decide
  refine ⟨hRead, ?_, ?_, by decide⟩
  · rw [Decoder.readFloat_of_read? _ hRead, hFloat]
  · rw [← hFloat]
    exact FontDescriptor.withSize_of_lt hRead (by decide)

end ViewMarkup
