import ViewMarkup.Proofs.Fetch
import ViewMarkup.View.Outline

/-!
# Line feeds in displayed values

In an outline, texts are quoted, and a quoted text has no line feed in it. Nor do numbers, colors
and pictures have one. The family of a font stands there as it is, however: so a font is what may
break a line, and nothing else that a text can be read as is.

## Main results

* `Text.lineFeed_not_mem_quoted`, `Decimal.lineFeed_not_mem_writeWith` — texts and numbers are on
  one line.
* `Scene.lineFeed_mem_outlineValue_iff` — which values break a line.
* `Decoder.fetchProperty_isLiteral` — what a text for a property becomes.
-/

namespace ViewMarkup

open Text Decimal

/-! ## Texts -/

namespace Text

private theorem hexDigit_ne : ∀ n, n < 16 → hexDigit n ≠ '\n' := by decide

private theorem lineFeed_not_mem_hexDigits (width n : Nat) : '\n' ∉ hexDigits width n := by
  induction width generalizing n with
  | zero => exact List.not_mem_nil
  | succ width ih =>
    have hDigit : '\n' ≠ hexDigit (n % 16) := (hexDigit_ne _ (Nat.mod_lt n (by decide))).symm
    simp [hexDigits, ih, hDigit]

private theorem lineFeed_not_mem_numericEscape (c : Char) : '\n' ∉ numericEscape c := by
  simp only [numericEscape]
  split
  · simp [lineFeed_not_mem_hexDigits]
  · split <;> simp [lineFeed_not_mem_hexDigits]

private theorem lineFeed_not_mem_quoteChar {q : Char} (hq : '\n' ≠ q) (c : Char) :
    '\n' ∉ quoteChar q c := by
  unfold quoteChar
  split
  · next hEscaped =>
    have hc : '\n' ≠ c := by
      rintro rfl
      simp [hq] at hEscaped
    simp [hc]
  · split
    · decide
    · next hc =>
      split
      · decide
      · split
        · decide
        · split
          · simpa [eq_comm] using hc
          · exact lineFeed_not_mem_numericEscape c

/-- A text in quotes is on one line. -/
theorem lineFeed_not_mem_quoted (s : String) : '\n' ∉ (quoted s).toList := by
  have hQuote : '\n' ≠ quoteFor s.toList := by
    unfold quoteFor
    split <;> decide
  simp [quoted, hQuote, lineFeed_not_mem_quoteChar hQuote]

/-- The characters of texts that are joined, but for those that they are joined with. -/
theorem mem_joined_iff {c : Char} {sep : String} {parts : List String} (hc : c ∉ sep.toList) :
    c ∈ (joined sep parts).toList ↔ ∃ part ∈ parts, c ∈ part.toList := by
  induction parts with
  | nil => simp [joined]
  | cons first rest ih =>
    cases rest with
    | nil => simp [joined]
    | cons second rest =>
      have hCut : (joined sep (first :: second :: rest)).toList =
          first.toList ++ (sep.toList ++ (joined sep (second :: rest)).toList) := by
        simp [joined]
      rw [hCut, List.mem_append, List.mem_append, ih]
      simp [hc]

end Text

/-! ## Numbers -/

theorem lineFeed_not_mem_repr (n : Nat) : '\n' ∉ (Nat.repr n).toList := by
  intro h
  rw [Nat.toList_repr] at h
  exact absurd (Nat.isDigit_of_mem_toDigits (by decide) (by decide) h) (by decide)

theorem lineFeed_not_mem_toString (n : Int) : '\n' ∉ (toString n).toList := by
  cases n with
  | ofNat n => exact lineFeed_not_mem_repr n
  | negSucc n =>
    have hSigned : (toString (Int.negSucc n)).toList = '-' :: (Nat.repr (n + 1)).toList := by
      simp [toString, Int.repr]
    rw [hSigned]
    exact List.not_mem_cons_of_ne_of_not_mem (by decide) (lineFeed_not_mem_repr (n + 1))

namespace Decimal

theorem lineFeed_not_mem_ofNat (d : Nat) (k : Int) : '\n' ∉ (Digits.ofNat d k).digits := by
  intro h
  have hKept := (List.dropWhile_sublist _).mem (List.mem_reverse.1 h)
  exact lineFeed_not_mem_repr d (List.mem_reverse.1 hKept)

private theorem lineFeed_not_mem_shortest (m : Nat) (e : Int) : '\n' ∉ (shortest m e).digits := by
  simp only [shortest]
  cases hFound : (List.range 18).findSome? _ with
  | none => simp
  | some d =>
    obtain ⟨n, -, hGrid⟩ := List.exists_of_findSome?_eq_some hFound
    obtain ⟨k, -, rfl⟩ := Option.map_eq_some_iff.1 hGrid
    exact lineFeed_not_mem_ofNat _ _

private theorem lineFeed_not_mem_rounded (count m : Nat) (e : Int) :
    '\n' ∉ (rounded count m e).digits :=
  lineFeed_not_mem_ofNat _ _

variable {d : Digits}

private theorem lineFeed_not_mem_positional (l : Layout) (h : '\n' ∉ d.digits) :
    '\n' ∉ positional l d := by
  unfold positional
  split
  · simp [h]
  · next e _ =>
    have hWhole : '\n' ∉ d.digits.take (e + 1) := fun hMem => h (List.mem_of_mem_take hMem)
    have hFraction : '\n' ∉ d.digits.drop (e + 1) := fun hMem => h (List.mem_of_mem_drop hMem)
    dsimp only
    split
    · split <;> simp [hWhole]
    · simp [hWhole, hFraction]

private theorem lineFeed_not_mem_scientific (h : '\n' ∉ d.digits) : '\n' ∉ scientific d := by
  have hExponent := lineFeed_not_mem_repr d.exponent.natAbs
  have hSign : '\n' ≠ if d.exponent < 0 then '-' else '+' := by split <;> decide
  have hPadded : '\n' ∉ if (Nat.repr d.exponent.natAbs).toList.length < 2
      then '0' :: (Nat.repr d.exponent.natAbs).toList
      else (Nat.repr d.exponent.natAbs).toList := by
    split
    · exact List.not_mem_cons_of_ne_of_not_mem (by decide) hExponent
    · exact hExponent
  simp only [scientific, List.mem_append, List.mem_cons, not_or]
  refine ⟨?_, by decide, hSign, hPadded⟩
  split
  · decide
  · next hDigits => rwa [hDigits] at h
  · next hDigits =>
    rw [hDigits] at h
    simpa using h

private theorem lineFeed_not_mem_layout (l : Layout) (h : '\n' ∉ d.digits) : '\n' ∉ l.write d := by
  unfold Layout.write
  split
  · exact lineFeed_not_mem_positional l h
  · exact lineFeed_not_mem_scientific h

/-- A number that is written in digits is on one line. -/
theorem lineFeed_not_mem_writeWith (l : Layout) {digits : Nat → Int → Digits}
    (h : ∀ m e, '\n' ∉ (digits m e).digits) (x : Float) :
    '\n' ∉ (writeWith l digits x).toList := by
  unfold writeWith
  split
  · decide
  · split <;> decide
  · next negative m e _ =>
    have hWritten : '\n' ∉ l.write (if m = 0 then ⟨['0'], 0⟩ else digits m e) := by
      refine lineFeed_not_mem_layout l ?_
      split
      · decide
      · exact h m e
    cases negative <;> simpa using hWritten

private theorem lineFeed_not_mem_write (x : Float) : '\n' ∉ (write x).toList :=
  lineFeed_not_mem_writeWith fullLayout lineFeed_not_mem_shortest x

private theorem lineFeed_not_mem_writeCompact (x : Float) : '\n' ∉ (writeCompact x).toList :=
  lineFeed_not_mem_writeWith compactLayout (lineFeed_not_mem_rounded 6) x

end Decimal

/-! ## Values -/

namespace Color

private theorem hexDigit_ne : ∀ n, n < 16 → hexDigit n ≠ '\n' := by decide

private theorem lineFeed_not_mem_hexPair (c : UInt8) : '\n' ∉ hexPair c := by
  have hHigh : '\n' ≠ hexDigit (c.toNat / 16) :=
    (hexDigit_ne _ (Nat.div_lt_of_lt_mul c.toNat_lt)).symm
  have hLow : '\n' ≠ hexDigit (c.toNat % 16) :=
    (hexDigit_ne _ (Nat.mod_lt _ (by decide))).symm
  simp [hexPair, hHigh, hLow]

private theorem lineFeed_not_mem_toHex (c : Color) : '\n' ∉ c.toHex.toList := by
  unfold toHex
  dsimp only
  split <;> simp [lineFeed_not_mem_hexPair]

end Color

namespace Value

/-- What a text for a property can become: a value that stands for itself, with a word for the slant
of a font and the name of a member. -/
def IsLiteral : Value → Prop
  | .none | .bool _ | .int _ | .float _ | .text _ | .color _ | .descriptor _ | .image _ _ => True
  | .font f => '\n' ∉ f.descriptor.slant.toList
  | .member m => '\n' ∉ (lower m.name).toList
  | _ => False

instance (v : Value) : Decidable v.IsLiteral :=
  match v with
  | .none | .bool _ | .int _ | .float _ | .text _ | .color _ | .descriptor _ | .image _ _ =>
    .isTrue trivial
  | .font f => inferInstanceAs (Decidable ('\n' ∉ f.descriptor.slant.toList))
  | .member m => inferInstanceAs (Decidable ('\n' ∉ (lower m.name).toList))
  | .list _ | .tuple _ | .segment _ | .pickerRow _ | .pickerComponent _ | .tableSection _
  | .selection _ | .operation _ | .type _ | .object _ => .isFalse id

/-- A font whose family is on more than one line. -/
def BreaksLine : Value → Prop
  | .font f => '\n' ∈ f.descriptor.family.toList
  | _ => False

end Value

private theorem lineFeed_not_mem_displayDescriptor (d : FontDescriptor) :
    '\n' ∉ (displayDescriptor d).toList := by
  intro h
  have hParts : '\n' ∈ (joined ", " ["family=" ++ quoted d.family,
      "weight=" ++ toString d.weight, "slant=" ++ quoted d.slant]).toList := by
    simpa [displayDescriptor, displayRecord] using h
  obtain ⟨part, hPart, hIn⟩ := (mem_joined_iff (by decide)).1 hParts
  have hWeight : '\n' ∉ (toString d.weight).toList := lineFeed_not_mem_toString d.weight
  simp only [List.mem_cons, List.not_mem_nil, or_false] at hPart
  rcases hPart with rfl | rfl | rfl
  · simp [lineFeed_not_mem_quoted] at hIn
  · rw [String.toList_append, List.mem_append] at hIn
    exact hIn.elim (by decide) hWeight
  · simp [lineFeed_not_mem_quoted] at hIn

/-- Nothing in a font but its family can have a line feed. -/
theorem lineFeed_mem_outlineFont_iff {f : Font} (h : '\n' ∉ f.descriptor.slant.toList) :
    '\n' ∈ (outlineFont f).toList ↔ '\n' ∈ f.descriptor.family.toList := by
  have hStyle : '\n' ∉ (if f.descriptor.weight = 400 ∧ f.descriptor.slant = "regular" then ""
      else "/" ++ toString f.descriptor.weight ++
        String.ofList (f.descriptor.slant.toList.take 1)).toList := by
    split
    · decide
    · have hWeight : '\n' ∉ (toString f.descriptor.weight).toList :=
        lineFeed_not_mem_toString f.descriptor.weight
      have hSlant : '\n' ∉ f.descriptor.slant.toList.take 1 := fun hMem =>
        h (List.mem_of_mem_take hMem)
      simp only [String.toList_append, String.toList_ofList, List.mem_append, not_or]
      exact ⟨⟨by decide, hWeight⟩, hSlant⟩
  have hAt : '\n' ∉ "@".toList := by decide
  unfold outlineFont
  simp only [String.toList_append, List.mem_append, hStyle, hAt, or_false]
  refine or_iff_left ?_
  split
  · next n _ =>
    cases ofInt? n with
    | none => decide
    | some x => exact lineFeed_not_mem_writeCompact x
  · exact lineFeed_not_mem_writeCompact _

/-- A value that a text can become breaks a line if and only if it is a font whose family does. -/
theorem Scene.lineFeed_mem_outlineValue_iff (sc : Scene) {v : Value} (h : v.IsLiteral) :
    '\n' ∈ (sc.outlineValue v).toList ↔ v.BreaksLine := by
  cases v with
  | none =>
    have hNone : '\n' ∉ "None".toList := by decide
    exact iff_of_false hNone id
  | bool b =>
    have hBool : '\n' ∉ (displayBool b).toList := by cases b <;> decide
    exact iff_of_false hBool id
  | int n => exact iff_of_false (lineFeed_not_mem_toString n) id
  | float x => exact iff_of_false (lineFeed_not_mem_write x) id
  | text s => exact iff_of_false (lineFeed_not_mem_quoted s) id
  | member m => exact iff_of_false h id
  | color c => exact iff_of_false c.lineFeed_not_mem_toHex id
  | descriptor d => exact iff_of_false (lineFeed_not_mem_displayDescriptor d) id
  | font f => exact lineFeed_mem_outlineFont_iff h
  | image width height =>
    have hWidth := lineFeed_not_mem_repr width
    have hHeight := lineFeed_not_mem_repr height
    refine iff_of_false ?_ id
    have hShown : (sc.outlineValue (.image width height)).toList =
        "<image ".toList ++ (Nat.repr width).toList ++ "x".toList ++ (Nat.repr height).toList ++
          ">".toList := by
      simp [outlineValue, display, Value.display]
    rw [hShown]
    simp only [List.mem_append, not_or]
    exact ⟨⟨⟨⟨by decide, hWidth⟩, by decide⟩, hHeight⟩, by decide⟩
  | _ => exact h.elim

/-! ## Reading -/

/-- Every member has a name on one line. -/
def Enumeration.Unbroken (e : Enumeration) : Prop := ∀ m ∈ e.members, '\n' ∉ (lower m.name).toList

private theorem readMember_mem {raw : String} {e : Enumeration} {m : Member}
    (h : readMember raw e = .ok m) : m ∈ e.members := by
  unfold readMember at h
  dsimp only at h
  split at h
  · split at h
    · next hFound =>
      cases h
      obtain ⟨value, -, hFound⟩ := Option.bind_eq_some_iff.1 hFound
      exact List.mem_of_find?_eq_some hFound
    · cases h
  · split at h
    · next hFound =>
      cases h
      exact List.mem_of_find?_eq_some hFound
    · cases h

theorem FontDescriptor.slant_of_make {family slant : String} {weight : Int} {d : FontDescriptor}
    (h : FontDescriptor.make family weight slant = .ok d) : d.slant = slant := by
  unfold FontDescriptor.make at h
  split at h
  · cases h
  · split at h
    · cases h
    · cases h
      rfl

theorem Font.descriptor_of_make {d : FontDescriptor} {size : Number} {f : Font}
    (h : Font.make d size = .ok f) : f.descriptor = d := by
  unfold Font.make at h
  split at h
  · cases h
  · cases h
    rfl

private theorem FontDescriptor.descriptor_of_withSize {d : FontDescriptor} {size : String}
    {f : Font} (h : d.withSize size = .ok f) : f.descriptor = d := by
  obtain ⟨x, -, h⟩ := exists_of_bind_eq_ok h
  exact Font.descriptor_of_make (eq_ok_of_mapError_eq_ok h)

private theorem lineFeed_not_mem_fontStyles : ∀ style ∈ fontStyles, '\n' ∉ style.2.2.toList := by
  decide

/-- Slants are read as words. -/
theorem FontDescriptor.slant_of_read {raw : String} {d : FontDescriptor}
    (h : FontDescriptor.read raw = .ok d) : '\n' ∉ d.slant.toList := by
  have hUsual : '\n' ∉ "regular".toList := by decide
  unfold FontDescriptor.read at h
  split at h
  · cases h
  · dsimp only at h
    rw [slant_of_make (eq_ok_of_mapError_eq_ok h)]
    cases hStyle : familyAndStyle? raw.toList with
    | none => exact hUsual
    | some found =>
      unfold familyAndStyle? at hStyle
      split at hStyle
      · cases hStyle
      · cases hStyle
      · next name _ _ =>
        obtain ⟨style, hLookup, rfl⟩ := Option.map_eq_some_iff.1 hStyle
        obtain ⟨front, back, hStyles, -⟩ := List.lookup_eq_some_iff.1 hLookup
        refine lineFeed_not_mem_fontStyles (lower (String.ofList name), style) ?_
        rw [hStyles]
        exact List.mem_append_right front List.mem_cons_self

private theorem Font.slant_of_read {raw : String} {f : Font} (h : Font.read raw = .ok f) :
    '\n' ∉ f.descriptor.slant.toList := by
  have hUsual : '\n' ∉ "regular".toList := by decide
  unfold Font.read at h
  split at h
  · rwa [FontDescriptor.descriptor_of_withSize h]
  · split at h
    · obtain ⟨d, hMade, h⟩ := exists_of_bind_eq_ok h
      rw [Font.descriptor_of_make (eq_ok_of_mapError_eq_ok h),
        FontDescriptor.slant_of_make (eq_ok_of_mapError_eq_ok hMade)]
      exact hUsual
    · split at h
      · cases h
      · dsimp only at h
        split at h
        · cases h
        · obtain ⟨d, hRead, h⟩ := exists_of_bind_eq_ok h
          rw [FontDescriptor.descriptor_of_withSize h]
          exact FontDescriptor.slant_of_read hRead

/-- What is read without resources. -/
theorem Decoder.read_isLiteral {d : Decoder} {raw : String} {kind : Kind}
    {enumeration : Option Enumeration} {v : Value} (hNames : ∀ e ∈ enumeration, e.Unbroken)
    (h : d.read raw kind enumeration = .ok (.value v)) : v.IsLiteral := by
  -- Every kind but texts makes its value from what its own reading gives.
  have hMade {α : Type} {x : Except Failure α} {f : α → Value}
      (h : x.map (Reading.value ∘ f) = .ok (.value v)) (hf : ∀ a, x = .ok a → (f a).IsLiteral) :
      v.IsLiteral := by
    obtain ⟨a, hx, ha⟩ := exists_of_map_eq_ok h
    cases ha
    exact hf a hx
  have hFault {α : Type} {x : Except DecodeFault α} {f : α → Value}
      (h : (x.map (Reading.value ∘ f)).mapError (Failure.of ∘ Fault.decode) = .ok (.value v))
      (hf : ∀ a, x = .ok a → (f a).IsLiteral) : v.IsLiteral := by
    obtain ⟨a, hx, ha⟩ := exists_of_map_eq_ok (eq_ok_of_mapError_eq_ok h)
    cases ha
    exact hf a hx
  cases kind with (simp only [read] at h)
  | string =>
    have hText := Except.ok.inj h
    unfold readText at hText
    split at hText <;> cases hText <;> trivial
  | bool => exact hFault h fun _ _ => trivial
  | int => exact hMade h fun _ _ => trivial
  | float => exact hMade h fun _ _ => trivial
  | color => exact hFault h fun _ _ => trivial
  | font => exact hMade h fun _ hRead => Font.slant_of_read hRead
  | fontDescriptor => exact hMade h fun _ _ => trivial
  | enumeration =>
    cases enumeration with
    | none => cases h
    | some e => exact hFault h fun m hRead => hNames e rfl m (readMember_mem hRead)
  | image | object | other _ => simp at h

private theorem Reading.fetch_isLiteral {r : Reading} (hr : ∀ v, r = .value v → v.IsLiteral)
    (fs : Files) (property : String) (l : Loader) :
    Yields (r.fetch fs property) (some l) (fun v _ => v.IsLiteral) fun _ => True := by
  cases r with
  | value v => exact .ofPure (hr v rfl)
  | localized raw key =>
    refine withResources_yields (.map ?_) _
    exact (Yields.always _ l).mono (fun _ _ _ => trivial) fun _ _ => trivial
  | picture name =>
    refine withResources_yields ?_ _
    refine .bind (P := fun _ _ => True) (.ofGet trivial) fun _ _ _ => ?_
    refine .bind (P := fun _ _ => True) (.ofLift (fun _ _ => trivial) trivial) fun _ _ _ => ?_
    exact .ofPure trivial

/-- What a text for a property becomes, if it becomes a value. -/
theorem Decoder.fetchProperty_isLiteral (d : Decoder) (fs : Files) {p : Property} (raw : String)
    (l : Loader) (hNames : ∀ e ∈ p.enumeration, e.Unbroken) :
    Yields (d.fetchProperty fs p raw) (some l) (fun v _ => v.IsLiteral) fun _ => True := by
  refine .bind (P := fun r l? => d.readProperty p raw = .ok r ∧ l? = some l)
    (.ofLift (fun _ h => ⟨h, rfl⟩) trivial) ?_
  rintro r _ ⟨hr, rfl⟩
  cases r with
  | value v =>
    refine Reading.fetch_isLiteral (fun w hw => ?_) ..
    cases hw
    unfold readProperty at hr
    split at hr
    · cases hr
    · exact read_isLiteral hNames (eq_ok_of_mapError_eq_ok hr)
  | localized raw key => exact .adapt (Reading.fetch_isLiteral (fun _ h => by cases h) ..)
  | picture name => exact Reading.fetch_isLiteral (fun _ h => by cases h) ..

end ViewMarkup
