import ViewMarkup.Decimal.Literal
import ViewMarkup.Proofs.Text.Trim

/-!
# Characters of number literals

A literal is read part by part: the sign, the digits, the fraction, the exponent. Every part takes
what it knows from the start and leaves the rest, so a literal has none but the characters of its
parts, and perhaps a line feed at the end, which makes no difference to what is read.

## Main results

* `Decimal.Literal.spans_of_read?` — which characters a literal may have.
* `Decimal.Literal.read?_trim` — a literal may be trimmed.
* `Decimal.integerDigits?_toString` — the decimal form of an integer is read digit by digit.
-/

namespace ViewMarkup.Decimal

open Text

variable {c : Char} {cs ds rest : List Char} {p q : Char → Prop}

/-! ## Spans of characters -/

/-- In front of `rest` stand none but certain characters. -/
def Spans (p : Char → Prop) (cs rest : List Char) : Prop :=
  ∃ front, cs = front ++ rest ∧ ∀ c ∈ front, p c

namespace Spans

theorem refl (p : Char → Prop) (cs : List Char) : Spans p cs cs := ⟨[], rfl, fun _ hc => nomatch hc⟩

theorem cons (hc : p c) (h : Spans p cs rest) : Spans p (c :: cs) rest := by
  obtain ⟨front, rfl, hFront⟩ := h
  exact ⟨c :: front, rfl, List.forall_mem_cons.2 ⟨hc, hFront⟩⟩

theorem trans (h : Spans p cs ds) (h' : Spans p ds rest) : Spans p cs rest := by
  obtain ⟨front, rfl, hFront⟩ := h
  obtain ⟨front', rfl, hFront'⟩ := h'
  exact ⟨front ++ front', by simp, List.forall_mem_append.2 ⟨hFront, hFront'⟩⟩

theorem mono (h : Spans p cs rest) (hAll : ∀ c, p c → q c) : Spans q cs rest := by
  obtain ⟨front, rfl, hFront⟩ := h
  exact ⟨front, rfl, fun c hc => hAll c (hFront c hc)⟩

/-- What is left has no characters of its own. -/
theorem mem (h : Spans p cs rest) (hc : c ∈ rest) : c ∈ cs := by
  obtain ⟨front, rfl, -⟩ := h
  exact List.mem_append_right front hc

end Spans

/-! ## The parts of a literal -/

/-- A sign or a digit. -/
def InInteger (c : Char) : Prop := isDigit c = true ∨ c = '+' ∨ c = '-'

/-- A sign, a digit, a decimal point or the mark of an exponent. -/
def InNumber (c : Char) : Prop := InInteger c ∨ c = '.' ∨ c = 'e' ∨ c = 'E'

/-- The fraction, which may be missing. -/
def takeFraction : List Char → List Nat × List Char
  | '.' :: cs => takeDigits cs
  | cs => ([], cs)

theorem takeSign_spans (cs : List Char) : Spans InInteger cs (takeSign cs).2 := by
  unfold takeSign
  split
  · exact (Spans.refl _ _).cons (.inr (.inr rfl))
  · exact (Spans.refl _ _).cons (.inr (.inl rfl))
  · exact Spans.refl _ _

theorem takeDigits_spans (cs : List Char) : Spans InInteger cs (takeDigits cs).2 := by
  induction cs with
  | nil => exact Spans.refl _ _
  | cons c cs ih =>
    rw [takeDigits]
    split
    · exact Spans.refl _ _
    · next d hDigit => exact ih.cons (.inl (by simp [isDigit, hDigit]))

private theorem takeFraction_spans (cs : List Char) : Spans InNumber cs (takeFraction cs).2 := by
  unfold takeFraction
  split
  · next cs => exact ((takeDigits_spans cs).mono fun _ => .inl).cons (.inr (.inl rfl))
  · exact Spans.refl _ _

/-- What follows on the mark of an exponent. -/
def markedExponent? (cs : List Char) : Option Int :=
  let (negative, cs) := takeSign cs
  let (ds, rest) := takeDigits cs
  if ds.isEmpty || !isEnd rest then none
  else some (if negative then -(ofDigits ds : Int) else ofDigits ds)

theorem exponent?_of_mark (hc : c = 'e' ∨ c = 'E') (cs : List Char) :
    exponent? (c :: cs) = markedExponent? cs := by
  rcases hc with rfl | rfl <;> rfl

theorem exponent?_of_not_mark (hc : ¬ (c = 'e' ∨ c = 'E')) (cs : List Char) :
    exponent? (c :: cs) = if isEnd (c :: cs) then some 0 else none := by
  obtain ⟨hSmall, hLarge⟩ := not_or.1 hc
  unfold exponent?
  split
  · next hEq => exact absurd (List.cons.inj hEq).1 hSmall
  · next hEq => exact absurd (List.cons.inj hEq).1 hLarge
  · rfl

private theorem markedExponent?_spans {k : Int} (h : markedExponent? cs = some k) :
    ∃ rest, Spans InNumber cs rest ∧ isEnd rest = true := by
  refine ⟨_, ((takeSign_spans cs).trans (takeDigits_spans _)).mono fun _ => .inl, ?_⟩
  cases hEnd : isEnd (takeDigits (takeSign cs).2).2 with
  | true => rfl
  | false => simp [markedExponent?, hEnd] at h

private theorem exponent?_spans {k : Int} (h : exponent? cs = some k) :
    ∃ rest, Spans InNumber cs rest ∧ isEnd rest = true := by
  cases cs with
  | nil => exact ⟨[], Spans.refl _ _, rfl⟩
  | cons c cs =>
    by_cases hc : c = 'e' ∨ c = 'E'
    · rw [exponent?_of_mark hc] at h
      obtain ⟨rest, hSpans, hEnd⟩ := markedExponent?_spans h
      exact ⟨rest, hSpans.cons (.inr (.inr hc)), hEnd⟩
    · rw [exponent?_of_not_mark hc] at h
      split at h
      · next hEnd => exact ⟨c :: cs, Spans.refl _ _, hEnd⟩
      · cases h

namespace Literal

/-- The sign, the digits on either side of the point, and what follows on them. -/
def parts (cs : List Char) : Bool × List Nat × List Nat × List Char :=
  let (negative, cs) := takeSign cs
  let (whole, cs) := takeDigits cs
  let (fraction, cs) := takeFraction cs
  (negative, whole, fraction, cs)

/-- The literal that has these parts, if what follows on them is an exponent. -/
def ofParts? : Bool × List Nat × List Nat × List Char → Option Literal
  | (negative, whole, fraction, cs) =>
    if whole.isEmpty && fraction.isEmpty then none
    else do return { negative, whole, fraction, exponent := ← exponent? cs }

theorem read?_eq (s : String) : read? s = ofParts? (parts s.toList) := rfl

theorem parts_spans (cs : List Char) : Spans InNumber cs (parts cs).2.2.2 :=
  (((takeSign_spans cs).trans (takeDigits_spans _)).mono fun _ => .inl).trans (takeFraction_spans _)

/-- A literal has no characters but those of its parts, and perhaps a line feed at the end. -/
theorem spans_of_read? {s : String} {l : Literal} (h : read? s = some l) :
    ∃ rest, Spans InNumber s.toList rest ∧ isEnd rest = true := by
  rw [read?_eq, ofParts?] at h
  split at h
  · cases h
  · obtain ⟨k, hExponent, -⟩ := Option.bind_eq_some_iff.1 h
    obtain ⟨rest, hSpans, hEnd⟩ := exponent?_spans hExponent
    exact ⟨rest, (parts_spans s.toList).trans hSpans, hEnd⟩

end Literal

/-! ## A closing line feed -/

theorem takeSign_concat (cs : List Char) :
    takeSign (cs ++ ['\n']) = ((takeSign cs).1, (takeSign cs).2 ++ ['\n']) := by
  match cs with
  | [] => rfl
  | c :: cs =>
    by_cases hMinus : c = '-'
    · subst hMinus
      rfl
    · by_cases hPlus : c = '+'
      · subst hPlus
        rfl
      · simp [takeSign, hMinus, hPlus]

theorem takeDigits_concat (cs : List Char) :
    takeDigits (cs ++ ['\n']) = ((takeDigits cs).1, (takeDigits cs).2 ++ ['\n']) := by
  induction cs with
  | nil => rfl
  | cons c cs ih =>
    rw [List.cons_append, takeDigits, takeDigits]
    cases digit? c with
    | none => rfl
    | some d => simp [ih]

private theorem takeFraction_concat (cs : List Char) :
    takeFraction (cs ++ ['\n']) = ((takeFraction cs).1, (takeFraction cs).2 ++ ['\n']) := by
  match cs with
  | [] => rfl
  | c :: cs =>
    by_cases hPoint : c = '.'
    · subst hPoint
      exact takeDigits_concat cs
    · simp [takeFraction, hPoint]

theorem isEnd_concat (h : '\n' ∉ cs) : isEnd (cs ++ ['\n']) = isEnd cs := by
  cases cs with
  | nil => rfl
  | cons c cs =>
    obtain ⟨hc, -⟩ := List.ne_and_not_mem_of_not_mem_cons h
    have hFeed : (c == '\n') = false := by simpa using Ne.symm hc
    simp [isEnd, hFeed]

private theorem markedExponent?_concat (h : '\n' ∉ cs) :
    markedExponent? (cs ++ ['\n']) = markedExponent? cs := by
  have hRest : '\n' ∉ (takeDigits (takeSign cs).2).2 := fun hMem =>
    h (((takeSign_spans cs).trans (takeDigits_spans _)).mem hMem)
  simp only [markedExponent?, takeSign_concat, takeDigits_concat, isEnd_concat hRest]

private theorem exponent?_concat (h : '\n' ∉ cs) : exponent? (cs ++ ['\n']) = exponent? cs := by
  cases cs with
  | nil => rfl
  | cons c cs =>
    by_cases hc : c = 'e' ∨ c = 'E'
    · rw [List.cons_append, exponent?_of_mark hc, exponent?_of_mark hc,
        markedExponent?_concat fun hMem => h (List.mem_cons_of_mem c hMem)]
    · rw [List.cons_append, exponent?_of_not_mark hc, exponent?_of_not_mark hc,
        ← List.cons_append, isEnd_concat h]

namespace Literal

theorem ofParts?_parts_concat (h : '\n' ∉ cs) :
    ofParts? (parts (cs ++ ['\n'])) = ofParts? (parts cs) := by
  have hRest : '\n' ∉ (parts cs).2.2.2 := fun hMem => h ((parts_spans cs).mem hMem)
  have hParts : parts (cs ++ ['\n']) =
      ((parts cs).1, (parts cs).2.1, (parts cs).2.2.1, (parts cs).2.2.2 ++ ['\n']) := by
    simp only [parts, takeSign_concat, takeDigits_concat, takeFraction_concat]
  rw [hParts, ofParts?, exponent?_concat hRest]
  rfl

end Literal

/-! ## Trimming -/

private theorem digitZeros_not_blank :
    ∀ z ∈ digitZeros, ∀ k < 10, isBlank (Char.ofNat (z + k)) = false := by
  decide +kernel

/-- No digit of any script is a blank. -/
theorem isBlank_of_isDigit (h : isDigit c = true) : isBlank c = false := by
  obtain ⟨d, hDigit⟩ := Option.isSome_iff_exists.1 h
  by_cases hAscii : IsAscii c
  · exact hAscii.induction
      (P := fun c => isDigit c = true → isBlank c = false) (by decide +kernel) h
  · have hOutside : ¬ c.toNat < 0x80 := hAscii
    rw [digit?, if_neg hOutside] at hDigit
    obtain ⟨z, hFound, -⟩ := Option.map_eq_some_iff.1 hDigit
    have hRange := List.find?_some hFound
    simp only [Bool.and_eq_true, decide_eq_true_eq] at hRange
    have hChar := digitZeros_not_blank z (List.mem_of_find?_eq_some hFound) (c.toNat - z) (by omega)
    rwa [Nat.add_sub_cancel' hRange.1, Char.ofNat_toNat] at hChar

private theorem InNumber.isBlank_eq_false (h : InNumber c) : isBlank c = false := by
  rcases h with (h | rfl | rfl) | rfl | rfl | rfl
  · exact isBlank_of_isDigit h
  all_goals decide

theorem isEnd_iff : isEnd rest = true ↔ rest = [] ∨ rest = ['\n'] := by
  simp [isEnd]

namespace Literal

variable {s : String} {l : Literal}

/-- A literal may be trimmed. -/
theorem read?_trim (h : read? s = some l) : read? (trim s) = some l := by
  obtain ⟨rest, ⟨front, hText, hFront⟩, hEnd⟩ := spans_of_read? h
  have hBlank : ∀ c ∈ front, isBlank c = false := fun c hc => (hFront c hc).isBlank_eq_false
  have hKept : trimList front = front := trimList_eq_self_of_forall hBlank
  rw [read?_eq] at h ⊢
  rcases isEnd_iff.1 hEnd with rfl | rfl
  · rw [List.append_nil] at hText
    rwa [trim, String.toList_ofList, hText, hKept, ← hText]
  · have hFeed : '\n' ∉ front := fun hMem => absurd (hBlank _ hMem) (by decide)
    rw [trim, String.toList_ofList, hText, trimList_concat (by decide), hKept,
      ← ofParts?_parts_concat hFeed, ← hText]
    exact h

/-- Which characters may stand in a literal. -/
theorem mem_of_read? (h : read? s = some l) (hc : c ∈ s.toList) : InNumber c ∨ c = '\n' := by
  obtain ⟨rest, ⟨front, hText, hFront⟩, hEnd⟩ := spans_of_read? h
  rcases List.mem_append.1 (hText ▸ hc) with hc | hc
  · exact .inl (hFront c hc)
  · rcases isEnd_iff.1 hEnd with rfl | rfl
    · cases hc
    · exact .inr (List.mem_singleton.1 hc)

end Literal

/-! ## Integers -/

theorem integerDigits?_eq (s : String) :
    integerDigits? s =
      if (takeDigits (takeSign s.toList).2).1.isEmpty || !isEnd (takeDigits (takeSign s.toList).2).2
      then none else some ((takeSign s.toList).1, (takeDigits (takeSign s.toList).2).1) := rfl

/-- Which characters may stand in an integer literal. -/
theorem mem_of_integerDigits? {s : String} {n : Bool × List Nat} (h : integerDigits? s = some n)
    (hc : c ∈ s.toList) : InInteger c ∨ c = '\n' := by
  rw [integerDigits?_eq] at h
  split at h
  · cases h
  · next hNot =>
    simp only [Bool.or_eq_true, Bool.not_eq_true', not_or, Bool.not_eq_false] at hNot
    obtain ⟨front, hText, hFront⟩ := (takeSign_spans s.toList).trans (takeDigits_spans _)
    rcases List.mem_append.1 (hText ▸ hc) with hc | hc
    · exact .inl (hFront c hc)
    · rcases isEnd_iff.1 hNot.2 with hEnd | hEnd
      · rw [hEnd] at hc
        cases hc
      · rw [hEnd] at hc
        exact .inr (List.mem_singleton.1 hc)

/-- There are no letters in an integer literal. -/
theorem integerDigits?_of_isAlpha {s : String} (hc : c ∈ s.toList) (hAlpha : c.isAlpha = true) :
    integerDigits? s = none := by
  have hNot : isDigit c = false ∧ c ≠ '+' ∧ c ≠ '-' ∧ c ≠ '\n' :=
    (isAscii_of_isAlphanum (by simp [Char.isAlphanum, hAlpha])).induction
      (P := fun c => c.isAlpha = true → isDigit c = false ∧ c ≠ '+' ∧ c ≠ '-' ∧ c ≠ '\n')
      (by decide +kernel) hAlpha
  cases hRead : integerDigits? s with
  | none => rfl
  | some n =>
    rcases mem_of_integerDigits? hRead hc with (hDigit | hPlus | hMinus) | hFeed
    · rw [hNot.1] at hDigit
      cases hDigit
    · exact absurd hPlus hNot.2.1
    · exact absurd hMinus hNot.2.2.1
    · exact absurd hFeed hNot.2.2.2

private theorem takeDigits_of_isDigit (h : ∀ c ∈ cs, c.isDigit = true) :
    takeDigits cs = (cs.map fun c => c.toNat - '0'.toNat, []) := by
  have hDigit {c : Char} (hc : c.isDigit = true) : digit? c = some (c.toNat - '0'.toNat) :=
    (isAscii_of_isAlphanum (by simp [Char.isAlphanum, hc])).induction
      (P := fun c => c.isDigit = true → digit? c = some (c.toNat - '0'.toNat))
      (by decide +kernel) hc
  induction cs with
  | nil => rfl
  | cons c cs ih =>
    obtain ⟨hc, hTail⟩ := List.forall_mem_cons.1 h
    rw [takeDigits, hDigit hc]
    simp [ih hTail]

theorem ofDigits_map (cs : List Char) :
    ofDigits (cs.map fun c => c.toNat - '0'.toNat) = Nat.ofDigitChars 10 cs 0 := by
  rw [ofDigits, Nat.ofDigitChars, List.foldl_map]

/-- The decimal digits of a number, by value. -/
def digitsOf (n : Nat) : List Nat := (Nat.toDigits 10 n).map fun c => c.toNat - '0'.toNat

theorem ofDigits_digitsOf (n : Nat) : ofDigits (digitsOf n) = n := by
  rw [digitsOf, ofDigits_map, Nat.ofDigitChars_toDigits (by decide) (by decide)]

theorem length_digitsOf_le_iff {n k : Nat} (hk : 0 < k) : (digitsOf n).length ≤ k ↔ n < 10 ^ k := by
  rw [digitsOf, List.length_map, Nat.length_toDigits_le_iff (by decide) hk]

theorem digitsOf_ne_nil (n : Nat) : (digitsOf n).isEmpty = false := by
  rw [digitsOf, List.isEmpty_map]
  exact List.isEmpty_eq_false_iff.2 Nat.toDigits_ne_nil

theorem isDigit_of_mem_repr {n : Nat} (hc : c ∈ n.repr.toList) : c.isDigit = true := by
  rw [Nat.toList_repr] at hc
  exact Nat.isDigit_of_mem_toDigits (by decide) (by decide) hc

private theorem takeDigits_repr (n : Nat) : takeDigits n.repr.toList = (digitsOf n, []) := by
  rw [takeDigits_of_isDigit fun c hc => isDigit_of_mem_repr hc, Nat.toList_repr, digitsOf]

/-- The digits of a number are no sign. -/
theorem takeSign_repr (n : Nat) : takeSign n.repr.toList = (false, n.repr.toList) := by
  unfold takeSign
  split
  · next hText =>
    exact absurd (isDigit_of_mem_repr (hText ▸ List.mem_cons_self)) (by decide)
  · next hText =>
    exact absurd (isDigit_of_mem_repr (hText ▸ List.mem_cons_self)) (by decide)
  · rfl

/-- There is nothing to trim away from the decimal form of an integer. -/
theorem trim_toString (n : Int) : trim (toString n) = toString n := by
  have hDigit {n : Nat} (c : Char) (hc : c ∈ n.repr.toList) : isBlank c = false :=
    isBlank_eq_false_of_isAlphanum (by simp [Char.isAlphanum, isDigit_of_mem_repr hc])
  have hChars : ∀ c ∈ (toString n).toList, isBlank c = false := by
    rw [Int.toString_eq_repr]
    cases n with
    | ofNat n => exact hDigit
    | negSucc n =>
      rw [Int.repr, String.toList_append]
      exact List.forall_mem_append.2 ⟨List.forall_mem_singleton.2 (by decide), hDigit⟩
  rw [trim, trimList_eq_self_of_forall hChars, String.ofList_toList]

/-- The decimal form of an integer is read digit by digit. -/
theorem integerDigits?_toString (n : Int) :
    integerDigits? (toString n) = some (decide (n < 0), digitsOf n.natAbs) := by
  rw [integerDigits?_eq, Int.toString_eq_repr]
  cases n with
  | ofNat n =>
    rw [Int.repr, takeSign_repr, takeDigits_repr, digitsOf_ne_nil]
    rfl
  | negSucc n =>
    have hSign : takeSign (Int.repr (.negSucc n)).toList = (true, (n + 1).repr.toList) := by
      rw [Int.repr, String.toList_append]
      rfl
    rw [hSign, takeDigits_repr, digitsOf_ne_nil]
    simp [isEnd]

end ViewMarkup.Decimal
