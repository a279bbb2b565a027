import Mathlib
import ViewMarkup.Text.Blank
import ViewMarkup.Text.Case

/-!
# Letters in either case

Lower case by the tables of Unicode agrees with lower case of ASCII letters where a text has no
other characters. The other way round there is one character more to look out for: the Kelvin sign
is the only one outside of ASCII whose lower-case form has ASCII characters alone. So a text whose
lower-case form is a word of ASCII letters without `k` is this word in some letter case.

A character is an underscore before a change of case if and only if it is one after it, so
underscores can be left out on either side of it.

## Main results

* `Text.lower_of_sameLetters`, `Text.lower_eq_iff` — which texts have a word as their lower-case
  form.
* `Text.upper_without`, `Text.lower_without` — leaving out underscores before and after a change of
  case.
-/

namespace ViewMarkup.Text

variable {c d : Char} {cs before : List Char} {s t : String}

/-! ## Characters of ASCII -/

/-- A character of ASCII. -/
def IsAscii (c : Char) : Prop := c.toNat < 0x80

instance (c : Char) : Decidable (IsAscii c) := inferInstanceAs (Decidable (c.toNat < 0x80))

/-- What holds of the first 128 characters holds of all of ASCII. -/
theorem IsAscii.induction {P : Char → Prop} (h : IsAscii c) (hAll : ∀ n < 0x80, P (Char.ofNat n)) :
    P c := by
  rw [← Char.ofNat_toNat c]
  exact hAll c.toNat h

theorem isAscii_of_isAlphanum (h : c.isAlphanum = true) : IsAscii c := by
  simp only [Char.isAlphanum, Char.isAlpha, Char.isUpper, Char.isLower, Char.isDigit,
    Bool.or_eq_true, Bool.and_eq_true, decide_eq_true_eq, ge_iff_le, UInt32.le_iff_toNat_le] at h
  have hValue : c.toNat = c.val.toNat := rfl
  have hBounds : 'Z'.val.toNat = 90 ∧ 'z'.val.toNat = 122 ∧ '9'.val.toNat = 57 := ⟨rfl, rfl, rfl⟩
  unfold IsAscii
  omega

private theorem toLower_of_not_isAscii (h : ¬ IsAscii c) : c.toLower = c :=
  Char.toLower_eq_of_not_isUpper fun hUpper =>
    h (isAscii_of_isAlphanum (by simp [Char.isAlphanum, Char.isAlpha, hUpper]))

/-- What holds of the letters of ASCII and their lower-case forms, and of each character outside of
ASCII and itself, holds of all characters and their lower-case forms. -/
theorem toLower_rule {P : Char → Char → Prop}
    (hAll : ∀ n < 0x80, P (Char.ofNat n) (Char.ofNat n).toLower)
    (hOutside : ∀ c, ¬ IsAscii c → P c c) (c : Char) : P c c.toLower := by
  by_cases h : IsAscii c
  · exact h.induction (P := fun c => P c c.toLower) hAll
  · rw [toLower_of_not_isAscii h]
    exact hOutside c h

theorem isAscii_toLower_iff : IsAscii c.toLower ↔ IsAscii c :=
  toLower_rule (P := fun c d => IsAscii d ↔ IsAscii c) (by decide +kernel) (fun _ _ => .rfl) c

theorem isAlphanum_toLower (c : Char) : c.toLower.isAlphanum = c.isAlphanum :=
  toLower_rule (P := fun c d => d.isAlphanum = c.isAlphanum) (by decide +kernel) (fun _ _ => rfl) c

theorem isBlank_toLower (c : Char) : isBlank c.toLower = isBlank c :=
  toLower_rule (P := fun c d => isBlank d = isBlank c) (by decide +kernel) (fun _ _ => rfl) c

theorem toLower_eq_underscore_iff : c.toLower = '_' ↔ c = '_' :=
  toLower_rule (P := fun c d => d = '_' ↔ c = '_') (by decide +kernel) (fun _ _ => .rfl) c

theorem map_toLower_map_toLower (cs : List Char) :
    (cs.map Char.toLower).map Char.toLower = cs.map Char.toLower := by
  rw [List.map_map]
  exact List.map_congr_left fun c _ => Char.toLower_toLower_eq_toLower c

/-! ## Tables -/

/-- The sign of the unit, which is a capital letter of its own. -/
def kelvin : Char := '\u212a'

/-- What is looked up stands in the table. -/
theorem mem_of_lookup {α β : Type} [BEq α] [LawfulBEq α] {a : α} {b : β} {table : List (α × β)}
    (h : table.lookup a = some b) : (a, b) ∈ table := by
  obtain ⟨front, back, hTable, -⟩ := List.lookup_eq_some_iff.1 h
  exact hTable ▸ List.mem_append_right front List.mem_cons_self

/-- A run that maps a code point contains it. -/
theorem CaseRun.exists_of_lookup? {runs : List CaseRun} {n v : Nat}
    (h : CaseRun.lookup? runs n = some v) :
    ∃ r ∈ runs, r.first ≤ n ∧ n ≤ r.last ∧ v = Int.toNat (n + r.shift) := by
  obtain ⟨r, hr, hImage⟩ := List.exists_of_findSome?_eq_some h
  unfold CaseRun.image? at hImage
  split at hImage
  · next hIn =>
    simp only [Bool.and_eq_true, decide_eq_true_eq] at hIn
    exact ⟨r, hr, hIn.1.1, hIn.1.2, (Option.some.inj hImage).symm⟩
  · cases hImage

/-- What a run has to be like to lead from characters outside of ASCII to such characters. -/
def CaseRun.StaysOutside (r : CaseRun) : Prop :=
  0x80 ≤ r.first + r.shift ∧
    (r.last + r.shift < 0xd800 ∨ 0xdfff < r.first + r.shift ∧ r.last + r.shift < 0x110000)

instance (r : CaseRun) : Decidable r.StaysOutside :=
  inferInstanceAs (Decidable (_ ∧ (_ ∨ _ ∧ _)))

/-- All runs outside of ASCII stay there, apart from the one of the Kelvin sign. -/
theorem lowerRuns_stayOutside : ∀ r ∈ lowerRuns,
    r.last < 0x80 ∨ r.StaysOutside ∨
      r.first = kelvin.toNat ∧ r.last = kelvin.toNat ∧ r.shift = 'k'.toNat - kelvin.toNat := by
  decide +kernel

/-- No run leads to the underscore. -/
theorem upperRuns_ne_underscore : ∀ r ∈ upperRuns,
    r.last + r.shift < '_'.toNat ∨ '_'.toNat < r.first + r.shift := by
  decide +kernel

private theorem upperSequences_ne_underscore : ∀ entry ∈ upperSequences,
    '_' ∉ entry.2.map Char.ofNat := by
  decide +kernel

private theorem CaseRun.StaysOutside.not_isAscii {r : CaseRun} (h : r.StaysOutside) {n v : Nat}
    (hFirst : r.first ≤ n) (hLast : n ≤ r.last) (hv : v = Int.toNat (n + r.shift)) :
    ¬ IsAscii (Char.ofNat v) := by
  obtain ⟨hLow, hValid⟩ := h
  have hChar : v.isValidChar := by
    unfold Nat.isValidChar
    omega
  unfold IsAscii
  rw [Char.toNat_ofNat, if_pos hChar]
  omega

/-! ## Lower case of a character -/

theorem lowerChar_of_isAscii (h : IsAscii c) : lowerChar c = [c.toLower] := if_pos h

theorem upperChar_of_isAscii (h : IsAscii c) : upperChar c = [c.toUpper] := if_pos h

/-- The lower-case form of a character outside of ASCII. -/
theorem lowerChar_of_not_isAscii (h : ¬ IsAscii c) :
    lowerChar c = ['i', '\u0307'] ∨ (c = kelvin ∧ lowerChar c = ['k']) ∨
      ∃ d, lowerChar c = [d] ∧ ¬ IsAscii d := by
  have hOutside : ¬ c.toNat < 0x80 := h
  unfold lowerChar
  rw [if_neg hOutside]
  cases hSequence : lowerSequences.lookup c.toNat with
  | some ns =>
    obtain ⟨-, rfl⟩ : c.toNat = 0x130 ∧ ns = [0x69, 0x307] := by
      simpa [lowerSequences] using mem_of_lookup hSequence
    exact .inl rfl
  | none =>
    cases hRun : CaseRun.lookup? lowerRuns c.toNat with
    | none => exact .inr (.inr ⟨c, by simp, h⟩)
    | some v =>
      obtain ⟨r, hr, hFirst, hLast, hv⟩ := CaseRun.exists_of_lookup? hRun
      rcases lowerRuns_stayOutside r hr with hAscii | hOutside | ⟨hKelvin, hKelvin', hShift⟩
      · exact absurd (Nat.lt_of_le_of_lt hLast hAscii) h
      · exact .inr (.inr ⟨_, rfl, hOutside.not_isAscii hFirst hLast hv⟩)
      · have hc : c.toNat = kelvin.toNat := by omega
        have hk : v = 'k'.toNat := by omega
        refine .inr (.inl ⟨Char.toNat_inj.1 hc, ?_⟩)
        rw [hk]
        rfl

private theorem underscore_mem_lowerChar (h : '_' ∈ lowerChar c) : c = '_' := by
  by_cases hAscii : IsAscii c
  · rw [lowerChar_of_isAscii hAscii, List.mem_singleton] at h
    exact hAscii.induction (P := fun c => '_' = c.toLower → c = '_') (by decide +kernel) h
  · rcases lowerChar_of_not_isAscii hAscii with hForm | ⟨-, hForm⟩ | ⟨d, hForm, hd⟩
    · simp [hForm] at h
    · simp [hForm] at h
    · rw [hForm, List.mem_singleton] at h
      exact absurd (h ▸ by decide) hd

private theorem underscore_mem_upperChar (h : '_' ∈ upperChar c) : c = '_' := by
  by_cases hAscii : IsAscii c
  · rw [upperChar_of_isAscii hAscii, List.mem_singleton] at h
    exact hAscii.induction (P := fun c => '_' = c.toUpper → c = '_') (by decide +kernel) h
  · have hOutside : ¬ c.toNat < 0x80 := hAscii
    unfold upperChar at h
    rw [if_neg hOutside] at h
    cases hSequence : upperSequences.lookup c.toNat with
    | some ns =>
      rw [hSequence] at h
      exact absurd h (upperSequences_ne_underscore _ (mem_of_lookup hSequence))
    | none =>
      rw [hSequence] at h
      cases hRun : CaseRun.lookup? upperRuns c.toNat with
      | none => exact (by simpa [hRun] using h : '_' = c).symm
      | some v =>
        have hEq : '_' = Char.ofNat v := by simpa [hRun] using h
        obtain ⟨r, hr, hFirst, hLast, hv⟩ := CaseRun.exists_of_lookup? hRun
        have hRange := upperRuns_ne_underscore r hr
        have hUnderscore : '_'.toNat = 0x5f := rfl
        by_cases hValid : v.isValidChar
        · have hValue : '_'.toNat = v := by rw [hEq, Char.toNat_ofNat, if_pos hValid]
          omega
        · have hNull : Char.ofNat v = '\x00' := dif_neg hValid
          exact absurd (hEq.trans hNull) (by decide)

/-! ## Lower case of a text -/

/-- Where there is no capital sigma, the context plays no role. -/
theorem lowerList_eq_flatMap (h : ∀ c ∈ cs, c ≠ 'Σ') :
    lowerList before cs = cs.flatMap lowerChar := by
  induction cs generalizing before with
  | nil => rfl
  | cons c cs ih =>
    obtain ⟨hHead, hTail⟩ := List.forall_mem_cons.1 h
    have hSigma : ¬ (c == 'Σ') = true := by simpa using hHead
    rw [lowerList, if_neg hSigma, ih hTail, List.flatMap_cons]

theorem lowerList_of_isAscii (h : ∀ c ∈ cs, IsAscii c) :
    lowerList before cs = cs.map Char.toLower := by
  have hSigma : ∀ c ∈ cs, c ≠ 'Σ' := by
    rintro _ hc rfl
    exact absurd (h _ hc) (by decide)
  have hChar : ∀ c ∈ cs, lowerChar c = [c.toLower] := fun c hc => lowerChar_of_isAscii (h c hc)
  rw [lowerList_eq_flatMap hSigma, List.flatMap_def, List.map_congr_left hChar,
    ← List.flatMap_def, ← List.map_eq_flatMap]

/-- What a text may consist of if its lower-case form is in ASCII. -/
theorem mem_of_lowerList_isAscii (h : ∀ d ∈ lowerList before cs, IsAscii d) :
    ∀ c ∈ cs, c ≠ 'Σ' ∧ (IsAscii c ∨ c = kelvin) := by
  induction cs generalizing before with
  | nil => exact fun _ hc => nomatch hc
  | cons c cs ih =>
    rw [lowerList] at h
    have hSigma : ¬ (c == 'Σ') = true := by
      intro hEq
      rw [if_pos hEq] at h
      have hHead := h _ (List.mem_append_left _ (List.mem_singleton_self _))
      split at hHead <;> exact absurd hHead (by decide)
    rw [if_neg hSigma] at h
    obtain ⟨hHead, hTail⟩ := List.forall_mem_append.1 h
    refine List.forall_mem_cons.2 ⟨⟨by simpa using hSigma, ?_⟩, ih hTail⟩
    by_cases hAscii : IsAscii c
    · exact .inl hAscii
    · rcases lowerChar_of_not_isAscii hAscii with hForm | ⟨hKelvin, -⟩ | ⟨d, hForm, hd⟩
      · exact absurd (hHead '\u0307' (by simp [hForm])) (by decide)
      · exact .inr hKelvin
      · exact absurd (hHead d (by simp [hForm])) hd

/-- The lower-case form of a character is there wherever the character is. -/
theorem mem_lowerList (hSigma : c ≠ 'Σ') (hd : d ∈ lowerChar c) (h : c ∈ cs) :
    d ∈ lowerList before cs := by
  induction cs generalizing before with
  | nil => cases h
  | cons c' cs ih =>
    rw [lowerList]
    rcases List.mem_cons.1 h with rfl | h
    · rw [if_neg (by simpa using hSigma)]
      exact List.mem_append_left _ hd
    · exact List.mem_append_right _ (ih h)

/-- The texts are equal up to the case of ASCII letters. -/
def SameLetters (s t : String) : Prop := s.toList.map Char.toLower = t.toList.map Char.toLower

instance (s t : String) : Decidable (SameLetters s t) :=
  inferInstanceAs (Decidable (s.toList.map Char.toLower = t.toList.map Char.toLower))

namespace SameLetters

theorem symm (h : SameLetters s t) : SameLetters t s := Eq.symm h

theorem trans {u : String} (h : SameLetters s t) (h' : SameLetters t u) : SameLetters s u :=
  Eq.trans h h'

/-- The same letters stand in both texts. -/
theorem exists_of_mem (h : SameLetters s t) (hc : c ∈ s.toList) :
    ∃ d ∈ t.toList, d.toLower = c.toLower := by
  have hMem : c.toLower ∈ t.toList.map Char.toLower := h ▸ List.mem_map_of_mem hc
  exact List.mem_map.1 hMem

theorem isAscii (h : SameLetters s t) (ht : ∀ c ∈ t.toList, IsAscii c) :
    ∀ c ∈ s.toList, IsAscii c := by
  intro c hc
  obtain ⟨d, hd, hLetter⟩ := h.exists_of_mem hc
  rw [← isAscii_toLower_iff, ← hLetter, isAscii_toLower_iff]
  exact ht d hd

end SameLetters

theorem lower_of_isAscii (h : ∀ c ∈ s.toList, IsAscii c) :
    lower s = String.ofList (s.toList.map Char.toLower) := by
  rw [lower, lowerList_of_isAscii h]

theorem upper_of_isAscii (h : ∀ c ∈ s.toList, IsAscii c) :
    upper s = String.ofList (s.toList.map Char.toUpper) := by
  have hChar : ∀ c ∈ s.toList, upperChar c = [c.toUpper] := fun c hc =>
    upperChar_of_isAscii (h c hc)
  rw [upper, List.flatMap_def, List.map_congr_left hChar, ← List.flatMap_def, ← List.map_eq_flatMap]

/-- Texts with the same letters have the same lower-case form. -/
theorem lower_of_sameLetters (h : SameLetters s t) (ht : ∀ c ∈ t.toList, IsAscii c) :
    lower s = lower t := by
  rw [lower_of_isAscii (h.isAscii ht), lower_of_isAscii ht, h]

theorem upper_of_sameLetters (h : SameLetters s t) (ht : ∀ c ∈ t.toList, IsAscii c) :
    upper s = upper t := by
  have hUpper (cs : List Char) : cs.map Char.toUpper = (cs.map Char.toLower).map Char.toUpper := by
    rw [List.map_map]
    exact List.map_congr_left fun c _ => (Char.toUpper_toLower_eq_toUpper c).symm
  rw [upper_of_isAscii (h.isAscii ht), upper_of_isAscii ht, hUpper, h, ← hUpper]

theorem sameLetters_of_lower_eq (hs : ∀ c ∈ s.toList, IsAscii c) (ht : ∀ c ∈ t.toList, IsAscii c)
    (h : lower s = lower t) : SameLetters s t := by
  rw [lower_of_isAscii hs, lower_of_isAscii ht] at h
  exact String.ofList_injective h

/-- A small letter of ASCII other than `k`, in place of which the Kelvin sign would go unnoticed. -/
def isOwnLower (c : Char) : Bool := c.isLower && c != 'k'

theorem isAlpha_of_isOwnLower (h : isOwnLower c = true) : c.isAlpha = true := by
  rw [isOwnLower, Bool.and_eq_true] at h
  rw [Char.isAlpha, h.1, Bool.or_true]

theorem isAscii_of_isOwnLower (h : isOwnLower c = true) : IsAscii c :=
  isAscii_of_isAlphanum (by rw [Char.isAlphanum, isAlpha_of_isOwnLower h, Bool.true_or])

private theorem toLower_of_isOwnLower (h : isOwnLower c = true) : c.toLower = c :=
  (isAscii_of_isOwnLower h).induction
    (P := fun c => isOwnLower c = true → c.toLower = c) (by decide +kernel) h

/-- A text has a word in small letters as its lower-case form if and only if it is the word in some
letter case. -/
theorem lower_eq_iff (ht : t.toList.all isOwnLower = true) : lower s = t ↔ SameLetters s t := by
  have hOwn (c : Char) (hc : c ∈ t.toList) : isOwnLower c = true := List.all_eq_true.1 ht c hc
  have hAscii (c : Char) (hc : c ∈ t.toList) : IsAscii c := isAscii_of_isOwnLower (hOwn c hc)
  have hLower : t.toList.map Char.toLower = t.toList :=
    (List.map_congr_left fun c hc => toLower_of_isOwnLower (hOwn c hc)).trans (List.map_id _)
  constructor
  · intro h
    have hList : lowerList [] s.toList = t.toList := by
      rw [← h, lower, String.toList_ofList]
    have hChars := mem_of_lowerList_isAscii (hList ▸ hAscii)
    have hSame : ∀ c ∈ s.toList, IsAscii c := by
      intro c hc
      refine (hChars c hc).2.resolve_right ?_
      rintro rfl
      have hk : 'k' ∈ t.toList := by
        rw [← hList, lowerList_eq_flatMap fun c hc => (hChars c hc).1]
        exact List.mem_flatMap.2 ⟨kelvin, hc, by decide +kernel⟩
      exact absurd (hOwn 'k' hk) (by decide)
    rw [SameLetters, hLower, ← hList, lowerList_of_isAscii hSame]
  · intro h
    rw [lower_of_sameLetters h hAscii, lower_of_isAscii hAscii, hLower, String.ofList_toList]

/-! ## Underscores -/

/-- A text without its underscores. -/
def withoutUnderscores (s : String) : String := String.ofList (s.toList.filter (· != '_'))

theorem mem_withoutUnderscores : c ∈ (withoutUnderscores s).toList ↔ c ∈ s.toList ∧ c ≠ '_' := by
  simp [withoutUnderscores]

theorem SameLetters.without (h : SameLetters s t) :
    SameLetters (withoutUnderscores s) (withoutUnderscores t) := by
  have hFilter (cs : List Char) :
      (cs.filter (· != '_')).map Char.toLower = (cs.map Char.toLower).filter (· != '_') := by
    rw [List.filter_map]
    refine congrArg (List.map Char.toLower) (List.filter_congr fun c _ => ?_)
    exact congrArg not (decide_eq_decide.2 toLower_eq_underscore_iff.symm)
  simp only [SameLetters, withoutUnderscores, String.toList_ofList, hFilter]
  rw [h]

theorem filter_flatMap {f : Char → List Char} (hSelf : f '_' = ['_'])
    (hOther : ∀ c, '_' ∈ f c → c = '_') (cs : List Char) :
    (cs.flatMap f).filter (· != '_') = (cs.filter (· != '_')).flatMap f := by
  induction cs with
  | nil => rfl
  | cons c cs ih =>
    rw [List.flatMap_cons, List.filter_append, ih]
    by_cases hc : c = '_'
    · simp [hc, hSelf]
    · have hKept : (f c).filter (· != '_') = f c :=
        List.filter_eq_self.2 fun d hd => by
          simpa using fun hEq : d = '_' => hc (hOther c (hEq ▸ hd))
      simp [hc, hKept]

theorem upper_without (s : String) :
    upper (withoutUnderscores s) = withoutUnderscores (upper s) := by
  simp only [upper, withoutUnderscores, String.toList_ofList]
  rw [filter_flatMap (by decide +kernel) fun _ => underscore_mem_upperChar]

/-- The lower-case form has to be in ASCII, since an underscore may decide on the form of a
sigma. -/
theorem lower_without (h : ∀ c ∈ (lower s).toList, IsAscii c) :
    lower (withoutUnderscores s) = withoutUnderscores (lower s) := by
  simp only [lower, withoutUnderscores, String.toList_ofList] at h ⊢
  have hChars := mem_of_lowerList_isAscii h
  have hFewer : ∀ c ∈ s.toList.filter (· != '_'), c ≠ 'Σ' := fun c hc =>
    (hChars c (List.mem_filter.1 hc).1).1
  rw [lowerList_eq_flatMap fun c hc => (hChars c hc).1, lowerList_eq_flatMap hFewer,
    filter_flatMap (by decide +kernel) fun _ => underscore_mem_lowerChar]

end ViewMarkup.Text
