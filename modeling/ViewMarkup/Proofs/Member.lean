import ViewMarkup.Proofs.Decimal.Literal
import ViewMarkup.Proofs.Outcome
import ViewMarkup.Proofs.Text.Words

/-!
# Members of enumerations

A member is read by its value, or by its name. A name may be written in any letter case, or in camel
case. What is read has the letters of the name in any case, so there is no more than one member for
a text where the names differ in more than their underscores.

The camel-case form of a name may fail to be read, since it does not show where a word starts that
has a digit at the start or follows on a single letter.

## Main results

* `readMember_toString` — reading by value.
* `readMember_of_sameLetters` — reading by name.
* `readMember_names` — the forms in which a member is read.
-/

namespace ViewMarkup

open Text Decimal

variable {e : Enumeration} {m n : Member} {raw token : String}

/-! ## Values -/

/-- No value comes twice, and none that has been seen comes again. -/
theorem firstByValue_nodup (seen : List Int) (entries : List (String × Int)) :
    ((firstByValue seen entries).map (·.2)).Nodup ∧
      ∀ v ∈ (firstByValue seen entries).map (·.2), v ∉ seen := by
  fun_induction firstByValue seen entries with
  | case1 => simp
  | case2 seen name value rest hSeen ih => exact ih
  | case3 seen name value rest hNew ih =>
    rw [List.map_cons, List.nodup_cons, List.forall_mem_cons]
    refine ⟨⟨fun hMem => ih.2 value hMem List.mem_cons_self, ih.1⟩, by simpa using hNew, ?_⟩
    exact fun v hv hOld => ih.2 v hv (List.mem_cons_of_mem value hOld)

namespace Enumeration

private theorem eq_of_value_eq (hm : m ∈ e.members) (hn : n ∈ e.members) (h : m.value = n.value) :
    m = n := by
  have hNodup : (e.members.map (·.value)).Nodup := by
    have hFirst := (firstByValue_nodup [] e.entries).1
    simpa [members, Function.comp_def] using hFirst
  exact List.inj_on_of_nodup_map hNodup hm hn h

theorem ofValue?_of_mem (hm : m ∈ e.members) : e.ofValue? m.value = some m := by
  cases hFound : e.ofValue? m.value with
  | none => exact absurd (List.find?_eq_none.1 hFound m hm) (by simp)
  | some n =>
    have hValue : n.value = m.value := by simpa using List.find?_some hFound
    rw [eq_of_value_eq (List.mem_of_find?_eq_some hFound) hm hValue]

end Enumeration

private theorem readInteger?_toString (k : Int) :
    readInteger? (toString k) =
      some (if maxIntegerDigits < (digitsOf k.natAbs).length
        then .error (.tooManyDigits (digitsOf k.natAbs).length) else .ok k) := by
  have hSigned : signedOfDigits (decide (k < 0)) (digitsOf k.natAbs) = k := by
    rw [signedOfDigits, ofDigits_digitsOf]
    by_cases hNegative : k < 0
    · rw [if_pos (decide_eq_true hNegative)]
      omega
    · rw [if_neg (by simpa using hNegative)]
      omega
  simp only [readInteger?, integerDigits?_toString, Option.map_some, hSigned]

/-- A member is read by its value, as long as this has not too many digits. -/
theorem readMember_toString (hm : m ∈ e.members) :
    readMember (toString m.value) e = .ok n ↔
      n = m ∧ m.value.natAbs < 10 ^ maxIntegerDigits := by
  rw [← length_digitsOf_le_iff (by decide), ← Nat.not_lt, readMember]
  simp only [trim_toString, readInteger?_toString]
  by_cases hLong : maxIntegerDigits < (digitsOf m.value.natAbs).length
  · simp [hLong, Except.toOption]
  · simp [hLong, Except.toOption, Enumeration.ofValue?_of_mem hm, eq_comm]

/-! ## Names -/

/-- A member has a name that a text stands for. -/
def Member.CalledBy (m : Member) (token : String) : Prop :=
  m.name = constantCase token ∨ lower m.name = lower token

/-- What is read by name is called by it. -/
theorem calledBy_of_readMember (hNone : readInteger? (trim raw) = none)
    (h : readMember raw e = .ok n) : n ∈ e.members ∧ n.CalledBy (trim raw) := by
  unfold readMember at h
  simp only [hNone] at h
  split at h
  · next m hFound =>
    cases h
    refine ⟨List.mem_of_find?_eq_some hFound, ?_⟩
    simpa [Member.CalledBy] using List.find?_some hFound
  · cases h

/-- Something is read where there is a member of that name. -/
theorem exists_readMember_of_calledBy (hNone : readInteger? (trim raw) = none)
    (hm : m ∈ e.members) (h : m.CalledBy (trim raw)) : ∃ n, readMember raw e = .ok n := by
  unfold readMember
  simp only [hNone]
  split
  · next n _ => exact ⟨n, rfl⟩
  · next hFound =>
    have hNot := List.find?_eq_none.1 hFound m hm
    exact absurd h (by simpa [Member.CalledBy] using hNot)

/-- The texts are equal up to underscores and letter case, in capital or in small letters. -/
def SameName (s t : String) : Prop :=
  upper (withoutUnderscores s) = upper (withoutUnderscores t) ∨
    lower (withoutUnderscores s) = lower (withoutUnderscores t)

private theorem withoutUnderscores_constantCase (token : String) :
    withoutUnderscores (constantCase token) = upper (withoutUnderscores token) := by
  have hSeparated : withoutUnderscores (String.ofList (separateWords token.toList)) =
      withoutUnderscores token := by
    rw [withoutUnderscores, String.toList_ofList, filter_separateWords, withoutUnderscores]
  rw [constantCase, ← upper_without, hSeparated]

/-- A member is called by nothing but its name, up to underscores and letter case. -/
theorem Member.CalledBy.sameName (h : m.CalledBy token) (hName : IsConstantName m.name) :
    SameName token m.name := by
  rcases h with hUpper | hLower
  · refine .inl ?_
    rw [hName.upper_without, hUpper, withoutUnderscores_constantCase]
  · have hAscii : ∀ c ∈ (lower m.name).toList, IsAscii c := by
      rw [lower_of_isAscii hName.isAscii, String.toList_ofList]
      intro c hc
      obtain ⟨d, hd, rfl⟩ := List.mem_map.1 hc
      exact isAscii_toLower_iff.2 (hName.isAscii d hd)
    refine .inr ?_
    rw [lower_without (hLower ▸ hAscii), lower_without hAscii, hLower]

/-- Names in capitals that are equal up to letter case are equal. -/
theorem eq_of_sameLetters {s t : String} (hs : IsConstantName s) (ht : IsConstantName t)
    (h : SameLetters (withoutUnderscores s) (withoutUnderscores t)) :
    withoutUnderscores s = withoutUnderscores t := by
  rw [← hs.upper_without, ← ht.upper_without, upper_of_sameLetters h ht.isAscii_without]

/-- A text with the letters of one name does not stand for another one. -/
theorem SameName.withoutUnderscores_eq {s t : String} (h : SameName token t)
    (hs : IsConstantName s) (ht : IsConstantName t)
    (hLetters : SameLetters (withoutUnderscores token) (withoutUnderscores s)) :
    withoutUnderscores t = withoutUnderscores s := by
  have hAscii := hLetters.isAscii hs.isAscii_without
  rcases h with hUpper | hLower
  · rw [← ht.upper_without, ← hUpper, upper_of_sameLetters hLetters hs.isAscii_without,
      hs.upper_without]
  · have hSame := sameLetters_of_lower_eq hAscii ht.isAscii_without hLower
    exact eq_of_sameLetters ht hs (hSame.symm.trans hLetters)

/-- A text with the letters of a name is not trimmed and is no number. -/
theorem readInteger?_of_sameLetters {s : String} (hs : IsConstantName s)
    (hLetters : SameLetters (withoutUnderscores token) (withoutUnderscores s)) :
    trim token = token ∧ readInteger? token = none := by
  have hBlank : ∀ c ∈ token.toList, isBlank c = false := by
    intro c hc
    by_cases hUnderscore : c = '_'
    · rw [hUnderscore]
      decide
    · obtain ⟨d, hd, hSame⟩ := hLetters.exists_of_mem (mem_withoutUnderscores.2 ⟨hc, hUnderscore⟩)
      obtain ⟨hd, hOther⟩ := mem_withoutUnderscores.1 hd
      rw [← isBlank_toLower, ← hSame, isBlank_toLower]
      exact isBlank_eq_false_of_isAlphanum ((hs.mem hd).resolve_right hOther).isAlphanum
  obtain ⟨c, hc, hUpper⟩ := hs.letter
  have hOther : c ≠ '_' := IsCapital.ne_underscore (.inl hUpper)
  obtain ⟨d, hd, hSame⟩ := hLetters.symm.exists_of_mem (mem_withoutUnderscores.2 ⟨hc, hOther⟩)
  have hAlpha : d.isAlpha = true := by
    rw [← Char.isAlpha_toLower_eq_isAlpha, hSame, Char.isAlpha_toLower_eq_isAlpha, Char.isAlpha,
      hUpper, Bool.true_or]
  refine ⟨?_, ?_⟩
  · rw [trim, trimList_eq_self_of_forall hBlank, String.ofList_toList]
  · rw [readInteger?, integerDigits?_of_isAlpha (mem_withoutUnderscores.1 hd).1 hAlpha,
      Option.map_none]

/-- The members of an enumeration have names in capitals, which differ in more than their
underscores. -/
structure Enumeration.NamedApart (e : Enumeration) : Prop where
  constant : ∀ m ∈ e.members, IsConstantName m.name
  apart : (e.members.map (withoutUnderscores ·.name)).Nodup

/-- A text with the letters of a member's name stands for this member or for none. -/
theorem readMember_of_sameLetters (h : e.NamedApart) (hm : m ∈ e.members)
    (hLetters : SameLetters (withoutUnderscores raw) (withoutUnderscores m.name)) :
    readMember raw e = .ok n ↔ n = m ∧ m.CalledBy raw := by
  obtain ⟨hTrim, hNone⟩ := readInteger?_of_sameLetters (h.constant m hm) hLetters
  have hNone' : readInteger? (trim raw) = none := by rw [hTrim, hNone]
  have hOnly (n : Member) (hRead : readMember raw e = .ok n) : n = m ∧ n.CalledBy raw := by
    obtain ⟨hn, hCalled⟩ := calledBy_of_readMember hNone' hRead
    rw [hTrim] at hCalled
    have hName := h.constant n hn
    have hSame := (hCalled.sameName hName).withoutUnderscores_eq (h.constant m hm) hName hLetters
    exact ⟨List.inj_on_of_nodup_map h.apart hn hm hSame, hCalled⟩
  constructor
  · intro hRead
    obtain ⟨rfl, hCalled⟩ := hOnly n hRead
    exact ⟨rfl, hCalled⟩
  · rintro ⟨rfl, hCalled⟩
    obtain ⟨n', hRead⟩ := exists_readMember_of_calledBy hNone' hm (hTrim.symm ▸ hCalled)
    rwa [(hOnly n' hRead).1] at hRead

/-- The lower-case form of a name in camel case is the one of the name if there is one word only. -/
theorem Member.calledBy_camelCase_iff (h : IsConstantName m.name) :
    m.CalledBy (camelCase m.name) ↔ ReadsInCamelCase m.name := by
  constructor
  · rintro (hUpper | hLower)
    · exact (constantCase_camelCase_iff h).1 hUpper.symm
    · have hSame := sameLetters_of_lower_eq h.isAscii h.isAscii_camelCase hLower
      refine h.readsInCamelCase_of_not_mem fun hMem => ?_
      obtain ⟨c, hc, hLetter⟩ := hSame.exists_of_mem hMem
      obtain rfl : c = '_' := toLower_eq_underscore_iff.1 hLetter
      exact h.underscore_not_mem_camelCase hc
  · intro hReads
    exact .inl ((constantCase_camelCase_iff h).2 hReads).symm

/-- A member is read by its name in any letter case, by its name in camel case if the words of the
name can be found again there, and by its value if this has not too many digits. What is read by
name has that name up to underscores and letter case. -/
theorem readMember_names (h : e.NamedApart) :
    (∀ m ∈ e.members, ∀ raw, SameLetters raw m.name → readMember raw e = .ok m) ∧
    (∀ m ∈ e.members, ∀ n, readMember (camelCase m.name) e = .ok n ↔
      n = m ∧ ReadsInCamelCase m.name) ∧
    (∀ m ∈ e.members, ∀ n, readMember (toString m.value) e = .ok n ↔
      n = m ∧ m.value.natAbs < 10 ^ maxIntegerDigits) ∧
    ∀ raw n, readInteger? (trim raw) = none → readMember raw e = .ok n →
      n ∈ e.members ∧ SameName (trim raw) n.name := by
  refine ⟨fun m hm raw hRaw => ?_, fun m hm n => ?_, fun m hm n => readMember_toString hm,
    fun raw n hNone hRead => ?_⟩
  · refine (readMember_of_sameLetters h hm hRaw.without).2 ⟨rfl, .inr ?_⟩
    exact (lower_of_sameLetters hRaw (h.constant m hm).isAscii).symm
  · rw [readMember_of_sameLetters h hm (h.constant m hm).sameLetters_camelCase,
      Member.calledBy_camelCase_iff (h.constant m hm)]
  · obtain ⟨hn, hCalled⟩ := calledBy_of_readMember hNone hRead
    exact ⟨hn, hCalled.sameName (h.constant n hn)⟩

/-- A name with a single letter between its words is read in any letter case, and not in camel
case. -/
theorem readMember_names_axis :
    Enumeration.NamedApart ⟨"Axis", [("CENTER", 0), ("SCALE_X_Y", 1)]⟩ ∧
    readMember "Scale_x_Y" ⟨"Axis", [("CENTER", 0), ("SCALE_X_Y", 1)]⟩ =
      .ok ⟨"Axis", "SCALE_X_Y", 1⟩ ∧
    ∀ n, readMember "scaleXY" ⟨"Axis", [("CENTER", 0), ("SCALE_X_Y", 1)]⟩ ≠ .ok n := by
  have hApart : Enumeration.NamedApart ⟨"Axis", [("CENTER", 0), ("SCALE_X_Y", 1)]⟩ :=
    ⟨by decide +kernel, by decide +kernel⟩
  obtain ⟨hCase, hCamel, -⟩ := readMember_names hApart
  have hMem : ⟨"Axis", "SCALE_X_Y", 1⟩ ∈
      Enumeration.members ⟨"Axis", [("CENTER", 0), ("SCALE_X_Y", 1)]⟩ := by decide
  refine ⟨hApart, hCase _ hMem _ (by decide), fun n hRead => ?_⟩
  have hReads := ((hCamel _ hMem n).1 hRead).2
  exact absurd (hReads.inner ['X'] (by decide)) (by decide)

/-- The camel-case form of a name from which no member is read. Beyond the letters of ASCII a name
in another letter case may even be read as another name: the sharp s in capitals is the second
member here, and in small letters it stands for the first one. -/
theorem readMember_scaleXY :
    camelCase "SCALE_X_Y" = "scaleXY" ∧
    readMember "scaleXY" ⟨"Axis", [("CENTER", 0), ("SCALE_X_Y", 1)]⟩ =
      .error (.unknownMember "scaleXY" "Axis" ["center", "scale_x_y"]) ∧
    lower "\u1e9e" = "\u00df" ∧
    readMember "\u00df" ⟨"Letter", [("SS", 0), ("\u1e9e", 1)]⟩ = .ok ⟨"Letter", "SS", 0⟩ := by
  refine ⟨by decide, rfl, by decide +kernel, rfl⟩

end ViewMarkup
