import ViewMarkup.Proofs.Color.Aliases
import ViewMarkup.Proofs.Color.Literal
import ViewMarkup.Settings

/-!
# Checked tables of colors

A table of colors is checked before a decoder gets it: under every name stands a literal in digits
or another name. The check and the decoder do not agree on what a name is, however. One line feed
may close a name for the check, and the decoder trims it away before it looks the name up. So a name
that is closed by a line feed cannot be found, and its text is taken for a color literal.

## Main results

* `checkColors_eq_ok_iff` — which tables pass the check.
* `Decoder.readColor_of_checkColors` — where the names of a checked table lead, and when all of them
  lead to a color or go round in a circle.
-/

namespace ViewMarkup

open Text

/-! ## The check -/

/-- A table whose names can be names, and which has a literal in digits or another name under each
of them. -/
structure CheckedColors (colors : Table String String) : Prop where
  name : ∀ entry ∈ colors, isSettingName entry.1 = true
  target : ∀ entry ∈ colors, Color.isHex entry.2.toList = true ∨ entry.2 ∈ colors.keys

private theorem checkColor_eq_ok_iff {names : List String} {key : String} {v : Value}
    {entry : String × String} :
    checkColor names key v = .ok entry ↔
      isSettingName entry.1 = true ∧ (Color.isHex entry.2.toList = true ∨ entry.2 ∈ names) ∧
        key = entry.1 ∧ v = .text entry.2 := by
  obtain ⟨name, s⟩ := entry
  unfold checkColor
  constructor
  · intro h
    split at h
    · cases h
    · next hName =>
      split at h
      · split at h
        · next hTarget =>
          cases h
          refine ⟨by simpa using hName, ?_, rfl, rfl⟩
          simpa using hTarget
        · cases h
      · cases h
  · rintro ⟨hName, hTarget, rfl, rfl⟩
    have hEither : (Color.isHex s.toList || names.contains s) = true := by simpa using hTarget
    rw [if_neg (by simpa using hName)]
    exact if_pos hEither

/-- The tables that pass the check, and what they are afterwards. -/
theorem checkColors_eq_ok_iff {given : Table String Value} {colors : Table String String} :
    checkColors given = .ok colors ↔
      given = colors.map (fun entry => (entry.1, .text entry.2)) ∧ CheckedColors colors := by
  have hKeys {entries : Table String String} :
      Table.keys (entries.map fun entry => (entry.1, Value.text entry.2)) = entries.keys := by
    simp [Table.keys, Function.comp_def]
  rw [checkColors, mapM_eq_ok_iff]
  simp only [checkColor_eq_ok_iff]
  constructor
  · intro h
    have hGiven : given = colors.map fun entry => (entry.1, .text entry.2) := by
      rw [← List.forall₂_eq_eq_eq, List.forall₂_map_right_iff]
      exact h.imp fun e entry hEntry => Prod.ext hEntry.2.2.1 hEntry.2.2.2
    subst hGiven
    rw [List.forall₂_map_left_iff, List.forall₂_same, hKeys] at h
    exact ⟨rfl, fun entry hEntry => (h entry hEntry).1, fun entry hEntry => (h entry hEntry).2.1⟩
  · rintro ⟨rfl, hChecked⟩
    rw [List.forall₂_map_left_iff, List.forall₂_same]
    intro entry hEntry
    exact ⟨hChecked.name entry hEntry, hKeys ▸ hChecked.target entry hEntry, rfl, rfl⟩

/-! ## Names and literals without blanks -/

private theorem isBlank_eq_false_of_isSettingName {s : String} (h : isSettingName s = true) :
    ∀ c ∈ withoutClosingFeed s.toList, isBlank c = false := by
  unfold isSettingName at h
  split at h
  · cases h
  · next c cs hText =>
    have hChar {c : Char} (hc : c.isAlphanum = true ∨ c = '_' ∨ c = '.' ∨ c = '-') :
        isBlank c = false := by
      rcases hc with hc | rfl | rfl | rfl
      · exact isBlank_eq_false_of_isAlphanum hc
      · decide
      · decide
      · decide
    simp only [Bool.and_eq_true, Bool.or_eq_true, List.all_eq_true, beq_iff_eq] at h
    rw [hText]
    refine List.forall_mem_cons.2 ⟨hChar ?_, fun d hd => hChar ?_⟩
    · exact h.1.imp (fun hAlpha => by simp [Char.isAlphanum, hAlpha]) .inl
    · simpa only [or_assoc] using h.2 d hd

theorem trim_of_isSettingName {name : String} (h : isSettingName name = true) :
    trim name = String.ofList (withoutClosingFeed name.toList) :=
  congrArg String.ofList (trimList_eq_withoutClosingFeed (isBlank_eq_false_of_isSettingName h))

/-- Trimming takes at most the closing line feed from a name. -/
theorem eq_trim_or_eq_append_feed {name : String} (h : isSettingName name = true) :
    name = trim name ∨ name = trim name ++ "\n" := by
  rw [trim_of_isSettingName h]
  refine (eq_or_eq_concat_feed name.toList).imp (fun h => ?_) fun h => ?_
  · rw [← h, String.ofList_toList]
  · rw [← String.toList_inj, String.toList_append, String.toList_ofList]
    exact h

private theorem trim_append_feed {text : String} (h : isSettingName (text ++ "\n") = true) :
    trim (text ++ "\n") = text := by
  have hList : (text ++ "\n").toList = text.toList ++ ['\n'] := String.toList_append
  rw [trim_of_isSettingName h, hList, withoutClosingFeed_concat, String.ofList_toList]

namespace Color

/-- A literal in digits that has been trimmed has a color. -/
theorem exists_read_trim_of_isHex {s : String} (h : isHex s.toList = true) :
    ∃ c, read (trim s) = .ok c := by
  obtain ⟨digits, channels, hPairs, hCount, hText⟩ := isHex_iff.1 h
  have hBlank : ∀ c ∈ '#' :: digits, isBlank c = false := by
    refine List.forall_mem_cons.2 ⟨by decide, fun c hc => ?_⟩
    exact isBlank_eq_false_of_isAlphanum (isAlphanum_of_hexValue? (hPairs.all_isSome c hc))
  have hTrim : trimList s.toList = '#' :: digits := by
    rcases hText with hText | hText
    · rw [hText, trimList_eq_self_of_forall hBlank]
    · rw [hText, trimList_concat (by decide), trimList_eq_self_of_forall hBlank]
  have hHex : isHex (trim s).toList = true := by
    rw [trim, String.toList_ofList, hTrim]
    exact isHex_iff.2 ⟨digits, channels, hPairs, hCount, .inl rfl⟩
  obtain ⟨c, hRead, -⟩ := exists_ofHex?_of_isHex hHex
  exact ⟨c, (read_of_isHex hHex).2 (ofHex?_eq_some_iff.1 hRead)⟩

end Color

/-! ## Where names lead -/

namespace Decoder

variable {d : Decoder} {name token : String} {n : Nat}

/-- Every token on the way is what trimming leaves of a literal in digits or of a name. -/
theorem exists_of_tokenAt (h : CheckedColors d.colors) (hName : name ∈ d.colors.keys)
    (hToken : d.tokenAt name n = some token) :
    ∃ text, token = trim text ∧ (Color.isHex text.toList = true ∨ text ∈ d.colors.keys) := by
  cases n with
  | zero => exact ⟨name, (Option.some.inj hToken).symm, .inr hName⟩
  | succ n =>
    obtain ⟨previous, -, hNext⟩ := Option.bind_eq_some_iff.1 hToken
    obtain ⟨text, hText, rfl⟩ := Option.map_eq_some_iff.1 hNext
    exact ⟨text, rfl, h.target _ (Table.mem_of_get? hText)⟩

theorem isSettingName_of_mem_keys (h : CheckedColors d.colors) (hName : name ∈ d.colors.keys) :
    isSettingName name = true := by
  obtain ⟨entry, hEntry, rfl⟩ := List.mem_map.1 hName
  exact h.name entry hEntry

/-- A name leads to a color, goes round in a circle, or leads to what is a name only together with
the line feed that closes it. -/
theorem readColor_of_checked (h : CheckedColors d.colors) (hName : name ∈ d.colors.keys) :
    (∃ c, d.readColor name = .ok c) ∨ (∃ chain, d.readColor name = .error (.aliasCycle chain)) ∨
      ∃ text, d.readColor name = Color.read text ∧ text ∉ d.colors.keys ∧
        text ++ "\n" ∈ d.colors.keys := by
  rcases d.readColor_ends name with ⟨seen, token, -, -, -, hRun⟩ | ⟨seen, token, hSeen, hNone, hRun⟩
  · exact .inr (.inl ⟨_, hRun⟩)
  · obtain ⟨text, rfl, hHex | hText⟩ := exists_of_tokenAt h hName hSeen.tokenAt_last
    · obtain ⟨c, hRead⟩ := Color.exists_read_trim_of_isHex hHex
      exact .inl ⟨c, hRun.trans hRead⟩
    · have hNoName : trim text ∉ d.colors.keys := Table.get?_eq_none_iff.1 hNone
      refine .inr (.inr ⟨trim text, hRun, hNoName, ?_⟩)
      rcases eq_trim_or_eq_append_feed (isSettingName_of_mem_keys h hText) with hSame | hFeed
      · exact absurd (hSame ▸ hText) hNoName
      · rwa [← hFeed]

/-- The name that is closed by a line feed is read as what stands in front of the line feed. -/
theorem readColor_append_feed (text : String) (h : CheckedColors d.colors)
    (hName : text ++ "\n" ∈ d.colors.keys) (hNone : text ∉ d.colors.keys) :
    d.readColor (text ++ "\n") = Color.read text := by
  have hTrim := trim_append_feed (isSettingName_of_mem_keys h hName)
  exact (d.readColor_tokenAt _).2.2.2.1 0 text (congrArg some hTrim)
    (Table.get?_eq_none_iff.2 hNone)

/-- Every name of a checked table leads to a color or goes round in a circle, unless it leads to a
name that is closed by a line feed: what stands in front of that is then no name. All names are fine
if and only if such names are also there without the line feed or are color literals without it. -/
theorem readColor_of_checkColors {given : Table String Value}
    (h : checkColors given = .ok d.colors) :
    (∀ name ∈ d.colors.keys, (∃ c, d.readColor name = .ok c) ∨
      (∃ chain, d.readColor name = .error (.aliasCycle chain)) ∨
      ∃ text, d.readColor name = .error (.notColor text) ∧ text ∉ d.colors.keys ∧
        text ++ "\n" ∈ d.colors.keys) ∧
    ((∀ name ∈ d.colors.keys, ∀ text, d.readColor name ≠ .error (.notColor text)) ↔
      ∀ text, text ++ "\n" ∈ d.colors.keys →
        text ∈ d.colors.keys ∨ ∃ c, Color.read text = .ok c) := by
  have hChecked : CheckedColors d.colors := (checkColors_eq_ok_iff.1 h).2
  refine ⟨fun name hName => ?_, fun hAll text hText => ?_, fun hAll name hName text hRun => ?_⟩
  · rcases readColor_of_checked hChecked hName with hOk | hCycle | ⟨text, hRun, hNone, hFeed⟩
    · exact .inl hOk
    · exact .inr (.inl hCycle)
    · cases hRead : Color.read text with
      | ok c => exact .inl ⟨c, hRun.trans hRead⟩
      | error e =>
        obtain rfl := Color.read_eq_error hRead
        exact .inr (.inr ⟨text, hRun.trans hRead, hNone, hFeed⟩)
  · by_cases hNone : text ∈ d.colors.keys
    · exact .inl hNone
    · have hRun := readColor_append_feed text hChecked hText hNone
      cases hRead : Color.read text with
      | ok c => exact .inr ⟨c, rfl⟩
      | error e =>
        obtain rfl := Color.read_eq_error hRead
        exact absurd (hRun.trans hRead) (hAll _ hText text)
  · rcases readColor_of_checked hChecked hName with
      ⟨c, hOk⟩ | ⟨chain, hCycle⟩ | ⟨text', hRead, hNone, hFeed⟩
    · cases hOk.symm.trans hRun
    · cases hCycle.symm.trans hRun
    · obtain ⟨c, hColor⟩ := (hAll text' hFeed).resolve_left hNone
      cases hColor.symm.trans (hRead.symm.trans hRun)

/-- A table that passes the check, where two names lead to no color. -/
theorem readColor_of_checkColors_accent :
    checkColors [("link", .text "accent\n"), ("accent\n", .text "#3366FF")] =
      .ok [("link", "accent\n"), ("accent\n", "#3366FF")] ∧
    ¬ ∀ name ∈ ["link", "accent\n"], ∀ text,
      ({ colors := [("link", "accent\n"), ("accent\n", "#3366FF")] } : Decoder).readColor name ≠
        .error (.notColor text) := by
  have hChecked : checkColors [("link", .text "accent\n"), ("accent\n", .text "#3366FF")] =
      .ok [("link", "accent\n"), ("accent\n", "#3366FF")] := rfl
  refine ⟨hChecked, fun hAll => ?_⟩
  have hAccent := (readColor_of_checkColors
    (d := { colors := [("link", "accent\n"), ("accent\n", "#3366FF")] }) hChecked).2.1 hAll "accent"
  rcases hAccent (by decide) with hName | ⟨c, hRead⟩
  · exact absurd hName (by decide)
  · have hNot : Color.read "accent" = .error (.notColor "accent") := rfl
    cases hNot.symm.trans hRead

/-- The name of a checked table, which is not found. -/
theorem readColor_accent :
    checkColors [("accent\n", .text "#3366FF")] = .ok [("accent\n", "#3366FF")] ∧
    ({ colors := [("accent\n", "#3366FF")] } : Decoder).readColor "accent\n" =
      .error (.notColor "accent") := by
  have hChecked : checkColors [("accent\n", .text "#3366FF")] = .ok [("accent\n", "#3366FF")] := rfl
  refine ⟨hChecked, ?_⟩
  calc ({ colors := [("accent\n", "#3366FF")] } : Decoder).readColor "accent\n"
    _ = Color.read "accent" :=
      readColor_append_feed "accent" (checkColors_eq_ok_iff.1 hChecked).2 (by decide) (by decide)
    _ = .error (.notColor "accent") := rfl

end Decoder
end ViewMarkup
