import ViewMarkup.Color.Literal
import ViewMarkup.Proofs.Text.Trim

/-!
# What color literals denote

A color literal is `#` with three or four pairs of hexadecimal digits, one of the two words for the
color that lets everything through, or a name, and letter case does not matter. `Color.Denotes` says
which color it is then.

One line feed behind the digits is passed over. It is passed over before the form is told from the
length, however, so a literal of four pairs that is closed by a line feed is taken for one of three
pairs and something behind them: its first pair becomes the red of an opaque color.

## Main results

* `Color.ofHex?_eq_some_iff`, `Color.isHex_iff` — what is read by its digits.
* `Color.read_eq_ok_iff` — what is read as a color.
* `Color.read_denotes` — reading agrees with what literals denote, apart from those that are closed
  by a line feed.
-/

namespace ViewMarkup

open Text

variable {cs digits : List Char}

theorem isAlphanum_of_hexValue? {c : Char} (h : (hexValue? c).isSome) : c.isAlphanum = true := by
  have hCase : ('0' ≤ c ∧ c ≤ '9') ∨ ('a' ≤ c ∧ c ≤ 'f') ∨ ('A' ≤ c ∧ c ≤ 'F') := by
    refine Decidable.byContradiction fun hNone => ?_
    simp only [not_or] at hNone
    simp [hexValue?, hNone] at h
  simp only [Char.le_def, UInt32.le_iff_toNat_le] at hCase
  simp only [Char.isAlphanum, Char.isAlpha, Char.isUpper, Char.isLower, Char.isDigit,
    Bool.or_eq_true, Bool.and_eq_true, decide_eq_true_eq, ge_iff_le, UInt32.le_iff_toNat_le]
  have hBounds : 'f'.val.toNat = 102 ∧ 'z'.val.toNat = 122 ∧ 'F'.val.toNat = 70 ∧
      'Z'.val.toNat = 90 := ⟨rfl, rfl, rfl, rfl⟩
  omega

namespace Color

/-! ## Pairs of digits -/

/-- Hexadecimal digits, two for each channel. -/
inductive Pairs : List Char → List UInt8 → Prop
  | nil : Pairs [] []
  | cons {a b : Char} {m n : Nat} {cs : List Char} {channels : List UInt8}
      (hHigh : hexValue? a = some m) (hLow : hexValue? b = some n) (hRest : Pairs cs channels) :
      Pairs (a :: b :: cs) (.ofNat (16 * m + n) :: channels)

namespace Pairs

variable {channels : List UInt8}

theorem length_eq (h : Pairs digits channels) : digits.length = 2 * channels.length := by
  induction h with
  | nil => rfl
  | cons _ _ _ ih =>
    rw [List.length_cons, List.length_cons, List.length_cons, ih]
    omega

theorem all_isSome (h : Pairs digits channels) : ∀ c ∈ digits, (hexValue? c).isSome := by
  induction h with
  | nil => exact fun _ hc => nomatch hc
  | cons hHigh hLow _ ih =>
    exact List.forall_mem_cons.2 ⟨by simp [hHigh], List.forall_mem_cons.2 ⟨by simp [hLow], ih⟩⟩

theorem feed_not_mem (h : Pairs digits channels) : '\n' ∉ digits := fun hMem =>
  absurd (h.all_isSome _ hMem) (by decide)

theorem pairs_eq (h : Pairs digits channels) : pairs (digits.filterMap hexValue?) = channels := by
  induction h with
  | nil => rfl
  | cons hHigh hLow _ ih => simp [hHigh, hLow, pairs, ih]

/-- Digits in even number are pairs. -/
theorem exists_of_length {n : Nat} (hDigits : ∀ c ∈ digits, (hexValue? c).isSome)
    (hLength : digits.length = 2 * n) :
    ∃ channels, Pairs digits channels ∧ channels.length = n := by
  induction n generalizing digits with
  | zero => exact ⟨[], List.length_eq_zero_iff.1 hLength ▸ .nil, rfl⟩
  | succ n ih =>
    match digits with
    | [] => simp at hLength
    | [_] => simp at hLength; omega
    | a :: b :: rest =>
      obtain ⟨hHigh, hTail⟩ := List.forall_mem_cons.1 hDigits
      obtain ⟨hLow, hRest⟩ := List.forall_mem_cons.1 hTail
      obtain ⟨channels, hPairs, hCount⟩ := ih hRest (by simp at hLength; omega)
      obtain ⟨m, hm⟩ := Option.isSome_iff_exists.1 hHigh
      obtain ⟨k, hk⟩ := Option.isSome_iff_exists.1 hLow
      exact ⟨_, .cons hm hk hPairs, by rw [List.length_cons, hCount]⟩

end Pairs

/-! ## Literals in digits -/

/-- `#`, three or four pairs of digits, and a line feed or nothing. -/
theorem isHex_iff : isHex cs = true ↔ ∃ digits channels, Pairs digits channels ∧
    (channels.length = 3 ∨ channels.length = 4) ∧
      (cs = '#' :: digits ∨ cs = '#' :: digits ++ ['\n']) := by
  constructor
  · intro h
    unfold isHex at h
    split at h
    · next rest =>
      simp only [Bool.and_eq_true, Bool.or_eq_true, beq_iff_eq, List.all_eq_true] at h
      obtain ⟨hLength, hDigits⟩ := h
      have hPairs : ∃ n, (n = 3 ∨ n = 4) ∧ (withoutClosingFeed rest).length = 2 * n := by
        rcases hLength with h | h
        · exact ⟨3, .inl rfl, h⟩
        · exact ⟨4, .inr rfl, h⟩
      obtain ⟨n, hn, hLength⟩ := hPairs
      obtain ⟨channels, hPairs, rfl⟩ := Pairs.exists_of_length hDigits hLength
      refine ⟨_, channels, hPairs, hn, (eq_or_eq_concat_feed rest).imp ?_ ?_⟩
      · exact congrArg ('#' :: ·)
      · exact congrArg ('#' :: ·)
    · cases h
  · rintro ⟨digits, channels, hPairs, hCount, hText⟩
    have hWithout : ∃ rest, cs = '#' :: rest ∧ withoutClosingFeed rest = digits := by
      rcases hText with rfl | rfl
      · exact ⟨digits, rfl, withoutClosingFeed_of_not_mem hPairs.feed_not_mem⟩
      · exact ⟨_, rfl, withoutClosingFeed_concat digits⟩
    obtain ⟨rest, rfl, hRest⟩ := hWithout
    have hLength := hPairs.length_eq
    simp only [isHex, hRest, Bool.and_eq_true, Bool.or_eq_true, beq_iff_eq, List.all_eq_true]
    exact ⟨by omega, hPairs.all_isSome⟩

section Channels

variable {red green blue last : UInt8} {rest : List UInt8}

theorem ofHex?_of_three (h : Pairs digits [red, green, blue]) :
    ofHex? ('#' :: digits) = some { red, green, blue } := by
  have hHex : isHex ('#' :: digits) = true := isHex_iff.2 ⟨_, _, h, .inl rfl, .inl rfl⟩
  simp [ofHex?, hHex, h.pairs_eq]

theorem ofHex?_of_four (h : Pairs digits [last, red, green, blue]) :
    ofHex? ('#' :: digits) = some { red, green, blue, alpha := last } := by
  have hHex : isHex ('#' :: digits) = true := isHex_iff.2 ⟨_, _, h, .inr rfl, .inl rfl⟩
  have hLength : digits.length = 8 := h.length_eq
  simp [ofHex?, hHex, h.pairs_eq, hLength]

/-- With a line feed behind it, no literal has the length of four pairs. -/
theorem ofHex?_of_feed (h : Pairs digits (red :: green :: blue :: rest)) (hRest : rest.length ≤ 1) :
    ofHex? ('#' :: digits ++ ['\n']) = some { red, green, blue } := by
  have hCount : (red :: green :: blue :: rest).length = 3 ∨
      (red :: green :: blue :: rest).length = 4 := by
    simp only [List.length_cons]
    omega
  have hHex : isHex ('#' :: digits ++ ['\n']) = true := isHex_iff.2 ⟨_, _, h, hCount, .inr rfl⟩
  have hLength : digits.length + 1 ≠ 8 := by
    have := h.length_eq
    omega
  have hFeed : hexValue? '\n' = none := by decide
  simp only [List.cons_append] at hHex
  simp [ofHex?, hHex, hFeed, h.pairs_eq, hLength]

end Channels

/-! ## Denotation -/

/-- The colors of literals in digits: alpha comes first, or the color is opaque. -/
inductive DenotesDigits : List Char → Color → Prop
  | rgb {digits : List Char} {red green blue : UInt8} (h : Pairs digits [red, green, blue]) :
      DenotesDigits ('#' :: digits) { red, green, blue, alpha := 255 }
  | argb {digits : List Char} {alpha red green blue : UInt8}
      (h : Pairs digits [alpha, red, green, blue]) :
      DenotesDigits ('#' :: digits) { red, green, blue, alpha }

/-- What a color literal denotes. -/
inductive Denotes (raw : String) (c : Color) : Prop
  | digits (h : DenotesDigits raw.toList c)
  | clear (h : SameLetters raw "clear" ∨ SameLetters raw "transparent")
      (hc : c = { red := 0, green := 0, blue := 0, alpha := 0 })
  | named {name : String} (h : SameLetters raw name) (hc : named? name = some c)

/-- A literal in digits that is closed by a line feed, and the opaque color of its first three
pairs. -/
def ClosedByFeed (cs : List Char) (c : Color) : Prop :=
  ∃ digits red green blue rest, Pairs digits (red :: green :: blue :: rest) ∧ rest.length ≤ 1 ∧
    cs = '#' :: digits ++ ['\n'] ∧ c = { red, green, blue, alpha := 255 }

variable {c : Color} {raw : String}

/-- Whatever is written in digits has a color. -/
theorem exists_ofHex?_of_isHex (h : isHex cs = true) :
    ∃ c, ofHex? cs = some c ∧ (DenotesDigits cs c ∨ ClosedByFeed cs c) := by
  obtain ⟨digits, channels, hPairs, hCount, hText⟩ := isHex_iff.1 h
  match channels, hCount with
  | [red, green, blue], _ =>
    rcases hText with rfl | rfl
    · exact ⟨_, ofHex?_of_three hPairs, .inl (.rgb hPairs)⟩
    · exact ⟨_, ofHex?_of_feed hPairs (by simp), .inr ⟨_, _, _, _, _, hPairs, by simp, rfl, rfl⟩⟩
  | [first, second, third, fourth], _ =>
    rcases hText with rfl | rfl
    · exact ⟨_, ofHex?_of_four hPairs, .inl (.argb hPairs)⟩
    · exact ⟨_, ofHex?_of_feed hPairs (by simp), .inr ⟨_, _, _, _, _, hPairs, by simp, rfl, rfl⟩⟩

theorem ofHex?_eq_some_iff : ofHex? cs = some c ↔ DenotesDigits cs c ∨ ClosedByFeed cs c := by
  constructor
  · intro h
    have hHex : isHex cs = true := by
      cases hHex : isHex cs with
      | true => rfl
      | false => simp [ofHex?, hHex] at h
    obtain ⟨c', hRead, hDenotes⟩ := exists_ofHex?_of_isHex hHex
    obtain rfl : c' = c := Option.some.inj (hRead.symm.trans h)
    exact hDenotes
  · rintro (hDigits | ⟨digits, red, green, blue, rest, hPairs, hRest, rfl, rfl⟩)
    · cases hDigits with
      | rgb hPairs => exact ofHex?_of_three hPairs
      | argb hPairs => exact ofHex?_of_four hPairs
    · exact ofHex?_of_feed hPairs hRest

/-! ## Names -/

private theorem isAscii_of_isName (h : isName cs = true) : ∀ c ∈ cs, IsAscii c := by
  cases cs with
  | nil => cases h
  | cons c cs =>
    simp only [isName, Bool.and_eq_true, List.all_eq_true] at h
    refine List.forall_mem_cons.2 ⟨isAscii_of_isAlphanum ?_, fun d hd => ?_⟩
    · simp [Char.isAlphanum, h.1]
    · exact isAscii_of_isAlphanum (h.2 d hd)

/-- Letter case does not decide on what can be a name. -/
theorem isName_map_toLower (cs : List Char) : isName (cs.map Char.toLower) = isName cs := by
  cases cs with
  | nil => rfl
  | cons c cs =>
    have hRest : (Char.isAlphanum ∘ Char.toLower) = Char.isAlphanum := funext isAlphanum_toLower
    simp only [isName, List.map_cons, Char.isAlpha_toLower_eq_isAlpha, List.all_map, hRest]

theorem isName_of_sameLetters {word : String} (h : SameLetters raw word)
    (hWord : isName word.toList = true) : isName raw.toList = true := by
  rwa [← isName_map_toLower, h, isName_map_toLower]

theorem isHex_of_isName (h : isName cs = true) : isHex cs = false := by
  cases cs with
  | nil => rfl
  | cons c cs =>
    have hc : c ≠ '#' := by
      rintro rfl
      have hAlpha : '#'.isAlpha = false := by decide
      simp [isName, hAlpha] at h
    unfold isHex
    split
    · next hEq => exact absurd (List.cons.inj hEq).1 hc
    · rfl

/-- A word of small letters alone. -/
def isSmallWord (cs : List Char) : Bool := !cs.isEmpty && cs.all Char.isLower

private theorem isName_of_isSmallWord (h : isSmallWord cs = true) :
    isName cs = true ∧ cs.map Char.toLower = cs := by
  simp only [isSmallWord, Bool.and_eq_true, List.all_eq_true] at h
  obtain ⟨hCons, hLower⟩ := h
  have hAlpha : ∀ c ∈ cs, c.isAlpha = true := fun c hc => by simp [Char.isAlpha, hLower c hc]
  have hSame : ∀ c ∈ cs, c.toLower = c := fun c hc =>
    Char.toLower_eq_of_not_isUpper (Char.not_isUpper_of_isLower (hLower c hc))
  refine ⟨?_, (List.map_congr_left hSame).trans (List.map_id' cs)⟩
  cases cs with
  | nil => cases hCons
  | cons c cs =>
    obtain ⟨hHead, hTail⟩ := List.forall_mem_cons.1 hAlpha
    simp only [isName, hHead, Bool.true_and, List.all_eq_true]
    exact fun d hd => by simp [Char.isAlphanum, hTail d hd]

/-- A table of words in small letters with another one in front. The word is given by its
characters, since taking a text apart into characters is slow to evaluate. -/
theorem all_isSmallWord_cons {n : Nat} {rest : List (String × Nat)} (h : isSmallWord cs = true)
    (hRest : rest.all (fun entry => isSmallWord entry.1.toList) = true) :
    ((String.ofList cs, n) :: rest).all (fun entry => isSmallWord entry.1.toList) = true := by
  rw [List.all_cons, String.toList_ofList, h, hRest]
  rfl

/-- All color names are written in small letters. -/
theorem colorNames_all : colorNames.all (fun entry => isSmallWord entry.1.toList) = true := by
  unfold colorNames
  repeat apply all_isSmallWord_cons (by rfl)
  rfl

/-- The words for the color that lets everything through are no color names. -/
theorem named?_words : named? "clear" = none ∧ named? "transparent" = none := by
  decide +kernel

theorem isName_of_named? {name : String} (h : named? name = some c) :
    isName name.toList = true ∧ name.toList.map Char.toLower = name.toList := by
  obtain ⟨rgb, hLookup, -⟩ := Option.map_eq_some_iff.1 h
  have hSmall := List.all_eq_true.1 colorNames_all (name, rgb) (mem_of_lookup hLookup)
  exact isName_of_isSmallWord hSmall

theorem lower_eq_clear_iff : lower raw = "clear" ↔ SameLetters raw "clear" :=
  lower_eq_iff (by decide)

theorem lower_eq_transparent_iff : lower raw = "transparent" ↔ SameLetters raw "transparent" :=
  lower_eq_iff (by decide)

/-! ## Reading -/

/-- What is no literal in digits is a word or a name. -/
theorem read_of_isHex_eq_false (h : isHex raw.toList = false) :
    read raw =
      if SameLetters raw "clear" ∨ SameLetters raw "transparent" then .ok clear
      else ((if isName raw.toList then named? (lower raw) else none).elim
        (.error (.notColor raw)) .ok) := by
  have hNone : ofHex? raw.toList = none := by simp [ofHex?, h]
  simp only [read, hNone, lower_eq_clear_iff, lower_eq_transparent_iff]
  split
  · rfl
  · split <;> simp [*]

/-- What denotes a color is written in digits or is a word, and not both. -/
theorem Denotes.digits_or_isName (h : Denotes raw c) :
    DenotesDigits raw.toList c ∨ isName raw.toList = true := by
  cases h with
  | digits h => exact .inl h
  | clear h hc =>
    exact .inr (h.elim (isName_of_sameLetters · rfl) (isName_of_sameLetters · rfl))
  | named h hc => exact .inr (isName_of_sameLetters h (isName_of_named? hc).1)

theorem read_of_isHex (h : isHex raw.toList = true) :
    read raw = .ok c ↔ DenotesDigits raw.toList c ∨ ClosedByFeed raw.toList c := by
  obtain ⟨c', hRead, -⟩ := exists_ofHex?_of_isHex h
  rw [← ofHex?_eq_some_iff, hRead]
  simp [read, hRead]

/-- What is read as a color: what denotes one, and what is closed by a line feed. -/
theorem read_eq_ok_iff : read raw = .ok c ↔ Denotes raw c ∨ ClosedByFeed raw.toList c := by
  cases hHex : isHex raw.toList with
  | true =>
    rw [read_of_isHex hHex]
    refine or_congr_left ⟨.digits, fun h => h.digits_or_isName.resolve_right fun hName => ?_⟩
    rw [isHex_of_isName hName] at hHex
    cases hHex
  | false =>
    have hNone : ¬ (DenotesDigits raw.toList c ∨ ClosedByFeed raw.toList c) := by
      rw [← ofHex?_eq_some_iff]
      simp [ofHex?, hHex]
    rw [read_of_isHex_eq_false hHex]
    constructor
    · intro h
      refine .inl ?_
      split at h
      · next hWord => exact .clear hWord (Except.ok.inj h).symm
      · split at h
        · next hName =>
          cases hFound : named? (lower raw) with
          | none => simp [hFound] at h
          | some c' =>
            obtain rfl : c' = c := by simpa [hFound] using h
            have hLower : lower raw = String.ofList (raw.toList.map Char.toLower) :=
              lower_of_isAscii (isAscii_of_isName hName)
            have hSame : SameLetters raw (lower raw) := by
              rw [SameLetters, (isName_of_named? hFound).2, hLower, String.toList_ofList]
            exact .named hSame hFound
        · cases h
    · rintro (h | h)
      · cases h with
        | digits h => exact absurd (.inl h) hNone
        | clear hWord hc => rw [if_pos hWord, hc]; rfl
        | named h hc =>
          next name =>
          obtain ⟨hName, hSmall⟩ := isName_of_named? hc
          have hLower : lower raw = name := by
            rw [lower_of_sameLetters h (isAscii_of_isName hName),
              lower_of_isAscii (isAscii_of_isName hName), hSmall, String.ofList_toList]
          have hWord : ¬ (SameLetters raw "clear" ∨ SameLetters raw "transparent") := by
            rw [← lower_eq_clear_iff, ← lower_eq_transparent_iff, hLower]
            rintro (rfl | rfl)
            · rw [named?_words.1] at hc
              cases hc
            · rw [named?_words.2] at hc
              cases hc
          rw [if_neg hWord, if_pos (isName_of_sameLetters h hName), hLower, hc]
          rfl
      · exact absurd (.inr h) hNone

/-- Whatever is not read is refused with its text. -/
theorem read_eq_error {e : DecodeFault} (h : read raw = .error e) : e = .notColor raw := by
  unfold read at h
  split at h
  · cases h
  · dsimp only at h
    split at h
    · cases h
    · split at h
      · cases h
      · exact (Except.error.inj h).symm

/-- A literal that is closed by a line feed denotes nothing. -/
theorem ClosedByFeed.not_denotes {c' : Color} (h : ClosedByFeed raw.toList c) :
    ¬ Denotes raw c' := by
  intro hDenotes
  rcases hDenotes.digits_or_isName with hDigits | hName
  · obtain ⟨digits, red, green, blue, rest, -, -, hText, -⟩ := h
    have hFeed {digits' : List Char} {channels : List UInt8} (hPairs : Pairs digits' channels)
        (hSame : '#' :: digits' = raw.toList) : False := by
      obtain rfl : digits' = digits ++ ['\n'] := (List.cons.inj (hSame.trans hText)).2
      exact hPairs.feed_not_mem (by simp)
    generalize hRaw : raw.toList = cs at hDigits
    cases hDigits with
    | rgb hPairs => exact hFeed hPairs hRaw.symm
    | argb hPairs => exact hFeed hPairs hRaw.symm
  · have hRead := ofHex?_eq_some_iff.2 (.inr h)
    simp [ofHex?, isHex_of_isName hName] at hRead

/-- Reading agrees with what literals denote, but for those that are closed by a line feed: these
are read as the opaque color of their first three pairs. All else is refused. -/
theorem read_denotes (raw : String) :
    (∀ c, read raw = .ok c ↔ Denotes raw c ∨ ClosedByFeed raw.toList c) ∧
    (∀ e, read raw = .error e ↔
      e = .notColor raw ∧ ∀ c, ¬ Denotes raw c ∧ ¬ ClosedByFeed raw.toList c) ∧
    ((∃ c, read raw = .ok c ∧ ¬ Denotes raw c) ↔ ∃ c, ClosedByFeed raw.toList c) := by
  refine ⟨fun c => read_eq_ok_iff, fun e => ⟨fun h => ⟨read_eq_error h, fun c => ?_⟩, ?_⟩, ?_, ?_⟩
  · rw [← not_or, ← read_eq_ok_iff, h]
    exact fun hOk => nomatch hOk
  · rintro ⟨rfl, hNone⟩
    cases hRead : read raw with
    | ok c => exact absurd (read_eq_ok_iff.1 hRead) (not_or.2 (hNone c))
    | error e => rw [read_eq_error hRead]
  · rintro ⟨c, hRead, hNot⟩
    exact ⟨c, (read_eq_ok_iff.1 hRead).resolve_left hNot⟩
  · rintro ⟨c, hClosed⟩
    exact ⟨c, read_eq_ok_iff.2 (.inr hClosed), hClosed.not_denotes⟩

/-- The line feed makes the opacity of a color its red. -/
theorem read_opacity_feed :
    read "#80FF0000" = .ok { red := 0xff, green := 0, blue := 0, alpha := 0x80 } ∧
    read "#80FF0000\n" = .ok { red := 0x80, green := 0xff, blue := 0, alpha := 255 } ∧
    ∀ c, ¬ Denotes "#80FF0000\n" c := by
  have hPairs : Pairs "80FF0000".toList [0x80, 0xff, 0, 0] :=
    .cons (m := 8) (n := 0) rfl rfl (.cons (m := 15) (n := 15) rfl rfl
      (.cons (m := 0) (n := 0) rfl rfl (.cons (m := 0) (n := 0) rfl rfl .nil)))
  have hClosed : ClosedByFeed "#80FF0000\n".toList
      { red := 0x80, green := 0xff, blue := 0, alpha := 255 } :=
    ⟨_, _, _, _, _, hPairs, by decide, rfl, rfl⟩
  exact ⟨rfl, read_eq_ok_iff.2 (.inr hClosed), fun c => hClosed.not_denotes⟩

end Color
end ViewMarkup
