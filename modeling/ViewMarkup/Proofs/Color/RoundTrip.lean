import ViewMarkup.Proofs.Color.Literal

/-!
# Colors and their text form

The text form of a color names its channels in capital digits, two for each, and has the opacity
only where it is not full. Reading it gives the color back. The other way round, a literal of three
or four pairs of digits is read and written in its canonical spelling: in capitals, and without an
opacity of `FF`.

Both directions rest on the correspondence of pairs of digits and channels. The digits of channels
are pairs that denote these channels, and pairs that denote channels are the digits of these
channels apart from letter case; so neither direction compares colors or literals one by one.

## Main results

* `Color.pairs_digits`, `Color.Pairs.digits_eq` — channels to digits and digits to channels.
* `Color.read_toHex`, `Color.toHex_of_denotesDigits` — the two directions.
* `Color.read_toHex_read` — both together, for every color and every literal in digits.
-/

namespace ViewMarkup

open Text

/-- The characters that are hexadecimal digits, in either letter case. -/
def hexDigits : List Char :=
  ['0', '1', '2', '3', '4', '5', '6', '7', '8', '9', 'a', 'b', 'c', 'd', 'e', 'f',
    'A', 'B', 'C', 'D', 'E', 'F']

/-- A digit is given by its value, apart from letter case. -/
theorem hexValue?_cases {c : Char} {n : Nat} (h : hexValue? c = some n) :
    (n < 10 ∧ c = Char.ofNat (48 + n)) ∨
      (10 ≤ n ∧ n < 16 ∧ (c = Char.ofNat (87 + n) ∨ c = Char.ofNat (55 + n))) := by
  have hValue {m k : Nat} (hm : m ≤ c.toNat) (hk : c.toNat - m = k) : c = Char.ofNat (m + k) := by
    rw [← hk, Nat.add_sub_cancel' hm, Char.ofNat_toNat]
  have hBounds : '0'.toNat = 48 ∧ '9'.toNat = 57 ∧ 'a'.toNat = 97 ∧ 'f'.toNat = 102 ∧
      'A'.toNat = 65 ∧ 'F'.toNat = 70 := ⟨rfl, rfl, rfl, rfl, rfl, rfl⟩
  have hOrder (d e : Char) : d ≤ e ↔ d.toNat ≤ e.toNat := UInt32.le_iff_toNat_le
  simp only [hexValue?, hOrder] at h
  split at h
  · have hn := Option.some.inj h
    exact .inl ⟨by omega, hValue (by omega) hn⟩
  split at h
  · have hn := Option.some.inj h
    exact .inr ⟨by omega, by omega, .inl (hValue (by omega) hn)⟩
  split at h
  · have hn := Option.some.inj h
    exact .inr ⟨by omega, by omega, .inr (hValue (by omega) hn)⟩
  · cases h

private theorem isSome_hexValue?_iff {c : Char} : (hexValue? c).isSome ↔ c ∈ hexDigits := by
  have hSmall : ∀ n < 10, Char.ofNat (48 + n) ∈ hexDigits := by decide
  have hLetter : ∀ n < 16, 10 ≤ n →
      Char.ofNat (87 + n) ∈ hexDigits ∧ Char.ofNat (55 + n) ∈ hexDigits := by decide
  constructor
  · intro h
    obtain ⟨n, hValue⟩ := Option.isSome_iff_exists.1 h
    rcases hexValue?_cases hValue with ⟨hn, rfl⟩ | ⟨hLow, hHigh, rfl | rfl⟩
    · exact hSmall n hn
    · exact (hLetter n hHigh hLow).1
    · exact (hLetter n hHigh hLow).2
  · have hAll : ∀ d ∈ hexDigits, (hexValue? d).isSome := by simp [hexDigits, hexValue?]
    exact hAll c

namespace Color

variable {c : Color} {cs digits : List Char} {channels : List UInt8}

/-! ## Single digits -/

private theorem hexValue?_hexDigit : ∀ n < 16, hexValue? (hexDigit n) = some n := by decide

/-- A digit is written as its capital. -/
theorem hexDigit_of_hexValue? {d : Char} {n : Nat} (h : hexValue? d = some n) :
    n < 16 ∧ hexDigit n = d.toUpper := by
  have hSmall : ∀ n < 10, hexDigit n = (Char.ofNat (48 + n)).toUpper := by decide
  have hLetter : ∀ n < 16, 10 ≤ n → hexDigit n = (Char.ofNat (87 + n)).toUpper ∧
      hexDigit n = (Char.ofNat (55 + n)).toUpper := by decide
  rcases hexValue?_cases h with ⟨hn, rfl⟩ | ⟨hLow, hHigh, rfl | rfl⟩
  · exact ⟨by omega, hSmall n hn⟩
  · exact ⟨hHigh, (hLetter n hHigh hLow).1⟩
  · exact ⟨hHigh, (hLetter n hHigh hLow).2⟩

/-! ## Pairs of digits -/

/-- The digits of channels. -/
def digitsOf (channels : List UInt8) : List Char := channels.flatMap hexPair

theorem digitsOf_cons (channel : UInt8) :
    digitsOf (channel :: channels) = hexPair channel ++ digitsOf channels := rfl

/-- The digits of channels denote these channels. -/
theorem pairs_digits (channels : List UInt8) : Pairs (digitsOf channels) channels := by
  induction channels with
  | nil => exact .nil
  | cons channel channels ih =>
    have hBound : channel.toNat < 256 := channel.toNat_lt
    have hValue : UInt8.ofNat (16 * (channel.toNat / 16) + channel.toNat % 16) = channel := by
      rw [Nat.div_add_mod, UInt8.ofNat_toNat]
    have hHigh := hexValue?_hexDigit (channel.toNat / 16) (by omega)
    have hLow := hexValue?_hexDigit (channel.toNat % 16) (by omega)
    have hPairs := Pairs.cons hHigh hLow ih
    rw [hValue] at hPairs
    exact hPairs

/-- What two digits denote is written in two digits. -/
theorem hexPair_ofNat {m n : Nat} (hm : m < 16) (hn : n < 16) :
    hexPair (.ofNat (16 * m + n)) = [hexDigit m, hexDigit n] := by
  have hValue : (UInt8.ofNat (16 * m + n)).toNat = 16 * m + n := by
    rw [UInt8.toNat_ofNat']
    omega
  have hDiv : (16 * m + n) / 16 = m := by omega
  have hMod : (16 * m + n) % 16 = n := by omega
  rw [hexPair, hValue, hDiv, hMod]

/-- Pairs of digits are the digits of what they denote, apart from letter case. -/
theorem Pairs.digits_eq (h : Pairs digits channels) :
    digitsOf channels = digits.map Char.toUpper := by
  induction h with
  | nil => rfl
  | cons hHigh hLow _ ih =>
    obtain ⟨hm, hHigh⟩ := hexDigit_of_hexValue? hHigh
    obtain ⟨hn, hLow⟩ := hexDigit_of_hexValue? hLow
    rw [digitsOf_cons, hexPair_ofNat hm hn, ih, hHigh, hLow]
    rfl

/-- Different channels have different digits. -/
theorem digitsOf_injective : Function.Injective digitsOf := by
  intro channels channels' h
  rw [← (pairs_digits channels).pairs_eq, h, (pairs_digits channels').pairs_eq]

private theorem length_digitsOf (channels : List UInt8) :
    (digitsOf channels).length = 2 * channels.length :=
  (pairs_digits channels).length_eq

/-! ## The text form -/

/-- The channels that the text form of a color names, in its order. -/
def shown (c : Color) : List UInt8 :=
  if c.alpha = 255 then [c.red, c.green, c.blue] else [c.alpha, c.red, c.green, c.blue]

theorem toList_toHex (c : Color) : c.toHex.toList = '#' :: digitsOf c.shown := by
  unfold toHex shown
  split <;> simp [digitsOf]

/-- A color is read back from its text form. -/
theorem read_toHex (c : Color) : read c.toHex = .ok c := by
  have hPairs := pairs_digits c.shown
  have hRead : ofHex? c.toHex.toList = some c := by
    rw [toList_toHex]
    unfold shown at hPairs ⊢
    split at hPairs
    · next hAlpha => rw [if_pos hAlpha, ofHex?_of_three hPairs, ← hAlpha]
    · next hAlpha => rw [if_neg hAlpha, ofHex?_of_four hPairs]
  simp only [read, hRead]

/-! ## Canonical literals -/

/-- A literal in capitals without the first of its four pairs where this is the `FF` of full
opacity. -/
def withoutOpacity : List Char → List Char
  | '#' :: 'F' :: 'F' :: rest => if rest.length = 6 then '#' :: rest else '#' :: 'F' :: 'F' :: rest
  | cs => cs

/-- No opacity is left out of a literal of three pairs, whatever its first pair is. -/
theorem withoutOpacity_of_length (h : cs.length ≠ 9) : withoutOpacity cs = cs := by
  unfold withoutOpacity
  split
  · next rest => exact if_neg fun hRest => h (by simp [hRest])
  · rfl

private theorem withoutOpacity_of_full (h : digits.length = 6) :
    withoutOpacity ('#' :: (hexPair 255 ++ digits)) = '#' :: digits := if_pos h

private theorem withoutOpacity_of_ne {first : UInt8} (h : first ≠ 255) :
    withoutOpacity ('#' :: (hexPair first ++ digits)) = '#' :: (hexPair first ++ digits) := by
  have hPair : hexPair first ≠ hexPair 255 := by
    intro hEq
    have hDigits : digitsOf [first] = digitsOf [255] := by rw [digitsOf_cons, hEq, digitsOf_cons]
    exact h (List.cons.inj (digitsOf_injective hDigits)).1
  unfold withoutOpacity
  split
  · next rest hText =>
    obtain ⟨hHigh, hLow, -⟩ : hexDigit (first.toNat / 16) = 'F' ∧
        hexDigit (first.toNat % 16) = 'F' ∧ digits = rest := by
      simpa [hexPair] using hText
    exact absurd (show hexPair first = ['F', 'F'] by rw [hexPair, hHigh, hLow]) hPair
  · rfl

/-- The text form of what a literal in digits denotes. -/
theorem toHex_of_denotesDigits (h : DenotesDigits ('#' :: digits) c) :
    c.toHex.toList = withoutOpacity ('#' :: digits.map Char.toUpper) := by
  rw [toList_toHex]
  cases h with
  | rgb hPairs =>
    rw [← hPairs.digits_eq, withoutOpacity_of_length (by simp [length_digitsOf])]
    rfl
  | @argb _ alpha red green blue hPairs =>
    rw [← hPairs.digits_eq, digitsOf_cons, shown]
    by_cases hAlpha : alpha = 255
    · rw [if_pos hAlpha, hAlpha, withoutOpacity_of_full (length_digitsOf _)]
    · rw [if_neg hAlpha, withoutOpacity_of_ne hAlpha, digitsOf_cons]

/-- A literal in digits in upper case. -/
theorem toList_upper_literal (hDigits : ∀ d ∈ digits, (hexValue? d).isSome) :
    (upper (String.ofList ('#' :: digits))).toList = '#' :: digits.map Char.toUpper := by
  have hAscii : ∀ d ∈ '#' :: digits, IsAscii d :=
    List.forall_mem_cons.2 ⟨by decide, fun d hd =>
      isAscii_of_isAlphanum (isAlphanum_of_hexValue? (hDigits d hd))⟩
  rw [upper_of_isAscii (by rwa [String.toList_ofList]), String.toList_ofList,
    String.toList_ofList, List.map_cons]
  rfl

/-- Every color is read back from its text form, and every literal of `#` and six or eight
hexadecimal digits in any letter case is read as a color whose text form is the literal in upper
case, without an opacity of `FF`. -/
theorem read_toHex_read :
    (∀ c : Color, read c.toHex = .ok c) ∧
      ∀ digits : List Char, (∀ d ∈ digits, d ∈ hexDigits) →
        digits.length = 6 ∨ digits.length = 8 →
          ∃ c, read (String.ofList ('#' :: digits)) = .ok c ∧
            c.toHex.toList = withoutOpacity (upper (String.ofList ('#' :: digits))).toList := by
  refine ⟨read_toHex, fun digits hMem hLength => ?_⟩
  have hDigits : ∀ d ∈ digits, (hexValue? d).isSome := fun d hd =>
    isSome_hexValue?_iff.2 (hMem d hd)
  have hPairs : ∃ n, (n = 3 ∨ n = 4) ∧ digits.length = 2 * n := by
    rcases hLength with h | h
    · exact ⟨3, .inl rfl, h⟩
    · exact ⟨4, .inr rfl, h⟩
  obtain ⟨n, hn, hLength⟩ := hPairs
  obtain ⟨channels, hPairs, rfl⟩ := Pairs.exists_of_length hDigits hLength
  have hDenotes : ∃ c, DenotesDigits ('#' :: digits) c := by
    match channels, hn with
    | [red, green, blue], _ => exact ⟨_, .rgb hPairs⟩
    | [alpha, red, green, blue], _ => exact ⟨_, .argb hPairs⟩
  obtain ⟨c, hDenotes⟩ := hDenotes
  have hRead : ofHex? (String.ofList ('#' :: digits)).toList = some c := by
    rw [String.toList_ofList]
    exact ofHex?_eq_some_iff.2 (.inl hDenotes)
  refine ⟨c, by simp only [read, hRead], ?_⟩
  rw [toList_upper_literal hDigits]
  exact toHex_of_denotesDigits hDenotes

/-- A translucent literal keeps its opacity, an opaque one loses it, and three pairs keep a red of
`FF`. -/
theorem read_toHex_read_literals :
    (∃ c, read "#80ff00c0" = .ok c ∧ c.toHex = "#80FF00C0") ∧
      (∃ c, read "#fF00c0De" = .ok c ∧ c.toHex = "#00C0DE") ∧
      ∃ c, read "#ff00c0" = .ok c ∧ c.toHex = "#FF00C0" := by
  obtain ⟨long, hLongRead, hLongText⟩ := read_toHex_read.2
    ['8', '0', 'f', 'f', '0', '0', 'c', '0'] (by simp [hexDigits]) (.inr rfl)
  obtain ⟨full, hFullRead, hFullText⟩ := read_toHex_read.2
    ['f', 'F', '0', '0', 'c', '0', 'D', 'e'] (by simp [hexDigits]) (.inr rfl)
  obtain ⟨short, hShortRead, hShortText⟩ := read_toHex_read.2
    ['f', 'f', '0', '0', 'c', '0'] (by simp [hexDigits]) (.inl rfl)
  refine ⟨⟨long, hLongRead, ?_⟩, ⟨full, hFullRead, ?_⟩, ⟨short, hShortRead, ?_⟩⟩
  · exact String.toList_injective (hLongText.trans (by decide))
  · exact String.toList_injective (hFullText.trans (by decide))
  · exact String.toList_injective (hShortText.trans (by decide))

end Color
end ViewMarkup
