import ViewMarkup.Proofs.Decimal.Literal
import ViewMarkup.Proofs.Decimal.Rounding

/-!
# Literals beyond all doubles

A literal may have any number of digits and any exponent, so the number that it denotes may be
larger than all doubles. It is infinite as a double just when its value is at the bound of rounding
or above (`Literal.isInf_toFloat_iff`).

There are several ways from a decimal to a double, and each of them has to be seen to agree with
this. A decimal that is far out of range is answered by its size alone; one of few digits with a
small power of ten is a product or a quotient of two doubles, and is in range; any other is a
product or a quotient of exact natural numbers, which is rounded once.

## Main results

* `overflows_ofScientific_iff`, `not_overflows_mul`, `not_overflows_div` — the exact and the short
  way.
* `isInf_ofDecimal_iff` — a decimal that is infinite as a double.
* `Literal.isInf_toFloat_iff`, `Literal.isFinite_toFloat_iff` — the same for literals.
-/

namespace ViewMarkup.Decimal

open Float.Model UnpackedFloat

variable {m m' : ℕ} {e e' : ℤ} {s s' : Sign} {f g : UnpackedFloat}

/-! ## Decimals -/

-- Great powers are written as powers of powers here, which are small enough to be evaluated.

theorem overflowBound_eq : overflowBound = ((2 ^ 54 - 1) * (2 ^ 194) ^ 5 : ℕ) := by
  have hExponent : (971 : ℤ) = (194 * 5 : ℕ) + 1 := by norm_num
  have hStep : (2 : ℚ) ^ (971 : ℤ) = (2 ^ 194) ^ 5 * 2 := by
    rw [hExponent, zpow_add_one₀ two_ne_zero, zpow_natCast, pow_mul]
  have hTop : ((2 ^ 54 - 1 : ℕ) : ℚ) = 2 ^ 54 - 1 := by norm_num
  rw [overflowBound, hStep, Nat.cast_mul, hTop, Nat.cast_pow, Nat.cast_pow, Nat.cast_ofNat]
  generalize ((2 : ℚ) ^ 194) ^ 5 = unit
  ring

theorem tenPow_mul (a b : ℕ) : (10 : ℚ) ^ ((a * b : ℕ) : ℤ) = ((10 ^ a) ^ b : ℕ) := by
  rw [zpow_natCast, pow_mul, Nat.cast_pow, Nat.cast_pow, Nat.cast_ofNat]

theorem overflowBound_le_tenPow {k : ℤ} (hk : 309 ≤ k) : overflowBound ≤ 10 ^ k := by
  have hNat : (2 ^ 54 - 1) * (2 ^ 194) ^ 5 ≤ (10 ^ 103) ^ 3 := by decide
  calc overflowBound ≤ 10 ^ ((103 * 3 : ℕ) : ℤ) := by
        rw [tenPow_mul, overflowBound_eq]
        exact Nat.cast_le.2 hNat
    _ ≤ 10 ^ k := zpow_le_zpow_right₀ (by norm_num) (by omega)

theorem tenPow_le_overflowBound {k : ℤ} (hk : k ≤ 308) : 10 ^ k ≤ overflowBound := by
  have hNat : (10 ^ 154) ^ 2 ≤ (2 ^ 54 - 1) * (2 ^ 194) ^ 5 := by decide
  calc (10 : ℚ) ^ k ≤ 10 ^ ((154 * 2 : ℕ) : ℤ) := zpow_le_zpow_right₀ (by norm_num) (by omega)
    _ ≤ overflowBound := by
        rw [tenPow_mul, overflowBound_eq]
        exact Nat.cast_le.2 hNat

theorem overflowBound_pos : 0 < overflowBound :=
  lt_of_lt_of_le (by positivity) (tenPow_le_overflowBound (k := 0) (by norm_num))

/-- A product with a power of ten is beyond all doubles if it is at the bound or above. -/
theorem overflows_mul_tenPow_iff (hm : 0 < m) (k : ℕ) :
    Overflows (roundWithAccuracy .binary64 s (m <<< 53 * 10 ^ k) (-53) .exact) ↔
      overflowBound ≤ m * 10 ^ k := by
  have hLog : 52 ≤ (m <<< 53 * 10 ^ k).log2 := by
    rw [Nat.le_log2 (by rw [Nat.shiftLeft_eq]; positivity), Nat.shiftLeft_eq]
    calc 2 ^ 52 ≤ 1 * 2 ^ 53 * 1 := by norm_num
      _ ≤ m * 2 ^ 53 * 10 ^ k :=
          Nat.mul_le_mul (Nat.mul_le_mul_right _ hm) (Nat.pow_pos (by decide))
  rw [overflows_roundWithAccuracy_iff (locates_exact _) (.inl hLog), Nat.shiftLeft_eq]
  have hValue : ((m * 2 ^ 53 * 10 ^ k : ℕ) : ℚ) * 2 ^ (-53 : ℤ) = m * 10 ^ k := by
    push_cast
    rw [zpow_neg]
    field_simp
    norm_num
  rw [hValue]

/-- How many bits a dividend is widened by: enough for a quotient of 53 bits, unless they are too
many for the lowest exponent. -/
def widened (m : ℕ) (e : ℤ) (m' : ℕ) (e' : ℤ) : ℕ :=
  (e - e' - max ((m.log2 : ℤ) + e - (m'.log2 + e') - 53) (-1074)).toNat

theorem widened_eq (m : ℕ) (e : ℤ) (m' : ℕ) (e' : ℤ) : (widened m e m' e' : ℤ) =
    max 0 (e - e' - max ((m.log2 : ℤ) + e - (m'.log2 + e') - 53) (-1074)) := by
  rw [widened]
  omega

theorem div_finite (hm : 0 < m) (hm' : 0 < m') :
    UnpackedFloat.div .binary64 (.finite s m e hm) (.finite s' m' e' hm') =
      roundWithAccuracy .binary64 (s / s') (m <<< widened m e m' e' / m')
        (e - e' - widened m e m' e') (accuracyOfFraction (m <<< widened m e m' e' % m') m') := by
  have hWidened := widened_eq m e m' e'
  have hTarget : min (e - e') (Format.binary64.targetExponent
      (totalExponent m e - totalExponent m' e')) = e - e' - widened m e m' e' := by
    have hMax : Format.binary64.targetExponent (totalExponent m e - totalExponent m' e') =
        max ((m.log2 : ℤ) + 1 + e - (m'.log2 + 1 + e') - 53) (-1074) := rfl
    rw [hMax]
    omega
  have hShift : (e - e' - (e - e' - (widened m e m' e' : ℤ))).toNat = widened m e m' e' := by omega
  unfold UnpackedFloat.div divCore
  dsimp only
  rw [hTarget, hShift]

/-- A quotient by a power of ten, or by any other number, is beyond all doubles if it is at the
bound or above. -/
theorem overflows_div_iff {d : ℕ} (hm : 0 < m) (hd : 0 < d) :
    Overflows (UnpackedFloat.div .binary64 (.finite .positive m 0 hm) (.finite .positive d 0 hd)) ↔
      overflowBound ≤ m / d := by
  have hWidened := widened_eq m 0 d 0
  rw [div_finite]
  generalize widened m 0 d 0 = k at hWidened ⊢
  rw [Nat.shiftLeft_eq]
  -- The quotient has 53 bits, or else the dividend has been widened as far as exponents go.
  have hFit : 52 ≤ (m * 2 ^ k / d).log2 ∨ (0 - 0 - k : ℤ) ≤ -1074 := by
    by_cases hLow : (k : ℤ) < 1074
    · have hBits : 52 + (d.log2 + 1) ≤ m.log2 + k := by omega
      have hQuotient : 2 ^ 52 ≤ m * 2 ^ k / d := by
        rw [Nat.le_div_iff_mul_le hd]
        calc 2 ^ 52 * d ≤ 2 ^ 52 * 2 ^ (d.log2 + 1) := Nat.mul_le_mul_left _ Nat.lt_log2_self.le
          _ = 2 ^ (52 + (d.log2 + 1)) := (pow_add ..).symm
          _ ≤ 2 ^ (m.log2 + k) := Nat.pow_le_pow_right two_pos hBits
          _ = 2 ^ m.log2 * 2 ^ k := pow_add ..
          _ ≤ m * 2 ^ k := Nat.mul_le_mul_right _ (Nat.log2_self_le hm.ne')
      exact .inl ((Nat.le_log2 (by omega)).2 hQuotient)
    · exact .inr (by omega)
  have hValue : ((m * 2 ^ k : ℕ) : ℚ) / d * 2 ^ (0 - 0 - k : ℤ) = m / d := by
    rw [sub_zero, zero_sub, zpow_neg, zpow_natCast]
    push_cast
    field_simp
  rw [overflows_roundWithAccuracy_iff (locates_quotient _ hd) hFit, hValue]

theorem overflows_ofScientific_iff (m : ℕ) (e : ℤ) :
    Overflows (UnpackedFloat.ofScientific .binary64 m e) ↔ overflowBound ≤ m * 10 ^ e := by
  have hExponents : (2 : ℤ) ^ Format.binary64.exponentBits = 2048 := rfl
  unfold UnpackedFloat.ofScientific
  rw [hExponents]
  split
  · next hZero =>
    refine iff_of_false (not_overflows_zero _) (not_le_of_gt ?_)
    rw [hZero, Nat.cast_zero, zero_mul]
    exact overflowBound_pos
  · next hm =>
    have hPos : 0 < m := Nat.pos_of_ne_zero hm
    have hOne : (1 : ℚ) ≤ m := by exact_mod_cast hPos
    split
    · next hLarge =>
      refine iff_of_true (overflows_infinity _) ?_
      calc overflowBound ≤ 10 ^ e := overflowBound_le_tenPow (by omega)
        _ ≤ m * 10 ^ e := le_mul_of_one_le_left (by positivity) hOne
    · split
      · next hSmall =>
        have hDigits : (m : ℚ) < 10 ^ (m.log2 + 1) := by
          exact_mod_cast Nat.lt_log2_self.trans_le (Nat.pow_le_pow_left (by decide) _)
        refine iff_of_false (not_overflows_zero _) (not_le_of_gt ?_)
        calc (m : ℚ) * 10 ^ e < 10 ^ (m.log2 + 1) * 10 ^ e :=
              mul_lt_mul_of_pos_right hDigits (by positivity)
          _ = 10 ^ ((m.log2 + 1 : ℕ) + e) := by
              rw [zpow_add₀ (by norm_num), zpow_natCast]
          _ ≤ overflowBound := tenPow_le_overflowBound (by push_cast; omega)
      · split
        · next hNonneg =>
          obtain ⟨k, rfl⟩ := Int.eq_ofNat_of_zero_le hNonneg
          rw [zpow_natCast]
          exact overflows_mul_tenPow_iff hPos k
        · next hNeg =>
          obtain ⟨k, rfl⟩ : ∃ k : ℕ, e = -k := ⟨(-e).toNat, by omega⟩
          have hValue : (m : ℚ) * 10 ^ (-k : ℤ) = m / (10 ^ k : ℕ) := by
            rw [zpow_neg, zpow_natCast, Nat.cast_pow, Nat.cast_ofNat, div_eq_mul_inv]
          rw [hValue]
          have hNat : (- -(k : ℤ)).toNat = k := by omega
          simp only [hNat]
          exact overflows_div_iff hPos (by positivity)

/-! ## Short decimals -/

private theorem upTo_unpack_round (s : Sign) (hm : m < 2 ^ 64) :
    UpTo 12 (Float.Model.pack (UnpackedFloat.round .binary64 s m 0)).unpack := by
  obtain ⟨k, hk⟩ : ∃ k : ℕ, (k : ℤ) = max 0 (-max ((m.log2 : ℤ) - 52) (-1074)) :=
    ⟨_, Int.toNat_of_nonneg (le_max_left _ _)⟩
  have hRound : UnpackedFloat.round .binary64 s m 0 =
      roundWithAccuracy .binary64 s (m <<< k) (0 - k) .exact := by
    have hTarget : Format.binary64.targetExponent (totalExponent m 0) =
        max ((m.log2 : ℤ) + 1 + 0 - 53) (-1074) := rfl
    have hShift : (0 - Format.binary64.targetExponent (totalExponent m 0)).toNat = k := by omega
    rw [← hShift]
    rfl
  have hLog : m.log2 < 64 := log2_lt_of_lt (by decide) hm
  have hShifted : (m <<< k).log2 < m.log2 + 1 + k := by
    refine log2_lt_of_lt (by omega) ?_
    rw [Nat.shiftLeft_eq, pow_add]
    exact Nat.mul_lt_mul_of_pos_right Nat.lt_log2_self (by positivity)
  have hDropped := dropped_eq (m <<< k) (0 - k)
  rw [hRound]
  exact upTo_unpack_roundWithAccuracy (locates_exact _) (by omega) (by decide) (by decide)

/-- A number of 64 bits has an exponent of 12 at most, once it has been rounded. -/
theorem upTo_unpack_toFloat (n : UInt64) : UpTo 12 n.toFloat.toModel.unpack := by
  show UpTo 12 (Float.Model.pack (UnpackedFloat.normalize .binary64 n.toNat 0 .positive)).unpack
  unfold UnpackedFloat.normalize
  have hBits : n.toNat < 2 ^ 64 := n.toNat_lt
  split
  · exact upTo_unpack_round _ (by omega)
  · trivial
  · exact upTo_unpack_round _ (by omega)

/-- A number of at most 53 bits with an exponent that is not large in either direction. -/
def isModest : UnpackedFloat → Bool
  | .finite _ m e _ => m < 2 ^ 53 && -100 ≤ e && e ≤ 100
  | _ => false

private theorem isModest_powersOfTen : ∀ x ∈ Float.exactlyRepresentablePowersOfTen.toList,
    isModest x.toModel.unpack = true := by
  decide

theorem not_overflows_mul (hf : UpTo 12 f) (hg : isModest g = true) :
    ¬ Overflows (UnpackedFloat.mul .binary64 f g) := by
  cases g with
  | finite s' m' e' hm' =>
    simp only [isModest, Bool.and_eq_true, decide_eq_true_eq] at hg
    cases f with
    | zero s => exact not_overflows_zero _
    | finite s m e hm =>
      obtain ⟨hBits, hExponent⟩ := hf
      have hProduct : m * m' < 2 ^ 106 :=
        (Nat.mul_lt_mul_of_lt_of_lt hBits hg.1.1).trans_eq (by norm_num)
      have hLog := log2_lt_of_lt (by decide) hProduct
      have hDropped := dropped_eq (m * m') (e + e')
      exact not_overflows_roundWithAccuracy (locates_exact _) (by omega)
    | infinity | notANumber => exact hf.elim
  | infinity | notANumber | zero => cases hg

theorem not_overflows_div (hf : UpTo 12 f) (hg : isModest g = true) :
    ¬ Overflows (UnpackedFloat.div .binary64 f g) := by
  cases g with
  | finite s' m' e' hm' =>
    simp only [isModest, Bool.and_eq_true, decide_eq_true_eq] at hg
    cases f with
    | zero s => exact not_overflows_zero _
    | finite s m e hm =>
      obtain ⟨hBits, hExponent⟩ := hf
      have hWidened := widened_eq m e m' e'
      rw [div_finite]
      generalize widened m e m' e' = k at hWidened ⊢
      have hQuotient : m <<< k / m' < 2 ^ (53 + k) := by
        refine (Nat.div_le_self _ _).trans_lt ?_
        rw [Nat.shiftLeft_eq, pow_add]
        exact Nat.mul_lt_mul_of_pos_right hBits (by positivity)
      have hLog := log2_lt_of_lt (by omega) hQuotient
      have hDropped := dropped_eq (m <<< k / m') (e - e' - k)
      exact not_overflows_roundWithAccuracy (locates_quotient _ hm') (by omega)
    | infinity | notANumber => exact hf.elim
  | infinity | notANumber | zero => cases hg

/-! ## Doubles -/

/-- A decimal is infinite as a double if it is at the bound or above. -/
theorem isInf_ofScientific_iff (m : ℕ) (negative : Bool) (e : ℕ) :
    (Float.ofScientific m negative e).isInf = true ↔
      overflowBound ≤ m * 10 ^ (if negative then -(e : ℤ) else e) := by
  unfold Float.ofScientific
  split
  · next hShort =>
    have hFloat := upTo_unpack_toFloat m.toUInt64
    have hPower := isModest_powersOfTen _ (Array.getElem_mem_toList (Nat.lt_succ_of_le hShort.2))
    refine iff_of_false ?_ (not_le_of_gt ?_)
    · dsimp only
      split
      · exact not_overflows_div hFloat hPower
      · exact not_overflows_mul hFloat hPower
    · have hDigits : (m : ℚ) < 10 ^ (16 : ℤ) := by
        exact_mod_cast hShort.1.trans (by decide : 2 ^ 53 < 10 ^ 16)
      have hScale : (10 : ℚ) ^ (if negative then -(e : ℤ) else e) ≤ 10 ^ (22 : ℤ) :=
        zpow_le_zpow_right₀ (by norm_num) (by split <;> omega)
      calc (m : ℚ) * 10 ^ (if negative then -(e : ℤ) else e)
          < 10 ^ (16 : ℤ) * 10 ^ (22 : ℤ) :=
            mul_lt_mul hDigits hScale (by positivity) (by positivity)
        _ = 10 ^ (38 : ℤ) := (zpow_add₀ (by norm_num) 16 22).symm
        _ ≤ overflowBound := tenPow_le_overflowBound (by norm_num)
  · cases negative with
    | false => exact overflows_ofScientific_iff m e
    | true =>
      show Overflows (UnpackedFloat.ofScientific .binary64 m (Int.negOfNat e)) ↔ _
      rw [overflows_ofScientific_iff, Int.negOfNat_eq]
      rfl

theorem digitCount_eq (m : ℕ) : digitCount m = (digitsOf m).length := by
  rw [digitCount, digitsOf, List.length_map, ← String.length_toList, Nat.toList_repr]

/-- A number is within the powers of ten that its count of digits tells. -/
theorem lt_tenPow_digitCount (m : ℕ) : m < 10 ^ digitCount m := by
  have hPos : 0 < (digitsOf m).length := List.length_pos_iff.2 (by simpa using digitsOf_ne_nil m)
  rw [digitCount_eq]
  exact (length_digitsOf_le_iff hPos).1 le_rfl

private theorem tenPow_digitCount_le (hm : m ≠ 0) : 10 ^ (digitCount m - 1) ≤ m := by
  have hLength := digitCount_eq m
  by_cases hOne : digitCount m - 1 = 0
  · rw [hOne]
    omega
  · refine Nat.le_of_not_lt fun hLess => ?_
    have := (length_digitsOf_le_iff (Nat.pos_of_ne_zero hOne)).2 hLess
    omega

theorem isInf_ofDecimal_iff (m : ℕ) (e : ℤ) :
    (ofDecimal m e).isInf = true ↔ overflowBound ≤ m * 10 ^ e := by
  have hZero : (0.0 : Float).isInf = false := rfl
  have hInfinite : (1.0 / 0.0 : Float).isInf = true := rfl
  have hTen : (10 : ℚ) ≠ 0 := by norm_num
  unfold ofDecimal
  dsimp only
  split
  · next hm =>
    rw [hm, hZero, Nat.cast_zero, zero_mul]
    exact iff_of_false nofun (not_le_of_gt overflowBound_pos)
  · next hm =>
    split
    · next hLarge =>
      have hDigits : (10 : ℚ) ^ (digitCount m - 1) ≤ m := by exact_mod_cast tenPow_digitCount_le hm
      refine iff_of_true hInfinite ?_
      calc overflowBound ≤ 10 ^ ((digitCount m - 1 : ℕ) + e) :=
            overflowBound_le_tenPow (by omega)
        _ = 10 ^ (digitCount m - 1) * 10 ^ e := by rw [zpow_add₀ hTen, zpow_natCast]
        _ ≤ m * 10 ^ e := mul_le_mul_of_nonneg_right hDigits (by positivity)
    · split
      · next hSmall =>
        have hDigits : (m : ℚ) < 10 ^ digitCount m := by exact_mod_cast lt_tenPow_digitCount m
        rw [hZero]
        refine iff_of_false nofun (not_le_of_gt ?_)
        calc (m : ℚ) * 10 ^ e < 10 ^ digitCount m * 10 ^ e :=
              mul_lt_mul_of_pos_right hDigits (by positivity)
          _ = 10 ^ (digitCount m + e) := by rw [zpow_add₀ hTen, zpow_natCast]
          _ ≤ overflowBound := tenPow_le_overflowBound (by omega)
      · cases e with
        | ofNat e => exact isInf_ofScientific_iff m false e
        | negSucc e => exact isInf_ofScientific_iff m true (e + 1)

/-- The sign does not matter. -/
theorem isInf_neg (x : Float) : (-x).isInf = x.isInf := by
  show (Float.Model.pack x.toModel.unpack.neg).unpack.isInf = x.toModel.unpack.isInf
  cases hUnpack : x.toModel.unpack with
  | notANumber => rfl
  | infinity s => cases s <;> rfl
  | zero s => cases s <;> rfl
  | finite s m e hm =>
    have hNot : ¬ Overflows (.finite (-s) m e hm) := by
      rw [overflows_finite_iff]
      have := exponent_unpack_le hUnpack
      omega
    exact Bool.eq_false_iff.2 hNot

/-- The number that a literal denotes. -/
def Literal.value (l : Literal) : ℚ :=
  (if l.negative then -1 else 1) * ofDigits (l.whole ++ l.fraction) *
    10 ^ (l.exponent - l.fraction.length)

theorem Literal.abs_value (l : Literal) :
    |l.value| = ofDigits (l.whole ++ l.fraction) * 10 ^ (l.exponent - l.fraction.length) := by
  have hOne : |if l.negative = true then (-1 : ℚ) else 1| = 1 := by split <;> simp
  have hScale : (0 : ℚ) < 10 ^ (l.exponent - l.fraction.length) := by positivity
  rw [value, abs_mul, abs_mul, Nat.abs_cast, abs_of_pos hScale, hOne, one_mul]

/-- A literal is infinite as a double if it denotes a number at the bound or above, or at its
negative or below. -/
theorem Literal.isInf_toFloat_iff (l : Literal) :
    l.toFloat.isInf = true ↔ overflowBound ≤ |l.value| := by
  have hSign : l.toFloat.isInf =
      (ofDecimal (ofDigits (l.whole ++ l.fraction)) (l.exponent - l.fraction.length)).isInf := by
    unfold toFloat withSign
    split
    · exact isInf_neg _
    · rfl
  rw [hSign, l.abs_value, isInf_ofDecimal_iff]

theorem Literal.isNaN_toFloat (l : Literal) : l.toFloat.isNaN = false := by
  have hNumber := l.isNumber_toFloat
  show l.toFloat.toModel.unpack.isNaN = false
  cases hUnpack : l.toFloat.toModel.unpack with
  | notANumber => exact absurd hUnpack hNumber
  | infinity | zero | finite => rfl

private theorem isFinite_iff {x : Float} (hNumber : x.isNaN = false) :
    x.isFinite = true ↔ ¬ x.isInf = true := by
  have hUnpack : x.toModel.unpack.isNaN = false := hNumber
  show x.toModel.unpack.isFinite = true ↔ ¬ x.toModel.unpack.isInf = true
  generalize x.toModel.unpack = f at hUnpack ⊢
  cases f with
  | notANumber => cases hUnpack
  | infinity | zero | finite => simp [UnpackedFloat.isFinite, UnpackedFloat.isInf]

theorem Literal.isFinite_toFloat_iff (l : Literal) :
    l.toFloat.isFinite = true ↔ |l.value| < overflowBound := by
  rw [isFinite_iff l.isNaN_toFloat, l.isInf_toFloat_iff, not_le]

end ViewMarkup.Decimal
