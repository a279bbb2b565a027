import ViewMarkup.Proofs.Decimal.Double

/-!
# Rounding to doubles, and where it ends in an infinity

A mantissa with too many bits loses the ones at its end. Two bits stay behind it for as long as more
are dropped: the round bit, which is the last one dropped, and the sticky bit, which says whether
any bit before that was set. They tell on which side of the middle between two mantissas a number
lies (`Locates`), which is all that rounding has to know.

The greatest double is `(2 ^ 53 - 1) * 2 ^ 971`. What lies behind it is rounded down to it up to the
middle between it and the next power of two, which would be the next double if exponents went on.
The middle itself goes to the even mantissa, and that is the power of two. So a number is infinite
as a double from that bound on.

## Main results

* `Locates.shiftRight`, `Locates.lt_roundedMantissa_iff` — what the two bits say, however many have
  been dropped, and which mantissa is rounded to.
* `overflows_finite_iff`, `upTo_unpack_pack` — which exponents can be packed.
* `overflows_roundWithAccuracy_iff` — rounding ends in an infinity from `overflowBound` on.
-/

namespace ViewMarkup.Decimal

open Float.Model UnpackedFloat

variable {em : ExtendedMantissa} {v w : ℚ} {m n : ℕ} {e high : ℤ} {a : Accuracy} {s : Sign}
  {f g : UnpackedFloat}

/-! ## Residual bits -/

/-- What the round bit adds to a mantissa. -/
def half (roundBit : Bool) : ℚ := if roundBit then 1 / 2 else 0

/-- The mantissa and the two bits behind it say where a number is: the round bit in which half of
the unit, and the sticky bit whether it is inside of that half or at its start. -/
structure Locates (em : ExtendedMantissa) (v : ℚ) : Prop where
  le : em.mantissa + half em.roundBit ≤ v
  lt : v < em.mantissa + half em.roundBit + 1 / 2
  sticky : em.stickyBit = false ↔ v = em.mantissa + half em.roundBit

theorem half_nonneg (b : Bool) : 0 ≤ half b := by
  cases b <;> norm_num [half]

theorem half_le (b : Bool) : half b ≤ 1 / 2 := by
  cases b <;> norm_num [half]

theorem locates_exact (m : ℕ) : Locates (.ofMantissaAndAccuracy m .exact) m := by
  refine ⟨?_, ?_, ?_⟩ <;> norm_num [ExtendedMantissa.ofMantissaAndAccuracy, half]

/-- Where a number is behind a mantissa, by how it compares with the middle of the unit. -/
theorem locates_inexact {x : ℚ} {o : Ordering} (hPos : 0 < x) (hOne : x < 1)
    (h : o.Compares x (1 / 2)) : Locates (.ofMantissaAndAccuracy m (.inexact o)) (m + x) := by
  cases o with
  | lt =>
    have hBelow : x < 1 / 2 := h
    refine ⟨?_, ?_, iff_of_false nofun ?_⟩ <;>
      norm_num [ExtendedMantissa.ofMantissaAndAccuracy, half] <;> linarith
  | eq =>
    obtain rfl : x = 1 / 2 := h
    refine ⟨?_, ?_, ?_⟩ <;> norm_num [ExtendedMantissa.ofMantissaAndAccuracy, half]
  | gt =>
    have hAbove : 1 / 2 < x := h
    refine ⟨?_, ?_, iff_of_false nofun ?_⟩ <;>
      norm_num [ExtendedMantissa.ofMantissaAndAccuracy, half] <;> linarith

/-- A quotient is where its whole part and its remainder say. -/
theorem locates_quotient (n : ℕ) {d : ℕ} (hd : 0 < d) :
    Locates (.ofMantissaAndAccuracy (n / d) (accuracyOfFraction (n % d) d)) (n / d : ℚ) := by
  have hPos : (0 : ℚ) < d := by exact_mod_cast hd
  have hRest : n % d < d := Nat.mod_lt n hd
  have hValue : (n : ℚ) / d = (n / d : ℕ) + ((n % d : ℕ) : ℚ) / d := by
    have hDivMod : (d : ℚ) * (n / d : ℕ) + (n % d : ℕ) = n := by
      exact_mod_cast Nat.div_add_mod n d
    rw [← hDivMod, add_div, mul_div_cancel_left₀ _ hPos.ne']
  rw [hValue, accuracyOfFraction]
  generalize n % d = r at hRest ⊢
  by_cases hZero : r = 0
  · rw [if_pos hZero, hZero, Nat.cast_zero, zero_div, add_zero]
    exact locates_exact _
  · rw [if_neg hZero]
    have hMiddle : (compare (2 * r) d).Compares ((r : ℚ) / d) (1 / 2) := by
      have hNat : (compare (2 * r) d).Compares (2 * r) d := (compare_iff _ _).1 rfl
      generalize compare (2 * r) d = o at hNat ⊢
      cases o with
      | lt =>
        have hLt : 2 * r < d := hNat
        show (r : ℚ) / d < 1 / 2
        rw [div_lt_div_iff₀ hPos two_pos]
        exact_mod_cast (by omega : r * 2 < 1 * d)
      | eq =>
        have hEq : 2 * r = d := hNat
        show (r : ℚ) / d = 1 / 2
        rw [div_eq_div_iff hPos.ne' two_ne_zero]
        exact_mod_cast (by omega : r * 2 = 1 * d)
      | gt =>
        have hGt : d < 2 * r := hNat
        show 1 / 2 < (r : ℚ) / d
        rw [div_lt_div_iff₀ two_pos hPos]
        exact_mod_cast (by omega : 1 * d < r * 2)
    exact locates_inexact (div_pos (by exact_mod_cast Nat.pos_of_ne_zero hZero) hPos)
      ((div_lt_one hPos).2 (by exact_mod_cast hRest)) hMiddle

/-- The next mantissa is reached from the middle on, which itself goes to the even one. -/
theorem roundedMantissa_eq (em : ExtendedMantissa) :
    em.roundedMantissa = em.mantissa +
      if em.roundBit = true ∧ (em.stickyBit = true ∨ em.mantissa % 2 = 1) then 1 else 0 := by
  obtain ⟨mantissa, roundBit, stickyBit⟩ := em
  cases roundBit <;> cases stickyBit <;>
    simp [ExtendedMantissa.roundedMantissa, ExtendedMantissa.accuracy, Accuracy.roundToNearestEven]
  split <;> omega

theorem roundedMantissa_bounds (em : ExtendedMantissa) :
    em.mantissa ≤ em.roundedMantissa ∧ em.roundedMantissa ≤ em.mantissa + 1 := by
  rw [roundedMantissa_eq]
  split <;> omega

namespace Locates

private theorem shiftRightOne (h : Locates em v) : Locates em.shiftRightOne (v / 2) := by
  have hHalf : (em.mantissa : ℚ) / 2 = (em.mantissa / 2 : ℕ) + half (em.mantissa % 2 != 0) := by
    have hDivMod : (em.mantissa : ℚ) = 2 * (em.mantissa / 2 : ℕ) + (em.mantissa % 2 : ℕ) := by
      exact_mod_cast (Nat.div_add_mod _ 2).symm
    rcases Nat.mod_two_eq_zero_or_one em.mantissa with hEven | hOdd
    · rw [hEven] at hDivMod
      norm_num [hEven, half]
      linarith
    · rw [hOdd] at hDivMod
      norm_num [hOdd, half]
      linarith
  have hLe := h.le
  have hLt := h.lt
  have hLow := half_nonneg em.roundBit
  have hHigh := half_le em.roundBit
  refine ⟨?_, ?_, ?_⟩ <;> simp only [ExtendedMantissa.shiftRightOne, ← hHalf]
  · linarith
  · linarith
  · rw [Bool.or_eq_false_iff, h.sticky]
    constructor
    · rintro ⟨hRound, rfl⟩
      simp [hRound, half]
    · intro hEq
      have hRound : half em.roundBit = 0 := by linarith
      refine ⟨?_, by linarith⟩
      cases hBit : em.roundBit with
      | false => rfl
      | true => norm_num [hBit, half] at hRound

theorem shiftRight (h : Locates em v) (k : ℕ) : Locates (em >>> k) (v / 2 ^ k) := by
  induction k with
  | zero =>
    rw [pow_zero, div_one]
    exact h
  | succ k ih =>
    rw [pow_succ, ← div_div]
    exact ih.shiftRightOne

theorem mantissa_le (h : Locates em v) : em.mantissa ≤ v := by
  linarith [h.le, half_nonneg em.roundBit]

theorem lt_mantissa_add_one (h : Locates em v) : v < em.mantissa + 1 := by
  linarith [h.lt, half_le em.roundBit]

/-- Above an odd mantissa, the middle is rounded up. -/
theorem lt_roundedMantissa_iff (h : Locates em v) (hOdd : n % 2 = 1) :
    n < em.roundedMantissa ↔ (n : ℚ) + 1 / 2 ≤ v := by
  have hLe := h.le
  have hLt := h.lt
  rw [roundedMantissa_eq]
  rcases Nat.lt_trichotomy em.mantissa n with hBelow | hEq | hAbove
  · have hNext : (em.mantissa : ℚ) + 1 ≤ n := by exact_mod_cast hBelow
    refine iff_of_false ?_ ?_
    · split <;> omega
    · linarith [half_le em.roundBit]
  · have hLast : em.mantissa % 2 = 1 := by rw [hEq, hOdd]
    rw [← hEq]
    cases hRound : em.roundBit with
    | false =>
      rw [hRound] at hLt
      norm_num [half] at hLt ⊢
      linarith
    | true =>
      rw [hRound] at hLe
      norm_num [half, hLast] at hLe ⊢
      exact hLe
  · have hNext : (n : ℚ) + 1 ≤ em.mantissa := by exact_mod_cast hAbove
    exact iff_of_true (by omega) (by linarith [half_nonneg em.roundBit])

end Locates

/-! ## Packing -/

/-- Zero, or a number of at most 53 bits with an exponent up to a bound. -/
def UpTo (high : ℤ) : UnpackedFloat → Prop
  | .zero _ => True
  | .finite _ m e _ => m < 2 ^ 53 ∧ e ≤ high
  | _ => False

/-- Packing makes an infinity of this. -/
def Overflows (f : UnpackedFloat) : Prop := (Float.Model.pack f).unpack.isInf = true

theorem UpTo.isInf_eq_false (h : UpTo high f) : f.isInf = false := by
  cases f with
  | infinity => exact h.elim
  | notANumber | zero | finite => rfl

theorem overflows_infinity (s : Sign) : Overflows (.infinity s) := by
  cases s <;> rfl

theorem not_overflows_zero (s : Sign) : ¬ Overflows (.zero s) := by
  cases s <;> exact nofun

theorem bias_eq : ((Format.binary64.exponentBias : ℕ) : ℤ) +
    (Format.binary64.mantissaBitsWithoutImplicit : ℕ) = 1075 := rfl

theorem pack_finite (hm : 0 < m) :
    UnpackedFloat.pack .binary64 (.finite s m e hm) =
      if 972 ≤ e then packedInfinity .binary64 s
      else if m.log2 + 1 = 53 then
        packComponents .binary64 s (BitVec.ofNat 11 (e + 1075).toNat) (BitVec.ofNat 52 m)
      else packComponents .binary64 s 0#11 (BitVec.ofNat 52 m) := by
  have hExponents : (2 : ℕ) ^ Format.binary64.exponentBits = 2048 := rfl
  have hLarge : 2048 ≤ (e + 1075).toNat + 1 ↔ 972 ≤ e := by omega
  unfold UnpackedFloat.pack
  dsimp only
  rw [add_assoc, bias_eq, hExponents]
  simp only [hLarge]
  rfl

/-- The greatest exponent is the mark of what is infinite or no number. -/
theorem upTo_unpack_packComponents {x : BitVec 11} {b : BitVec 52} (hx : x ≠ -1#_)
    (hLow : -1074 ≤ high) (hExponent : (x.toNat : ℤ) - 1075 ≤ high) :
    UpTo high (UnpackedFloat.unpack .binary64 (packComponents .binary64 s x b)) := by
  have hBits : b.toNat < 2 ^ 53 := b.isLt.trans (by decide)
  unfold UnpackedFloat.unpack
  simp only [unpackExponent_packComponents, unpackMantissa_packComponents, if_neg hx]
  split
  · next hZero =>
    split
    · trivial
    · refine ⟨hBits, ?_⟩
      rw [hZero]
      exact hLow
  · exact ⟨(1#1 ++ b).isLt, hExponent⟩

/-- Packing makes no exponent greater, but for those below the lowest one. -/
theorem upTo_unpack_pack (hm : 0 < m) (he : e ≤ high) (hLow : -1074 ≤ high) (hTop : high ≤ 971) :
    UpTo high (Float.Model.pack (.finite s m e hm)).unpack := by
  show UpTo high (UnpackedFloat.unpack .binary64 (UnpackedFloat.pack .binary64 (.finite s m e hm)))
  rw [pack_finite, if_neg (by omega)]
  split
  · have hBiased : (BitVec.ofNat 11 (e + 1075).toNat).toNat = (e + 1075).toNat := by
      rw [BitVec.toNat_ofNat, Nat.mod_eq_of_lt (by omega)]
    refine upTo_unpack_packComponents (fun hMark => ?_) hLow (by omega)
    have hValue := congrArg BitVec.toNat hMark
    rw [hBiased, BitVec.neg_one_eq_allOnes, BitVec.toNat_allOnes] at hValue
    omega
  · exact upTo_unpack_packComponents (by decide) hLow (by simpa using by omega)

/-- What has a greater exponent than the greatest double is too large for one. -/
theorem overflows_finite_iff (hm : 0 < m) : Overflows (.finite s m e hm) ↔ 972 ≤ e := by
  by_cases hLarge : 972 ≤ e
  · refine iff_of_true ?_ hLarge
    show (UnpackedFloat.unpack .binary64 (UnpackedFloat.pack .binary64 _)).isInf = true
    rw [pack_finite, if_pos hLarge]
    cases s <;> rfl
  · have hUpTo : UpTo 971 (Float.Model.pack (.finite s m e hm)).unpack :=
      upTo_unpack_pack hm (by omega) (by decide) le_rfl
    exact iff_of_false (Bool.eq_false_iff.1 hUpTo.isInf_eq_false) hLarge

/-- No double has a greater exponent. -/
theorem exponent_unpack_le {b : BitVec 64} {hm : 0 < m}
    (h : UnpackedFloat.unpack .binary64 b = .finite s m e hm) : e ≤ 971 := by
  unfold UnpackedFloat.unpack at h
  dsimp only at h
  rw [bias_eq] at h
  split at h
  · split at h <;> cases h
  · next hMark =>
    have hExponent : (@unpackExponent .binary64 b).toNat ≠ 2047 := fun hEq =>
      hMark (BitVec.eq_of_toNat_eq hEq)
    have hLt : (@unpackExponent .binary64 b).toNat < 2048 := BitVec.isLt _
    split at h
    · next hZero =>
      split at h
      · cases h
      · cases h
        rw [hZero]
        decide
    · cases h
      omega

/-! ## Rounding -/

theorem log2_lt_of_lt {k : ℕ} (hk : 0 < k) (h : m < 2 ^ k) : m.log2 < k := by
  by_cases hm : m = 0
  · rwa [hm, Nat.log2_zero]
  · exact (Nat.log2_lt hm).2 h

/-- How many bits are dropped from a mantissa. -/
def dropped (m : ℕ) (e : ℤ) : ℕ :=
  (Format.binary64.targetExponent (totalExponent m e) - e).toNat

theorem dropped_eq (m : ℕ) (e : ℤ) :
    (dropped m e : ℤ) = max 0 (max ((m.log2 : ℤ) - 52) (-1074 - e)) := by
  have hTarget : Format.binary64.targetExponent (totalExponent m e) =
      max (m.log2 + 1 + e - 53) (-1074) := rfl
  rw [dropped, hTarget]
  omega

/-- The mantissa that is left when these bits have been dropped and the rest has been rounded. -/
def roundedTo (m : ℕ) (e : ℤ) (a : Accuracy) : ℕ :=
  (ExtendedMantissa.ofMantissaAndAccuracy m a >>> dropped m e).roundedMantissa

theorem mantissa_ofMantissaAndAccuracy (m : ℕ) (a : Accuracy) :
    (ExtendedMantissa.ofMantissaAndAccuracy m a).mantissa = m := by
  cases a with
  | exact => rfl
  | inexact o => cases o <;> rfl

private theorem mantissa_shiftRight_eq_zero_iff (m k : ℕ) :
    (ExtendedMantissa.ofMantissaAndAccuracy m .exact >>> k).mantissa = 0 ↔ m < 2 ^ k := by
  have hLocates := (locates_exact m).shiftRight k
  have hLe := hLocates.mantissa_le
  have hLt := hLocates.lt_mantissa_add_one
  have hOne : (m : ℚ) / 2 ^ k < 1 ↔ m < 2 ^ k := by
    rw [div_lt_one (by positivity)]
    exact_mod_cast Iff.rfl
  rw [← hOne]
  constructor
  · intro hZero
    rwa [hZero, Nat.cast_zero, zero_add] at hLt
  · intro hSmall
    have hBelow : ((ExtendedMantissa.ofMantissaAndAccuracy m .exact >>> k).mantissa : ℚ) < 1 :=
      lt_of_le_of_lt hLe hSmall
    exact Nat.lt_one_iff.1 (by exact_mod_cast hBelow)

theorem roundWithAccuracy_eq (s : Sign) (m : ℕ) (e : ℤ) (a : Accuracy) :
    roundWithAccuracy .binary64 s m e a =
      if hm : (ExtendedMantissa.ofMantissaAndAccuracy (roundedTo m e a) .exact >>>
          dropped (roundedTo m e a) (e + dropped m e)).mantissa = 0 then .zero s
      else .finite s _ (e + dropped m e + dropped (roundedTo m e a) (e + dropped m e))
        (Nat.pos_of_ne_zero hm) := rfl

/-- Where doubles end: in the middle between the greatest one and the next power of two. -/
def overflowBound : ℚ := (2 ^ 53 - 1 / 2) * 2 ^ (971 : ℤ)

theorem scaled_mul (w : ℚ) (k : ℕ) (e : ℤ) : w / 2 ^ k * 2 ^ (e + k) = w * 2 ^ e := by
  rw [zpow_add₀ two_ne_zero, zpow_natCast]
  field_simp

section

variable (h : Locates (.ofMantissaAndAccuracy m a) w)
include h

/-- At most 53 bits are left. -/
theorem scaled_lt (e : ℤ) : w / 2 ^ dropped m e < 2 ^ 53 := by
  have hNext : w < m + 1 := by
    simpa only [mantissa_ofMantissaAndAccuracy] using h.lt_mantissa_add_one
  have hLog : (m : ℚ) + 1 ≤ 2 ^ (m.log2 + 1) := by exact_mod_cast Nat.lt_log2_self (n := m)
  have hBits : (2 : ℚ) ^ (m.log2 + 1) ≤ 2 ^ (53 + dropped m e) :=
    pow_le_pow_right₀ one_le_two (by have := dropped_eq m e; omega)
  rw [div_lt_iff₀ (by positivity), ← pow_add]
  linarith

theorem roundedTo_le (e : ℤ) : roundedTo m e a ≤ 2 ^ 53 := by
  have hMantissa := (h.shiftRight (dropped m e)).mantissa_le
  have hBelow : ((ExtendedMantissa.ofMantissaAndAccuracy m a >>> dropped m e).mantissa : ℚ) <
      (2 ^ 53 : ℕ) := by
    exact_mod_cast lt_of_le_of_lt hMantissa (scaled_lt h e)
  have hNat : (ExtendedMantissa.ofMantissaAndAccuracy m a >>> dropped m e).mantissa < 2 ^ 53 := by
    exact_mod_cast hBelow
  exact (roundedMantissa_bounds _).2.trans hNat

/-- Bits are dropped for a second time only if the mantissa has been rounded up to one bit more. -/
theorem dropped_roundedTo (e : ℤ) :
    dropped (roundedTo m e a) (e + dropped m e) = if roundedTo m e a = 2 ^ 53 then 1 else 0 := by
  have hFirst := dropped_eq m e
  have hAgain := dropped_eq (roundedTo m e a) (e + dropped m e)
  have hLe := roundedTo_le h e
  generalize roundedTo m e a = r at hAgain hLe ⊢
  split
  · next hCarry =>
    subst hCarry
    rw [Nat.log2_two_pow] at hAgain
    omega
  · next hCarry =>
    have hLog : r.log2 < 53 := log2_lt_of_lt (by decide) (by omega)
    omega

/-- Rounding adds at most one to the exponent that is left after bits have been dropped. -/
theorem upTo_unpack_roundWithAccuracy (he : e + dropped m e < high) (hLow : -1074 ≤ high)
    (hTop : high ≤ 971) :
    UpTo high (Float.Model.pack (roundWithAccuracy .binary64 s m e a)).unpack := by
  have hAgain := dropped_roundedTo h e
  rw [roundWithAccuracy_eq]
  split
  · cases s <;> trivial
  · refine upTo_unpack_pack _ ?_ hLow hTop
    rw [hAgain]
    split <;> omega

/-- The exponent is too great after the first rounding, or else the mantissa is, which has been
rounded up to one bit more. -/
theorem overflows_iff_roundedTo :
    Overflows (roundWithAccuracy .binary64 s m e a) ↔
      972 ≤ e + dropped m e ∧ roundedTo m e a ≠ 0 ∨
        e + dropped m e = 971 ∧ 2 ^ 53 ≤ roundedTo m e a := by
  have hLe := roundedTo_le h e
  have hAgain := dropped_roundedTo h e
  have hZero := mantissa_shiftRight_eq_zero_iff (roundedTo m e a)
    (dropped (roundedTo m e a) (e + dropped m e))
  have hRound : Overflows (roundWithAccuracy .binary64 s m e a) ↔
      ¬ roundedTo m e a < 2 ^ dropped (roundedTo m e a) (e + dropped m e) ∧
        972 ≤ e + dropped m e + dropped (roundedTo m e a) (e + dropped m e) := by
    rw [← hZero, roundWithAccuracy_eq]
    split
    · next hm => exact iff_of_false (not_overflows_zero s) fun hBoth => hBoth.1 hm
    · next hm => exact (overflows_finite_iff _).trans (and_iff_right hm).symm
  rw [hRound, hAgain]
  by_cases hCarry : roundedTo m e a = 2 ^ 53
  · rw [if_pos hCarry, hCarry]
    norm_num
    omega
  · rw [if_neg hCarry]
    omega

/-- A number far enough below the bound is rounded to a double, however few bits it has. -/
theorem not_overflows_roundWithAccuracy (hSmall : e + dropped m e ≤ 970) :
    ¬ Overflows (roundWithAccuracy .binary64 s m e a) := by
  have hUpTo : UpTo 971 (Float.Model.pack (roundWithAccuracy .binary64 s m e a)).unpack :=
    upTo_unpack_roundWithAccuracy h (Int.lt_add_one_of_le hSmall) (by decide) le_rfl
  exact Bool.eq_false_iff.1 hUpTo.isInf_eq_false

/-- The greatest double is passed from the middle on. -/
theorem le_roundedTo_iff (e : ℤ) :
    2 ^ 53 ≤ roundedTo m e a ↔ (2 : ℚ) ^ 53 - 1 / 2 ≤ w / 2 ^ dropped m e := by
  have hUp := (h.shiftRight (dropped m e)).lt_roundedMantissa_iff (n := 2 ^ 53 - 1) (by norm_num)
  have hMiddle : ((2 ^ 53 - 1 : ℕ) : ℚ) + 1 / 2 = 2 ^ 53 - 1 / 2 := by norm_num
  rw [← hMiddle, ← hUp]
  show _ ↔ 2 ^ 53 - 1 < roundedTo m e a
  omega

private theorem scaled_lt_overflowBound (hSmall : e + dropped m e ≤ 970) :
    w * 2 ^ e < overflowBound := by
  have hPos : (0 : ℚ) < 2 ^ (e + dropped m e) := by positivity
  have hPower : (2 : ℚ) ^ (e + dropped m e) ≤ 2 ^ (970 : ℤ) :=
    zpow_le_zpow_right₀ one_le_two hSmall
  have hStep : (2 : ℚ) ^ (971 : ℤ) = 2 ^ (970 : ℤ) * 2 := zpow_add_one₀ two_ne_zero 970
  have hUnit : (0 : ℚ) < 2 ^ (970 : ℤ) := by positivity
  calc w * 2 ^ e = w / 2 ^ dropped m e * 2 ^ (e + dropped m e) := (scaled_mul w _ e).symm
    _ < 2 ^ 53 * 2 ^ (e + dropped m e) := mul_lt_mul_of_pos_right (scaled_lt h e) hPos
    _ ≤ 2 ^ 53 * 2 ^ (970 : ℤ) := mul_le_mul_of_nonneg_left hPower (by positivity)
    _ < overflowBound := by
        rw [overflowBound, hStep]
        generalize (2 : ℚ) ^ (970 : ℤ) = unit at hUnit ⊢
        linarith only [hUnit]

section

variable (hFull : m.log2 = 52 + dropped m e)
include hFull

/-- All 53 bits are left of a mantissa that has had as many or more. -/
theorem le_scaled : (2 : ℚ) ^ 52 ≤ w / 2 ^ dropped m e := by
  have hNonzero : m ≠ 0 := by
    rintro rfl
    rw [Nat.log2_zero] at hFull
    omega
  have hMantissa : (m : ℚ) ≤ w := by
    simpa only [mantissa_ofMantissaAndAccuracy] using h.mantissa_le
  have hBits : (2 : ℚ) ^ (52 + dropped m e) ≤ m := by
    rw [← hFull]
    exact_mod_cast Nat.log2_self_le hNonzero
  rw [le_div_iff₀ (by positivity), ← pow_add]
  linarith

private theorem roundedTo_ne_zero : roundedTo m e a ≠ 0 := by
  intro hZero
  have hScaled := le_scaled h hFull
  have hNext := (h.shiftRight (dropped m e)).lt_mantissa_add_one
  have hMantissa : (ExtendedMantissa.ofMantissaAndAccuracy m a >>> dropped m e).mantissa = 0 :=
    Nat.le_zero.1 (hZero ▸ (roundedMantissa_bounds _).1)
  rw [hMantissa] at hNext
  norm_num at hNext
  linarith

private theorem overflowBound_le_scaled (hLarge : 972 ≤ e + dropped m e) :
    overflowBound ≤ w * 2 ^ e := by
  have hScaled := le_scaled h hFull
  have hPower : (2 : ℚ) ^ (972 : ℤ) ≤ 2 ^ (e + dropped m e) :=
    zpow_le_zpow_right₀ one_le_two hLarge
  have hStep : (2 : ℚ) ^ (972 : ℤ) = 2 ^ (971 : ℤ) * 2 := zpow_add_one₀ two_ne_zero 971
  have hUnit : (0 : ℚ) < 2 ^ (971 : ℤ) := by positivity
  calc overflowBound ≤ 2 ^ 52 * 2 ^ (972 : ℤ) := by
        rw [overflowBound, hStep]
        generalize (2 : ℚ) ^ (971 : ℤ) = unit at hUnit ⊢
        linarith only [hUnit]
    _ ≤ w / 2 ^ dropped m e * 2 ^ (e + dropped m e) :=
        mul_le_mul hScaled hPower (by positivity) (le_trans (by positivity) hScaled)
    _ = w * 2 ^ e := scaled_mul w _ e

end

/-- A number is rounded to an infinity from the bound on, if it has enough bits to be rounded. -/
theorem overflows_roundWithAccuracy_iff (hFit : 52 ≤ m.log2 ∨ e ≤ -1074) :
    Overflows (roundWithAccuracy .binary64 s m e a) ↔ overflowBound ≤ w * 2 ^ e := by
  have hFirst := dropped_eq m e
  rw [overflows_iff_roundedTo h]
  -- Only with the exponent of the greatest double does it matter what the mantissa is rounded to.
  rcases lt_trichotomy (e + dropped m e) 971 with hBelow | hEdge | hAbove
  · exact iff_of_false (by omega) (not_le_of_gt (scaled_lt_overflowBound h (by omega)))
  · rw [← scaled_mul w (dropped m e) e, overflowBound, hEdge,
      mul_le_mul_iff_left₀ (by positivity), ← le_roundedTo_iff h]
    omega
  · have hFull : m.log2 = 52 + dropped m e := by omega
    exact iff_of_true (.inl ⟨by omega, roundedTo_ne_zero h hFull⟩)
      (overflowBound_le_scaled h hFull (by omega))

end

end ViewMarkup.Decimal
