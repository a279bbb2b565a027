import Mathlib
import ViewMarkup.Decimal.Literal

/-!
# Literals that are numbers

No literal denotes a double that is not a number: such doubles come from no rounding, and from no
product or quotient with a power of ten. So a literal that is not above zero is zero or below.

## Main results

* `Decimal.Literal.isNumber_toFloat` — what a literal denotes is a number.
* `Decimal.lt_of_not_le` — numbers are compared with zero in one of both directions.
-/

namespace ViewMarkup.Decimal

open Float.Model

variable {x y : Float} {f g : UnpackedFloat}

/-! ## Unpacked doubles -/

/-- Whether this is a number, finite or not. -/
def IsUnpackedNumber (f : UnpackedFloat) : Prop := f ≠ .notANumber

/-- Whether this is a finite number other than zero. -/
def isFiniteNonzero : UnpackedFloat → Bool
  | .finite .. => true
  | _ => false

theorem isUnpackedNumber_roundWithAccuracy (format : Format) (s : UnpackedFloat.Sign) (m : Nat)
    (e : Int) (a : UnpackedFloat.Accuracy) :
    IsUnpackedNumber (UnpackedFloat.roundWithAccuracy format s m e a) := by
  unfold UnpackedFloat.roundWithAccuracy
  dsimp only
  split <;> exact nofun

private theorem isUnpackedNumber_ofNat (format : Format) (n : Nat) :
    IsUnpackedNumber (UnpackedFloat.ofNat format n) := by
  unfold UnpackedFloat.ofNat UnpackedFloat.ofInt UnpackedFloat.normalize
  split
  · exact isUnpackedNumber_roundWithAccuracy _ _ _ _ _
  · exact nofun
  · exact isUnpackedNumber_roundWithAccuracy _ _ _ _ _

private theorem isUnpackedNumber_neg (hf : IsUnpackedNumber f) : IsUnpackedNumber f.neg := by
  cases f with
  | notANumber => exact absurd rfl hf
  | infinity | zero | finite => exact nofun

theorem isUnpackedNumber_mul (format : Format) (hf : IsUnpackedNumber f)
    (hg : isFiniteNonzero g = true) :
    IsUnpackedNumber (UnpackedFloat.mul format f g) := by
  cases g with
  | finite =>
    cases f with
    | notANumber => exact absurd rfl hf
    | finite => exact isUnpackedNumber_roundWithAccuracy _ _ _ _ _
    | infinity | zero => exact nofun
  | infinity | notANumber | zero => cases hg

theorem isUnpackedNumber_div (format : Format) (hf : IsUnpackedNumber f)
    (hg : isFiniteNonzero g = true) :
    IsUnpackedNumber (UnpackedFloat.div format f g) := by
  cases g with
  | finite =>
    cases f with
    | notANumber => exact absurd rfl hf
    | finite => exact isUnpackedNumber_roundWithAccuracy _ _ _ _ _
    | infinity | zero => exact nofun
  | infinity | notANumber | zero => cases hg

private theorem isUnpackedNumber_ofScientific (format : Format) (m : Nat) (e : Int) :
    IsUnpackedNumber (UnpackedFloat.ofScientific format m e) := by
  unfold UnpackedFloat.ofScientific
  split
  · exact nofun
  · split
    · exact nofun
    · split
      · exact nofun
      · split
        · exact isUnpackedNumber_mul format nofun rfl
        · exact isUnpackedNumber_div format nofun rfl

/-! ## Packing -/

/-- The greatest exponent is the mark of what is no number. -/
theorem isUnpackedNumber_unpack_packComponents {format : Format} {s : UnpackedFloat.Sign}
    {e : BitVec format.exponentBits} {m : BitVec format.mantissaBitsWithoutImplicit}
    (he : e ≠ -1#_) :
    IsUnpackedNumber (UnpackedFloat.unpack format (UnpackedFloat.packComponents format s e m)) := by
  unfold UnpackedFloat.unpack
  simp only [UnpackedFloat.unpackExponent_packComponents, if_neg he]
  split
  · split <;> exact nofun
  · exact nofun

/-- Packing makes nothing else of a number. -/
theorem isUnpackedNumber_unpack_pack (hf : IsUnpackedNumber f) :
    IsUnpackedNumber (Float.Model.pack f).unpack := by
  show IsUnpackedNumber (.unpack .binary64 (UnpackedFloat.pack .binary64 f))
  cases f with
  | notANumber => exact absurd rfl hf
  | infinity s => cases s <;> exact nofun
  | zero s => cases s <;> exact nofun
  | finite s m e hm =>
    unfold UnpackedFloat.pack
    dsimp only
    split
    · cases s <;> exact nofun
    · next hSmall =>
      have hExponents : (2 : Nat) ^ Format.binary64.exponentBits = 2048 := rfl
      split
      · refine isUnpackedNumber_unpack_packComponents fun hTop => ?_
        have hValue := congrArg BitVec.toNat hTop
        rw [BitVec.toNat_ofNat, Nat.mod_eq_of_lt (by omega), BitVec.neg_one_eq_allOnes,
          BitVec.toNat_allOnes] at hValue
        omega
      · exact isUnpackedNumber_unpack_packComponents (by decide)

/-! ## Doubles -/

/-- Whether the double is a number, finite or not. -/
def IsNumber (x : Float) : Prop := IsUnpackedNumber x.toModel.unpack

private theorem isNumber_neg (hx : IsNumber x) : IsNumber (-x) :=
  isUnpackedNumber_unpack_pack (isUnpackedNumber_neg hx)

private theorem isNumber_mul (hx : IsNumber x) (hy : isFiniteNonzero y.toModel.unpack = true) :
    IsNumber (x * y) :=
  isUnpackedNumber_unpack_pack (isUnpackedNumber_mul _ hx hy)

private theorem isNumber_div (hx : IsNumber x) (hy : isFiniteNonzero y.toModel.unpack = true) :
    IsNumber (x / y) :=
  isUnpackedNumber_unpack_pack (isUnpackedNumber_div _ hx hy)

private theorem isNumber_toFloat (n : UInt64) : IsNumber n.toFloat :=
  isUnpackedNumber_unpack_pack (isUnpackedNumber_ofNat _ _)

private theorem isFiniteNonzero_powersOfTen : ∀ e : Fin Float.exactlyRepresentablePowersOfTen.size,
    isFiniteNonzero Float.exactlyRepresentablePowersOfTen[e].toModel.unpack = true := by
  decide +kernel

private theorem isNumber_ofScientific (m : Nat) (negative : Bool) (e : Nat) :
    IsNumber (Float.ofScientific m negative e) := by
  unfold Float.ofScientific
  split
  · next h =>
    have hPower := isFiniteNonzero_powersOfTen ⟨e, Nat.lt_succ_of_le h.2⟩
    dsimp only
    split
    · exact isNumber_div (isNumber_toFloat _) hPower
    · exact isNumber_mul (isNumber_toFloat _) hPower
  · exact isUnpackedNumber_unpack_pack (isUnpackedNumber_ofScientific _ _ _)

theorem unpack_zero : (0.0 : Float).toModel.unpack = .zero .positive := rfl

private theorem unpack_infinity : (1.0 / 0.0 : Float).toModel.unpack = .infinity .positive := rfl

private theorem isNumber_ofDecimal (m : Nat) (e : Int) : IsNumber (ofDecimal m e) := by
  have hZero : IsNumber 0.0 := by
    rw [IsNumber, unpack_zero]
    exact nofun
  unfold ofDecimal
  dsimp only
  split
  · exact hZero
  · split
    · rw [IsNumber, unpack_infinity]
      exact nofun
    · split
      · exact hZero
      · split <;> exact isNumber_ofScientific _ _ _

/-- What a literal denotes is a number, finite or not. -/
theorem Literal.isNumber_toFloat (l : Literal) : IsNumber l.toFloat := by
  unfold Literal.toFloat withSign
  split
  · exact isNumber_neg (isNumber_ofDecimal _ _)
  · exact isNumber_ofDecimal _ _

/-! ## Comparing with zero -/

theorem le_iff : x ≤ y ↔ x.toModel.unpack.le y.toModel.unpack = true := decide_eq_true_iff

theorem lt_iff : x < y ↔ x.toModel.unpack.lt y.toModel.unpack = true := decide_eq_true_iff

/-- Not a number is all that is neither above zero nor at most zero. -/
theorem zero_lt_iff (f : UnpackedFloat) :
    UnpackedFloat.lt (.zero .positive) f = true ↔
      IsUnpackedNumber f ∧ ¬ f.le (.zero .positive) = true := by
  cases f with
  | notANumber => exact iff_of_false (by decide) fun h => h.1 rfl
  | infinity s | zero s | finite s =>
    refine Iff.trans ?_ (and_iff_right nofun).symm
    cases s <;> simp [UnpackedFloat.lt, UnpackedFloat.le, UnpackedFloat.compare]

/-- A number that is not zero or below is above zero. -/
theorem lt_of_not_le (hx : IsNumber x) (h : ¬ x ≤ 0.0) : 0.0 < x := by
  rw [le_iff, unpack_zero] at h
  rw [lt_iff, unpack_zero]
  exact (zero_lt_iff _).2 ⟨hx, h⟩

theorem not_le_of_lt (h : 0.0 < x) : ¬ x ≤ 0.0 := by
  rw [lt_iff, unpack_zero] at h
  rw [le_iff, unpack_zero]
  exact ((zero_lt_iff _).1 h).2

end ViewMarkup.Decimal
