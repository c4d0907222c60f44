import Mathlib

/-!
# What rounding leaves of a floating-point number

A floating-point number of 32 bits is a mantissa of 24 bits and a power of two.  Each operation finds a
mantissa, with a round bit and a sticky bit for what does not fit, and rounds it to the nearest.  Above
the least exponent this takes away half a unit of the last place at most, so the result is at least
`1 - 1 / 2 ^ 24` of what it would be without rounding (`Binary32.atLeast_roundWithAccuracy`).

Lower bounds of the operands are lower bounds of the result in this sense, for whole numbers, sums,
products and quotients (`Binary32.reaches_toFloat32`, `reaches_add`, `reaches_mul`, `reaches_div`).  What
is too great for the format is infinite, and infinity is above every bound.
-/

namespace DeviceAccess.Binary32

open Float.Model Float.Model.UnpackedFloat

variable {em : ExtendedMantissa} {p q : ℚ}

/-! ### Mantissas with a round bit and a sticky bit -/

/-- The most that a mantissa with its round bit and its sticky bit stands for. -/
def bound (em : ExtendedMantissa) : ℚ :=
  em.mantissa +
    if em.roundBit && em.stickyBit then 1 else if em.roundBit || em.stickyBit then 1 / 2 else 0

theorem half_le_bound (h : q ≤ bound em) : q / 2 ≤ bound em.shiftRightOne := by
  obtain ⟨m, r, s⟩ := em
  have hdiv : ((m % 2 : ℕ) : ℚ) + 2 * ((m / 2 : ℕ) : ℚ) = m := by exact_mod_cast Nat.mod_add_div m 2
  rcases Nat.mod_two_eq_zero_or_one m with hm | hm
  · rw [hm] at hdiv
    cases r <;> cases s <;> simp [bound, ExtendedMantissa.shiftRightOne, hm] at h ⊢ <;> linarith
  · rw [hm] at hdiv
    cases r <;> cases s <;> simp [bound, ExtendedMantissa.shiftRightOne, hm] at h ⊢ <;> linarith

theorem div_le_bound (h : q ≤ bound em) (k : ℕ) : q / 2 ^ k ≤ bound (em >>> k) := by
  show q / 2 ^ k ≤ bound (k.repeat ExtendedMantissa.shiftRightOne em)
  induction k with
  | zero => simpa [Nat.repeat] using h
  | succ k ih =>
      rw [pow_succ, ← div_div]
      exact half_le_bound ih

theorem mantissa_shiftRight (em : ExtendedMantissa) (k : ℕ) :
    (em >>> k).mantissa = em.mantissa / 2 ^ k := by
  show (k.repeat ExtendedMantissa.shiftRightOne em).mantissa = _
  induction k with
  | zero => simp [Nat.repeat]
  | succ k ih =>
      show (k.repeat ExtendedMantissa.shiftRightOne em).mantissa / 2 = _
      rw [ih, Nat.div_div_eq_div_mul, pow_succ]

theorem mantissa_ofMantissaAndAccuracy (m : ℕ) (accuracy : Accuracy) :
    (ExtendedMantissa.ofMantissaAndAccuracy m accuracy).mantissa = m := by
  cases accuracy with
  | exact => rfl
  | inexact o => cases o <;> rfl

theorem le_bound_exact (m : ℕ) : (m : ℚ) ≤ bound (.ofMantissaAndAccuracy m .exact) := by
  simp [bound, ExtendedMantissa.ofMantissaAndAccuracy]

/-- A quotient and how its remainder compares with half of the divisor. -/
theorem div_le_bound_accuracyOfFraction {m n : ℕ} (hn : 0 < n) :
    (m : ℚ) / n ≤ bound (.ofMantissaAndAccuracy (m / n) (accuracyOfFraction (m % n) n)) := by
  have hdiv : ((m % n : ℕ) : ℚ) + n * ((m / n : ℕ) : ℚ) = m := by exact_mod_cast Nat.mod_add_div m n
  have hlt : ((m % n : ℕ) : ℚ) < n := by exact_mod_cast Nat.mod_lt m hn
  rw [div_le_iff₀ (by exact_mod_cast hn), ← hdiv]
  unfold accuracyOfFraction
  split
  · next hzero =>
      rw [hzero]
      simp [bound, ExtendedMantissa.ofMantissaAndAccuracy]
      linarith
  · cases hcompare : compare (2 * (m % n)) n with
    | lt =>
        have : 2 * ((m % n : ℕ) : ℚ) < n := by exact_mod_cast compare_lt_iff_lt.1 hcompare
        simp [bound, ExtendedMantissa.ofMantissaAndAccuracy]
        linarith
    | eq =>
        have : 2 * ((m % n : ℕ) : ℚ) = n := by exact_mod_cast compare_eq_iff_eq.1 hcompare
        simp [bound, ExtendedMantissa.ofMantissaAndAccuracy]
        linarith
    | gt =>
        simp [bound, ExtendedMantissa.ofMantissaAndAccuracy]
        linarith

/-- Rounding to the nearest takes away one half at most. -/
theorem bound_le_roundedMantissa (em : ExtendedMantissa) :
    bound em ≤ em.roundedMantissa + 1 / 2 := by
  obtain ⟨m, r, s⟩ := em
  cases r <;> cases s <;>
    simp [bound, ExtendedMantissa.roundedMantissa, ExtendedMantissa.accuracy,
      Accuracy.roundToNearestEven]

theorem mantissa_le_roundedMantissa (em : ExtendedMantissa) :
    em.mantissa ≤ em.roundedMantissa ∧ em.roundedMantissa ≤ em.mantissa + 1 := by
  obtain ⟨m, r, s⟩ := em
  cases r <;> cases s <;>
    simp [ExtendedMantissa.roundedMantissa, ExtendedMantissa.accuracy, Accuracy.roundToNearestEven]
  omega

/-! ### Rounding -/

/-- More digits of a mantissa do not change what it stands for. -/
theorem mul_zpow_eq {m s : ℕ} {d e : ℤ} (hd : d = e + s) :
    (m : ℚ) * 2 ^ d = ((m * 2 ^ s : ℕ) : ℚ) * 2 ^ e := by
  rw [hd, add_comm, zpow_add₀ (by norm_num), zpow_natCast]
  push_cast
  ring

theorem lt_zpow_log2 (m : ℕ) (e : ℤ) : (m : ℚ) * 2 ^ e < 2 ^ ((m.log2 : ℤ) + e + 1) := by
  rw [add_right_comm, zpow_add₀ (by norm_num)]
  refine mul_lt_mul_of_pos_right ?_ (by positivity)
  exact_mod_cast Nat.lt_log2_self

/-- A value has as many digits as a power of two that is not above it. -/
theorem le_log2_of_zpow_le {m : ℕ} {d e : ℤ} (h : (2 : ℚ) ^ d ≤ m * 2 ^ e) : d ≤ m.log2 + e := by
  have := (zpow_lt_zpow_iff_right₀ (by norm_num : (1 : ℚ) < 2)).1 (h.trans_lt (lt_zpow_log2 m e))
  omega

theorem shiftToTargetExponent_eq {m k : ℕ} {e : ℤ} (accuracy : Accuracy) (hk : m.log2 = 23 + k)
    (hnormal : -126 ≤ m.log2 + e) :
    shiftToTargetExponent .binary32 m e accuracy =
      (ExtendedMantissa.ofMantissaAndAccuracy m accuracy >>> k, e + k) := by
  have htarget : Format.binary32.targetExponent (totalExponent m e) = e + k := by
    show max ((m.log2 : ℤ) + 1 + e - 24) (-149) = e + k
    omega
  have hshift : (e + (k : ℤ) - e).toNat = k := by omega
  simp only [shiftToTargetExponent, shiftToExponent, htarget, hshift]

/-- A mantissa that is cut off after 24 digits and rounded may have one digit more. -/
theorem roundedMantissa_mem {m k : ℕ} (accuracy : Accuracy) (hm : m ≠ 0) (hk : m.log2 = 23 + k) :
    let r := (ExtendedMantissa.ofMantissaAndAccuracy m accuracy >>> k).roundedMantissa
    2 ^ 23 ≤ r ∧ r ≤ 2 ^ 24 := by
  obtain ⟨hlow, hhigh⟩ := (Nat.log2_eq_iff hm).1 hk
  have hrounded :=
    mantissa_le_roundedMantissa (ExtendedMantissa.ofMantissaAndAccuracy m accuracy >>> k)
  rw [mantissa_shiftRight, mantissa_ofMantissaAndAccuracy] at hrounded
  have hfloor : 2 ^ 23 ≤ m / 2 ^ k := by
    rw [Nat.le_div_iff_mul_le (by positivity), ← pow_add]
    exact hlow
  have hfloor' : m / 2 ^ k < 2 ^ 24 := by
    rw [Nat.div_lt_iff_lt_mul (by positivity), ← pow_add]
    exact hhigh.trans_eq (congrArg (2 ^ ·) (by omega))
  intro r
  omega

/-- Rounding ends with a mantissa of 24 digits, also after a carry. -/
theorem exists_roundWithAccuracy_eq {m k : ℕ} {e : ℤ} (accuracy : Accuracy) (hm : m ≠ 0)
    (hk : m.log2 = 23 + k) (hnormal : -126 ≤ m.log2 + e) :
    let r := (ExtendedMantissa.ofMantissaAndAccuracy m accuracy >>> k).roundedMantissa
    ∃ (n : ℕ) (f : ℤ) (h : 0 < n),
      roundWithAccuracy .binary32 .positive m e accuracy = .finite .positive n f h ∧
        2 ^ 23 ≤ n ∧ n < 2 ^ 24 ∧ -149 ≤ f ∧ (n : ℚ) * 2 ^ f = r * 2 ^ (e + k) := by
  intro r
  obtain ⟨hlow, hhigh⟩ : 2 ^ 23 ≤ r ∧ r ≤ 2 ^ 24 := roundedMantissa_mem accuracy hm hk
  have hround : roundWithAccuracy .binary32 .positive m e accuracy =
      let (final, exponent) := shiftToTargetExponent .binary32 r (e + k) .exact
      if h : final.mantissa = 0 then .zero .positive
      else .finite .positive final.mantissa exponent (Nat.pos_of_ne_zero h) := by
    unfold roundWithAccuracy
    rw [shiftToTargetExponent_eq accuracy hk hnormal]
  have hr : r ≠ 0 := by omega
  by_cases hcarry : r < 2 ^ 24
  · have hlog : r.log2 = 23 + 0 := (Nat.log2_eq_iff hr).2 ⟨hlow, hcarry⟩
    have hfinal : (ExtendedMantissa.ofMantissaAndAccuracy r .exact >>> 0).mantissa = r := rfl
    rw [shiftToTargetExponent_eq .exact hlog (by omega)] at hround
    simp only [hfinal, dif_neg hr] at hround
    exact ⟨_, _, _, hround, hlow, hcarry, by omega, by simp⟩
  · obtain hr : r = 2 ^ 24 := by omega
    have hlog : r.log2 = 23 + 1 := by
      rw [hr]
      exact Nat.log2_two_pow
    have hfinal : (ExtendedMantissa.ofMantissaAndAccuracy r .exact >>> 1).mantissa = 2 ^ 23 := by
      rw [mantissa_shiftRight, mantissa_ofMantissaAndAccuracy, hr]
      norm_num
    rw [shiftToTargetExponent_eq .exact hlog (by omega)] at hround
    simp only [hfinal] at hround
    refine ⟨_, _, _, hround, by omega, by omega, by omega, ?_⟩
    rw [mul_zpow_eq rfl, hr]
    norm_num

/-! ### Lower bounds -/

/-- A number is infinite, or it has all the precision there is and is not below a bound. -/
inductive AtLeast (q : ℚ) : UnpackedFloat → Prop
  | infinity : AtLeast q (.infinity .positive)
  | finite {m : ℕ} {e : ℤ} (h : 0 < m) (low : 2 ^ 23 ≤ m) (high : m < 2 ^ 24)
      (exponent : -149 ≤ e) (value : q ≤ m * 2 ^ e) : AtLeast q (.finite .positive m e h)

theorem AtLeast.mono {x : UnpackedFloat} (h : AtLeast q x) (hpq : p ≤ q) : AtLeast p x := by
  cases h with
  | infinity => exact .infinity
  | finite h low high exponent value => exact .finite h low high exponent (hpq.trans value)

/-- **Rounding takes away half a unit of the last place at most.** -/
theorem atLeast_roundWithAccuracy {m : ℕ} {e : ℤ} {accuracy : Accuracy} (hm : 2 ^ 23 ≤ m)
    (hmq : m ≤ q) (hq : q ≤ bound (.ofMantissaAndAccuracy m accuracy)) (hnormal : -126 ≤ m.log2 + e) :
    AtLeast ((1 - 1 / 2 ^ 24) * (q * 2 ^ e)) (roundWithAccuracy .binary32 .positive m e accuracy) := by
  have hm0 : m ≠ 0 := by omega
  obtain ⟨k, hk⟩ : ∃ k, m.log2 = 23 + k :=
    ⟨m.log2 - 23, by have := (Nat.le_log2 hm0).2 hm; omega⟩
  obtain ⟨n, f, h, hround, hlow, hhigh, hexponent, hvalue⟩ :=
    exists_roundWithAccuracy_eq accuracy hm0 hk hnormal
  rw [hround]
  refine .finite h hlow hhigh hexponent ?_
  have hrounded := (div_le_bound hq k).trans (bound_le_roundedMantissa _)
  -- One half is little beside a mantissa of 24 digits.
  have hunit : (2 : ℚ) ^ 23 ≤ q / 2 ^ k := by
    have hpow : 2 ^ 23 * 2 ^ k ≤ m := (pow_add 2 23 k).symm.trans_le (hk ▸ Nat.log2_self_le hm0)
    rw [le_div_iff₀ (by positivity)]
    exact le_trans (by exact_mod_cast hpow) hmq
  have hsplit : q * 2 ^ e = q / 2 ^ k * (2 : ℚ) ^ (e + k) := by
    rw [zpow_add₀ (by norm_num), zpow_natCast]
    field_simp
  rw [hvalue, hsplit, ← mul_assoc]
  refine mul_le_mul_of_nonneg_right ?_ (by positivity)
  linarith

/-- A whole number with its exponent, rounded. -/
theorem atLeast_round {m : ℕ} {e : ℤ} (hm : 0 < m) (hnormal : -126 ≤ m.log2 + e) :
    AtLeast ((1 - 1 / 2 ^ 24) * (m * 2 ^ e)) (UnpackedFloat.round .binary32 .positive m e) := by
  obtain ⟨s, hs⟩ : ∃ s : ℕ, (e - max ((m.log2 : ℤ) + 1 + e - 24) (-149)).toNat = s := ⟨_, rfl⟩
  have htarget : (e - Format.binary32.targetExponent (totalExponent m e)).toNat = s := hs
  have hround : UnpackedFloat.round .binary32 .positive m e =
      roundWithAccuracy .binary32 .positive (m * 2 ^ s) (e - s) .exact := by
    simp only [UnpackedFloat.round, decreaseExponent, htarget, Nat.shiftLeft_eq]
  have hlog : (m * 2 ^ s).log2 = m.log2 + s := by
    rw [Nat.log2_eq_iff (by positivity), add_right_comm, pow_add, pow_add]
    exact ⟨Nat.mul_le_mul_right _ (Nat.log2_self_le hm.ne'),
      (Nat.mul_lt_mul_right (by positivity)).2 Nat.lt_log2_self⟩
  have hlow : 2 ^ 23 ≤ m * 2 ^ s := (Nat.le_log2 (by positivity)).1 (by omega)
  rw [hround, mul_zpow_eq (show e = e - s + s by omega)]
  exact atLeast_roundWithAccuracy hlow le_rfl (le_bound_exact _) (by omega)

/-! ### Operations -/

theorem normalize_natCast {m : ℕ} (hm : 0 < m) (e : ℤ) :
    UnpackedFloat.normalize .binary32 m e .positive = UnpackedFloat.round .binary32 .positive m e := by
  have hcompare : compare (m : ℤ) 0 = .gt := compare_gt_iff_gt.2 (by omega)
  unfold UnpackedFloat.normalize
  rw [hcompare]
  rfl

theorem atLeast_ofUInt64 {n : UInt64} (hn : 0 < n.toNat) :
    AtLeast ((1 - 1 / 2 ^ 24) * n.toNat) (UnpackedFloat.ofUInt64 .binary32 n) := by
  show AtLeast _ (UnpackedFloat.normalize .binary32 n.toNat 0 .positive)
  rw [normalize_natCast hn]
  exact (atLeast_round hn (by omega)).mono (by simp)

theorem atLeast_add {x y : UnpackedFloat} (hx : AtLeast p x) (hy : AtLeast q y) :
    AtLeast ((1 - 1 / 2 ^ 24) * (p + q)) (UnpackedFloat.add .binary32 x y) := by
  cases hx with
  | infinity =>
      cases hy with
      | infinity => exact .infinity
      | finite => exact .infinity
  | @finite m e h low high exponent value =>
      cases hy with
      | infinity => exact .infinity
      | @finite n f h' low' high' exponent' value' =>
          -- Both mantissas are brought to the smaller exponent, where they are added exactly.
          set a := m * 2 ^ (e - min e f).toNat with ha
          set b := n * 2 ^ (f - min e f).toNat with hb
          have hab : 2 ^ 23 ≤ a + b :=
            le_add_right (low.trans (Nat.le_mul_of_pos_right m (by positivity)))
          have hadd : UnpackedFloat.add .binary32 (.finite .positive m e h) (.finite .positive n f h') =
              UnpackedFloat.round .binary32 .positive (a + b) (min e f) := by
            show UnpackedFloat.normalize .binary32 (((m <<< (e - min e f).toNat : ℕ) : ℤ) +
              ((n <<< (f - min e f).toNat : ℕ) : ℤ)) (min e f) .positive = _
            rw [Nat.shiftLeft_eq, Nat.shiftLeft_eq, ← ha, ← hb, ← Nat.cast_add]
            exact normalize_natCast (by omega) _
          have hsum : p + q ≤ ((a + b : ℕ) : ℚ) * 2 ^ min e f := by
            have := value.trans_eq (mul_zpow_eq (show e = min e f + (e - min e f).toNat by omega))
            have := value'.trans_eq (mul_zpow_eq (show f = min e f + (f - min e f).toNat by omega))
            push_cast
            rw [add_mul]
            linarith
          have hlog : 23 ≤ (a + b).log2 := (Nat.le_log2 (by omega)).2 hab
          rw [hadd]
          refine (atLeast_round (by omega) (by omega)).mono ?_
          exact mul_le_mul_of_nonneg_left hsum (by norm_num)

theorem zero_add_of_atLeast {x : UnpackedFloat} (hx : AtLeast q x) :
    UnpackedFloat.add .binary32 (.zero .positive) x = x := by
  cases hx with
  | infinity => rfl
  | finite => rfl

theorem add_zero_of_atLeast {x : UnpackedFloat} (hx : AtLeast q x) :
    UnpackedFloat.add .binary32 x (.zero .positive) = x := by
  cases hx with
  | infinity => rfl
  | finite => rfl

theorem atLeast_mul {x y : UnpackedFloat} (hx : AtLeast p x) (hy : AtLeast q y) (hq : 0 ≤ q)
    (hpq : (2 : ℚ) ^ (-126 : ℤ) ≤ p * q) :
    AtLeast ((1 - 1 / 2 ^ 24) * (p * q)) (UnpackedFloat.mul .binary32 x y) := by
  cases hx with
  | infinity =>
      cases hy with
      | infinity => exact .infinity
      | finite => exact .infinity
  | @finite m e h low high exponent value =>
      cases hy with
      | infinity => exact .infinity
      | @finite n f h' low' high' exponent' value' =>
          have hproduct : p * q ≤ ((m * n : ℕ) : ℚ) * 2 ^ (e + f) := by
            calc p * q ≤ (m * 2 ^ e) * (n * 2 ^ f) := mul_le_mul value value' hq (by positivity)
              _ = ((m * n : ℕ) : ℚ) * 2 ^ (e + f) := by
                  rw [zpow_add₀ (by norm_num)]
                  push_cast
                  ring
          have hround : AtLeast ((1 - 1 / 2 ^ 24) * (((m * n : ℕ) : ℚ) * 2 ^ (e + f)))
              (roundWithAccuracy .binary32 .positive (m * n) (e + f) .exact) :=
            atLeast_roundWithAccuracy (low.trans (Nat.le_mul_of_pos_right m h')) le_rfl
              (le_bound_exact _) (le_log2_of_zpow_le (hpq.trans hproduct))
          exact hround.mono (mul_le_mul_of_nonneg_left hproduct (by norm_num))

theorem divCore_eq {m n : ℕ} {e f : ℤ} (hm : m.log2 = 23) (hn : n.log2 = 23) (he : f - 125 ≤ e) :
    divCore .binary32 m e n f =
      (m * 2 ^ 24 / n, e - f - 24, accuracyOfFraction (m * 2 ^ 24 % n) n) := by
  have htarget : min (e - f)
      (Format.binary32.targetExponent (totalExponent m e - totalExponent n f)) = e - f - 24 := by
    show min (e - f) (max (((m.log2 : ℤ) + 1 + e) - ((n.log2 : ℤ) + 1 + f) - 24) (-149)) = _
    omega
  have hshift : (e - f - (e - f - 24)).toNat = 24 := by omega
  simp only [divCore, htarget, hshift, Nat.shiftLeft_eq]

/-- Division by a number that is known. -/
theorem atLeast_div {x : UnpackedFloat} {n : ℕ} {f : ℤ} (hn : 0 < n) (hx : AtLeast q x)
    (hlow : 2 ^ 23 ≤ n) (hhigh : n < 2 ^ 24) (hq : (2 : ℚ) ^ (f - 102) ≤ q) :
    AtLeast ((1 - 1 / 2 ^ 24) * (q / (n * 2 ^ f)))
      (UnpackedFloat.div .binary32 x (.finite .positive n f hn)) := by
  cases hx with
  | infinity => exact .infinity
  | @finite m e h low high exponent value =>
      have hm : m.log2 = 23 := (Nat.log2_eq_iff h.ne').2 ⟨low, high⟩
      have hn' : n.log2 = 23 := (Nat.log2_eq_iff hn.ne').2 ⟨hlow, hhigh⟩
      have he : f - 125 ≤ e := by
        have := le_log2_of_zpow_le (hq.trans value)
        omega
      have hdiv : UnpackedFloat.div .binary32 (.finite .positive m e h) (.finite .positive n f hn) =
          roundWithAccuracy .binary32 .positive (m * 2 ^ 24 / n) (e - f - 24)
            (accuracyOfFraction (m * 2 ^ 24 % n) n) := by
        show (let (m, e, accuracy) := divCore .binary32 m e n f
          roundWithAccuracy .binary32 (Sign.positive / Sign.positive) m e accuracy) = _
        rw [divCore_eq hm hn' he]
        rfl
      have hquotient : 2 ^ 23 ≤ m * 2 ^ 24 / n := by
        rw [Nat.le_div_iff_mul_le hn]
        omega
      have hlog : 23 ≤ (m * 2 ^ 24 / n).log2 := (Nat.le_log2 (by omega)).2 hquotient
      have hvalue : q / (n * 2 ^ f) ≤ ((m * 2 ^ 24 : ℕ) : ℚ) / n * 2 ^ (e - f - 24) := by
        calc q / (n * 2 ^ f) ≤ m * 2 ^ e / (n * 2 ^ f) :=
              div_le_div_of_nonneg_right value (by positivity)
          _ = ((m * 2 ^ 24 : ℕ) : ℚ) / n * 2 ^ (e - f - 24) := by
              rw [sub_sub, zpow_sub₀ (by norm_num), zpow_add₀ (by norm_num)]
              push_cast
              field_simp
      rw [hdiv]
      refine (atLeast_roundWithAccuracy hquotient Nat.cast_div_le
        (div_le_bound_accuracyOfFraction hn) (by omega)).mono ?_
      exact mul_le_mul_of_nonneg_left hvalue (by norm_num)

/-! ### Numbers as bits -/

theorem toNat_unpackMantissa (b : BitVec 32) :
    (@unpackMantissa .binary32 b).toNat = b.toNat % 2 ^ 23 := by
  rw [unpackMantissa_def, BitVec.extractLsb'_toNat, Nat.shiftRight_zero]

theorem toNat_unpackSign (b : BitVec 32) :
    (@unpackSign .binary32 b).toNat = b.toNat / 2 ^ 31 % 2 := by
  rw [unpackSign_def, BitVec.extractLsb'_toNat, Nat.shiftRight_eq_div_pow]
  rfl

theorem toNat_unpackExponent (b : BitVec 32) :
    (@unpackExponent .binary32 b).toNat = b.toNat / 2 ^ 23 % 2 ^ 8 := by
  rw [unpackExponent_def, BitVec.extractLsb'_toNat, Nat.shiftRight_eq_div_pow]

theorem unpackExponent_eq_iff (b : BitVec 32) (e : BitVec 8) :
    @unpackExponent .binary32 b = e ↔ b.toNat / 2 ^ 23 % 2 ^ 8 = e.toNat := by
  rw [← toNat_unpackExponent]
  exact BitVec.toNat_inj.symm

theorem ofBitVec_unpackSign_iff (b : BitVec 32) :
    Sign.ofBitVec (@unpackSign .binary32 b) = .positive ↔ b.toNat / 2 ^ 31 % 2 = 0 := by
  rw [← toNat_unpackSign]
  generalize @unpackSign .binary32 b = s
  obtain rfl | rfl := BitVec.eq_zero_or_eq_one s
  · exact iff_of_true rfl rfl
  · exact iff_of_false nofun nofun

/-- The mantissa has a leading one that is not among the bits. -/
theorem toNat_append_unpackMantissa (b : BitVec 32) :
    (1#1 ++ @unpackMantissa .binary32 b).toNat = 2 ^ 23 + b.toNat % 2 ^ 23 := by
  rw [BitVec.toNat_append, ← Nat.shiftLeft_add_eq_or_of_lt (@unpackMantissa .binary32 b).isLt,
    toNat_unpackMantissa]
  rfl

theorem exponent_of_unpack_eq_infinity {b : BitVec 32} {s : Sign}
    (h : UnpackedFloat.unpack .binary32 b = .infinity s) : b.toNat / 2 ^ 23 % 2 ^ 8 = 255 := by
  unfold UnpackedFloat.unpack at h
  simp only at h
  split at h
  · next hexponent => exact (unpackExponent_eq_iff b _).1 hexponent
  · split at h
    · split at h <;> cases h
    · cases h

/-- A number above the least exponent has all the precision there is. -/
theorem mantissa_of_unpack {b : BitVec 32} {s : Sign} {m : ℕ} {e : ℤ} {h : 0 < m}
    (hb : UnpackedFloat.unpack .binary32 b = .finite s m e h) (he : e ≠ -149) :
    2 ^ 23 ≤ m ∧ m < 2 ^ 24 := by
  unfold UnpackedFloat.unpack at hb
  simp only at hb
  split at hb
  · split at hb <;> cases hb
  · split at hb
    · next hzero =>
        split at hb
        · cases hb
        · rw [hzero] at hb
          exact absurd (UnpackedFloat.finite.inj hb).2.2.symm he
    · obtain ⟨-, rfl, -⟩ := UnpackedFloat.finite.inj hb
      rw [toNat_append_unpackMantissa]
      omega

/-- How a number with all the precision there is stands in its bits. -/
theorem unpack_eq_finite_iff {b : BitVec 32} {m : ℕ} {e : ℤ} {h : 0 < m} (hm : 2 ^ 23 ≤ m) :
    UnpackedFloat.unpack .binary32 b = .finite .positive m e h ↔
      b.toNat / 2 ^ 31 % 2 = 0 ∧ b.toNat / 2 ^ 23 % 2 ^ 8 ≠ 0 ∧ b.toNat / 2 ^ 23 % 2 ^ 8 ≠ 255 ∧
        m = 2 ^ 23 + b.toNat % 2 ^ 23 ∧ e = (b.toNat / 2 ^ 23 % 2 ^ 8 : ℕ) - 150 := by
  unfold UnpackedFloat.unpack
  simp only
  by_cases hinfinite : @unpackExponent .binary32 b = -1#_
  · have h255 := (unpackExponent_eq_iff b _).1 hinfinite
    rw [if_pos hinfinite]
    constructor
    · intro hb
      split at hb <;> cases hb
    · rintro ⟨-, -, hne, -⟩
      exact absurd h255 hne
  · have h255 : b.toNat / 2 ^ 23 % 2 ^ 8 ≠ 255 := fun h => hinfinite ((unpackExponent_eq_iff b _).2 h)
    rw [if_neg hinfinite]
    by_cases hzero : @unpackExponent .binary32 b = 0#_
    · have h0 := (unpackExponent_eq_iff b _).1 hzero
      rw [if_pos hzero]
      constructor
      · intro hb
        split at hb
        · cases hb
        · have hlt : (@unpackMantissa .binary32 b).toNat < 2 ^ 23 := (@unpackMantissa .binary32 b).isLt
          obtain ⟨-, rfl, -⟩ := UnpackedFloat.finite.inj hb
          omega
      · rintro ⟨-, hne, -⟩
        exact absurd h0 hne
    · have h0 : b.toNat / 2 ^ 23 % 2 ^ 8 ≠ 0 := fun h => hzero ((unpackExponent_eq_iff b _).2 h)
      have hbias : ((Format.binary32.exponentBias : ℤ) +
        (Format.binary32.mantissaBitsWithoutImplicit : ℤ)) = 150 := rfl
      have hmantissa := toNat_append_unpackMantissa b
      rw [if_neg hzero]
      simp only [UnpackedFloat.finite.injEq, ofBitVec_unpackSign_iff, hmantissa, toNat_unpackExponent,
        hbias]
      constructor
      · rintro ⟨hs, rfl, rfl⟩
        exact ⟨hs, h0, h255, rfl, rfl⟩
      · rintro ⟨hs, -, -, rfl, rfl⟩
        exact ⟨hs, rfl, rfl⟩

/-- A number with all the precision there is survives being packed, unless its exponent is too great. -/
theorem unpack_pack_finite {m : ℕ} {e : ℤ} (h : 0 < m) (hm : 2 ^ 23 ≤ m) (hm' : m < 2 ^ 24)
    (he : -149 ≤ e) (he' : e ≤ 104) :
    UnpackedFloat.unpack .binary32 (UnpackedFloat.pack .binary32 (.finite .positive m e h)) =
      .finite .positive m e h := by
  have hbiased : (e + (Format.binary32.exponentBias : ℤ) +
      (Format.binary32.mantissaBitsWithoutImplicit : ℤ)).toNat = (e + 150).toNat := by
    show (e + 127 + 23).toNat = _
    congr 1
    omega
  have hlog : m.log2 + 1 = Format.binary32.mantissaBits := by
    rw [(Nat.log2_eq_iff h.ne').2 ⟨hm, hm'⟩]
    rfl
  have hpack : UnpackedFloat.pack .binary32 (.finite .positive m e h) =
      packComponents .binary32 .positive (BitVec.ofNat 8 (e + 150).toNat) (BitVec.ofNat 23 m) := by
    unfold UnpackedFloat.pack
    simp only [hbiased]
    rw [if_neg (show ¬2 ^ 8 ≤ (e + 150).toNat + 1 by omega), if_pos hlog]
  rw [hpack, unpack_eq_finite_iff hm, ← toNat_unpackSign, ← toNat_unpackExponent, ← toNat_unpackMantissa,
    unpackSign_packComponents, unpackExponent_packComponents, unpackMantissa_packComponents,
    BitVec.toNat_ofNat, BitVec.toNat_ofNat]
  show 0 = 0 ∧ (e + 150).toNat % 2 ^ 8 ≠ 0 ∧ (e + 150).toNat % 2 ^ 8 ≠ 255 ∧
    m = 2 ^ 23 + m % 2 ^ 23 ∧ e = ((e + 150).toNat % 2 ^ 8 : ℕ) - 150
  omega

theorem unpack_pack_infinite {m : ℕ} {e : ℤ} (h : 0 < m) (he : 104 < e) :
    UnpackedFloat.unpack .binary32 (UnpackedFloat.pack .binary32 (.finite .positive m e h)) =
      .infinity .positive := by
  have hpack : UnpackedFloat.pack .binary32 (.finite .positive m e h) =
      packedInfinity .binary32 .positive := by
    unfold UnpackedFloat.pack
    have hbiased : 2 ^ 8 ≤ (e + 127 + 23).toNat + 1 := by omega
    exact if_pos hbiased
  rw [hpack]
  rfl

theorem atLeast_unpack_pack {x : UnpackedFloat} (h : AtLeast q x) :
    AtLeast q (UnpackedFloat.unpack .binary32 (UnpackedFloat.pack .binary32 x)) := by
  cases h with
  | infinity => exact .infinity
  | @finite m e h low high exponent value =>
      rcases le_or_gt e 104 with he | he
      · rw [unpack_pack_finite h low high exponent he]
        exact .finite h low high exponent value
      · rw [unpack_pack_infinite h he]
        exact .infinity

/-! ### Numbers of 32 bits -/

/-- A number is not below a bound. -/
def Reaches (q : ℚ) (x : Float32) : Prop := AtLeast q x.toModel.unpack

theorem Reaches.mono {x : Float32} (h : Reaches q x) (hpq : p ≤ q) : Reaches p x :=
  AtLeast.mono h hpq

theorem unpack_zero : (0 : Float32).toModel.unpack = .zero .positive := rfl

theorem Reaches.not_lt_zero {x : Float32} (hx : Reaches q x) : ¬x < 0 := by
  show ¬decide (x.toModel < (0 : Float32).toModel) = true
  rw [decide_eq_true_eq]
  show ¬x.toModel.unpack.lt (0 : Float32).toModel.unpack = true
  unfold Reaches at hx
  rw [unpack_zero]
  generalize x.toModel.unpack = u at hx ⊢
  cases hx with
  | infinity => exact Bool.false_ne_true
  | finite => exact Bool.false_ne_true

theorem reaches_toFloat32 {n : UInt64} (hn : 0 < n.toNat) :
    Reaches ((1 - 1 / 2 ^ 24) * n.toNat) n.toFloat32 :=
  atLeast_unpack_pack (atLeast_ofUInt64 hn)

section
variable {x y : Float32}

theorem reaches_add (hx : Reaches p x) (hy : Reaches q y) :
    Reaches ((1 - 1 / 2 ^ 24) * (p + q)) (x + y) :=
  atLeast_unpack_pack (atLeast_add hx hy)

theorem reaches_zero_add (hx : x.toModel.unpack = .zero .positive) (hy : Reaches q y) :
    Reaches q (x + y) := by
  refine atLeast_unpack_pack ?_
  rw [hx, zero_add_of_atLeast hy]
  exact hy

theorem reaches_add_zero (hx : Reaches q x) (hy : y.toModel.unpack = .zero .positive) :
    Reaches q (x + y) := by
  refine atLeast_unpack_pack ?_
  rw [hy, add_zero_of_atLeast hx]
  exact hx

theorem reaches_mul (hx : Reaches p x) (hy : Reaches q y) (hq : 0 ≤ q)
    (hpq : (2 : ℚ) ^ (-126 : ℤ) ≤ p * q) : Reaches ((1 - 1 / 2 ^ 24) * (p * q)) (x * y) :=
  atLeast_unpack_pack (atLeast_mul hx hy hq hpq)

theorem reaches_div {n : ℕ} {f : ℤ} {hn : 0 < n} (hx : Reaches q x)
    (hy : y.toModel.unpack = .finite .positive n f hn) (hlow : 2 ^ 23 ≤ n) (hhigh : n < 2 ^ 24)
    (hq : (2 : ℚ) ^ (f - 102) ≤ q) : Reaches ((1 - 1 / 2 ^ 24) * (q / (n * 2 ^ f))) (x / y) := by
  refine atLeast_unpack_pack ?_
  rw [hy]
  exact atLeast_div hn hx hlow hhigh hq

/-- What is not below a number reaches its value. -/
theorem reaches_of_le {n : ℕ} {f : ℤ} {hn : 0 < n} (hx : x.toModel.unpack = .finite .positive n f hn)
    (hhigh : n ≤ 2 ^ 24) (hf : -149 < f) (hxy : x ≤ y) : Reaches (n * 2 ^ f) y := by
  have hle : decide (x.toModel ≤ y.toModel) = true := hxy
  rw [decide_eq_true_eq] at hle
  change x.toModel.unpack.le y.toModel.unpack = true at hle
  have hmantissa {k : ℕ} {e : ℤ} {h : 0 < k} (hy : y.toModel.unpack = .finite .positive k e h)
      (he : e ≠ -149) : 2 ^ 23 ≤ k ∧ k < 2 ^ 24 := mantissa_of_unpack hy he
  unfold Reaches
  rw [hx] at hle
  generalize y.toModel.unpack = v at hle hmantissa ⊢
  match v, hle with
  | .infinity .positive, _ => exact .infinity
  | .finite .positive k e h, hle =>
      have hcompare : ((compare f e).then (compare n k)).isLE = true := hle
      rw [Ordering.isLE_then_iff_and, Int.isLE_compare, Nat.isLE_compare, compare_lt_iff_lt] at hcompare
      obtain ⟨hfe, hstep⟩ := hcompare
      obtain ⟨low, high⟩ := hmantissa rfl (by omega)
      refine .finite h low high (by omega) ?_
      rcases hstep with hlt | hnk
      · have hpow : (2 : ℚ) * 2 ^ f ≤ 2 ^ e := by
          rw [← zpow_one_add₀ (by norm_num)]
          exact zpow_le_zpow_right₀ (by norm_num) (by omega)
        have hk : (n : ℚ) ≤ k * 2 := by exact_mod_cast (by omega : n ≤ k * 2)
        calc (n : ℚ) * 2 ^ f ≤ k * 2 * 2 ^ f := mul_le_mul_of_nonneg_right hk (by positivity)
          _ = k * (2 * 2 ^ f) := mul_assoc _ _ _
          _ ≤ k * 2 ^ e := mul_le_mul_of_nonneg_left hpow (by positivity)
      · have hpow : (2 : ℚ) ^ f ≤ 2 ^ e := zpow_le_zpow_right₀ (by norm_num) hfe
        exact mul_le_mul (by exact_mod_cast hnk) hpow (by positivity) (by positivity)

end

end DeviceAccess.Binary32
