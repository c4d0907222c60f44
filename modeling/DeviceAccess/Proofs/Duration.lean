import DeviceAccess.Proofs.Binary32
import DeviceAccess.Retry

/-!
# Multipliers that make no duration shorter

A duration that is multiplied is rounded at every step: its whole seconds, the rest, their sum and the
product.  What this takes away can be more than what a multiplier just above one adds, so the product may
be shorter than the duration.  Two units of the last place above one are enough, whatever the duration
(`Duration.le_times`).
-/

namespace DeviceAccess.Duration

open Binary32

theorem le_ofNanos {d : Duration} {n : ℕ} (h : d.nanos ≤ n) : d ≤ ofNanos n := by
  unfold ofNanos
  split
  · exact h
  · exact Nat.le_pred_of_lt d.isLt

/-! ### From seconds to durations -/

theorem le_nearest {n numerator denominator : ℕ} (hd : 0 < denominator)
    (h : n * denominator ≤ numerator) : n ≤ nearest numerator denominator := by
  have hfloor : n ≤ numerator / denominator := (Nat.le_div_iff_mul_le hd).2 h
  unfold nearest
  simp only
  split
  · exact hfloor
  · exact hfloor.trans (Nat.le_succ _)

theorem magnitude?_of_infinity {x : Float32} {s : Float.Model.UnpackedFloat.Sign}
    (h : x.toModel.unpack = .infinity s) : magnitude? x = none :=
  if_pos (exponent_of_unpack_eq_infinity h)

theorem magnitude?_of_finite {x : Float32} {m : ℕ} {e : ℤ} {h : 0 < m} (low : 2 ^ 23 ≤ m)
    (hx : x.toModel.unpack = .finite .positive m e h) :
    magnitude? x = some (m * 2 ^ (e + 149).toNat) := by
  have hbits := (unpack_eq_finite_iff low).1 hx
  norm_num only at hbits
  rw [show x.toModel.toBits.toBitVec.toNat = x.toBits.toNat from rfl] at hbits
  obtain ⟨-, hnonzero, hfinite, hm, he⟩ := hbits
  unfold magnitude?
  simp only
  rw [if_neg hfinite, if_neg hnonzero, ← hm, Nat.shiftLeft_eq]
  congr 3
  omega

/-- A number of seconds that is not below those of a duration. -/
theorem le_ofSeconds {d : Duration} {x : Float32} (hx : Reaches (d.nanos / 10 ^ 9) x) :
    d ≤ ofSeconds x := by
  rw [ofSeconds, if_neg hx.not_lt_zero]
  unfold Reaches at hx
  generalize hu : x.toModel.unpack = u at hx
  cases hx with
  | infinity =>
      rw [magnitude?_of_infinity hu]
      exact Nat.le_pred_of_lt d.isLt
  | @finite m e h low high exponent value =>
      rw [magnitude?_of_finite low hu, Nat.one_shiftLeft]
      refine le_ofNanos (le_nearest (by positivity) ?_)
      have hpow : (2 : ℚ) ^ e * 2 ^ 149 = 2 ^ (e + 149).toNat := by
        rw [← zpow_natCast, ← zpow_natCast, ← zpow_add₀ (by norm_num)]
        congr 1
        omega
      rw [div_le_iff₀ (by norm_num)] at value
      have hscaled : (d.nanos : ℚ) * 2 ^ 149 ≤ m * 2 ^ (e + 149).toNat * 10 ^ 9 := by
        calc (d.nanos : ℚ) * 2 ^ 149 ≤ m * 2 ^ e * 10 ^ 9 * 2 ^ 149 :=
              mul_le_mul_of_nonneg_right value (by positivity)
          _ = m * 2 ^ (e + 149).toNat * 10 ^ 9 := by
              rw [← hpow]
              ring
      exact_mod_cast hscaled

/-! ### From durations to seconds -/

theorem reaches_whole {s : ℕ} (hs : 0 < s) (hlt : s < 2 ^ 64) :
    Reaches ((1 - 1 / 2 ^ 24) * s) s.toUInt64.toFloat32 := by
  have hword : s.toUInt64.toNat = s := by
    rw [Nat.toUInt64_eq, UInt64.toNat_ofNat']
    exact Nat.mod_eq_of_lt hlt
  have hreaches := reaches_toFloat32 (n := s.toUInt64) (by omega)
  rwa [hword] at hreaches

theorem unpack_billion : (1000000000 : UInt64).toFloat32.toModel.unpack =
    .finite .positive 15625000 6 (by decide) := by
  refine (unpack_eq_finite_iff (by decide)).2 ?_
  decide +kernel

theorem reaches_rest {n : ℕ} (hn : 0 < n) (hlt : n < 2 ^ 64) :
    Reaches ((1 - 1 / 2 ^ 24) * ((1 - 1 / 2 ^ 24) * n / 10 ^ 9))
      (n.toUInt64.toFloat32 / (1000000000 : UInt64).toFloat32) := by
  have hone : (1 : ℚ) ≤ n := by exact_mod_cast hn
  have hlow : (2 : ℚ) ^ (6 - 102 : ℤ) ≤ (1 - 1 / 2 ^ 24) * n := by
    norm_num
    linarith
  refine (reaches_div (reaches_whole hn hlt) unpack_billion (by decide) (by decide) hlow).mono ?_
  norm_num

/-- What is left of a duration as a number of seconds, with another rounding still to come, is enough for
a multiplier that is two units of the last place above one. -/
theorem reaches_seconds {d : Duration} (hd : 0 < d.nanos) :
    Reaches (d.nanos / 10 ^ 9 / ((1 - 1 / 2 ^ 24) * (1 + 1 / 2 ^ 22))) d.seconds := by
  have hisLt : d.nanos < 2 ^ 64 * 1000000000 := d.isLt
  have hsplit : d.nanos = 1000000000 * (d.nanos / 1000000000) + d.nanos % 1000000000 :=
    (Nat.div_add_mod _ _).symm
  have hrest : d.nanos % 1000000000 < 1000000000 := Nat.mod_lt _ (by norm_num)
  unfold seconds
  generalize d.nanos / 1000000000 = s, d.nanos % 1000000000 = n at *
  have hn : (n : ℚ) < 1000000000 := by exact_mod_cast hrest
  have hn0 : (0 : ℚ) ≤ n := Nat.cast_nonneg n
  rw [hsplit]
  push_cast
  rcases Nat.eq_zero_or_pos s with rfl | hs
  · -- Without whole seconds their sum with the rest is exact.
    refine (reaches_zero_add rfl (reaches_rest (n := n) (by omega) (by omega))).mono ?_
    norm_num
    linarith
  · have hs1 : (1 : ℚ) ≤ s := by exact_mod_cast hs
    have hwhole := reaches_whole hs (by omega)
    rcases Nat.eq_zero_or_pos n with rfl | hn1
    · refine (reaches_add_zero hwhole rfl).mono ?_
      norm_num
      linarith
    · refine (reaches_add hwhole (reaches_rest hn1 (by omega))).mono ?_
      norm_num
      linarith

/-! ### Multiplication -/

/-- **No duration gets shorter by a multiplier that is two units of the last place above one**, or
more. -/
theorem le_times {multiplier : Float32} (hleast : Factor.value ⟨2 ^ 22 + 1, 2 ^ 22⟩ ≤ multiplier)
    (d : Duration) : d ≤ d.times multiplier := by
  have hvalue : (Factor.value ⟨2 ^ 22 + 1, 2 ^ 22⟩).toModel.unpack =
      .finite .positive (2 ^ 23 + 2) (-23) (by decide) :=
    (unpack_eq_finite_iff (by decide)).2 (by decide +kernel)
  have hmultiplier : Reaches (1 + 1 / 2 ^ 22) multiplier :=
    (reaches_of_le hvalue (by decide) (by decide) hleast).mono (by norm_num)
  rcases Nat.eq_zero_or_pos d.nanos with hzero | hpos
  · exact hzero.trans_le (Nat.zero_le _)
  · have hone : (1 : ℚ) ≤ d.nanos := by exact_mod_cast hpos
    have hproduct := reaches_mul hmultiplier (reaches_seconds hpos) (by positivity) (by
      norm_num
      linarith)
    exact le_ofSeconds (hproduct.mono (le_of_eq (by field_simp)))

/-- One unit of the last place is not enough. -/
example : (ofNanos 722467423).times (Factor.value ⟨2 ^ 23 + 1, 2 ^ 23⟩) = ofNanos 722467422 := by
  decide +kernel

end DeviceAccess.Duration
