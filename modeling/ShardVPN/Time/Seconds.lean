import ShardVPN.Time.DateTime

/-! # Whole seconds

The seconds between two datetimes are a double. Their integer part is right as long as
doubles tell microseconds apart, which they do below 2^34 seconds, and it never shrinks
as the difference grows.
-/
namespace ShardVPN.Time
open Binary64
variable {d e n : ℤ}

theorem totalSeconds_mono (h : d ≤ e) : totalSeconds d ≤ totalSeconds e := by
  apply nearest_mono
  exact div_le_div_of_nonneg_right (Int.cast_le.mpr h) (Nat.cast_nonneg _)

theorem wholeSeconds_mono (h : d ≤ e) : wholeSeconds d ≤ wholeSeconds e := trunc_mono (totalSeconds_mono h)

@[simp] theorem wholeSeconds_mul (hn : |n| < 2 ^ 53) : wholeSeconds (n * microsPerSecond) = n := by
  have hquotient : ((n * microsPerSecond : ℤ) : ℚ) / microsPerSecond = n := by
    push_cast
    exact mul_div_cancel_right₀ _ (by unfold microsPerSecond; norm_num)
  unfold wholeSeconds totalSeconds
  rw [hquotient,nearest_intCast hn,trunc_intCast]

theorem wholeSeconds_le (hn : |n| < 2 ^ 53) (h : d ≤ n * microsPerSecond) : wholeSeconds d ≤ n := by
  have hmono := wholeSeconds_mono h
  rwa [wholeSeconds_mul hn] at hmono

theorem wholeSeconds_nonpos (h : d ≤ 0) : wholeSeconds d ≤ 0 := wholeSeconds_le (by decide) (by simpa using h)

/-- The distance of the neighbours is less than two microseconds. -/
theorem wholeSeconds_eq (hpos : 0 ≤ d) (h : d < 2 ^ 34 * microsPerSecond) : wholeSeconds d = d / microsPerSecond := by
  have hfloor : ⌊(d : ℚ) / microsPerSecond⌋ = d / microsPerSecond := Rat.floor_intCast_div_natCast d _
  have hsplit := Int.mul_ediv_add_emod d microsPerSecond
  have hrest := Int.emod_lt_of_pos d (show (0 : ℤ) < microsPerSecond by decide)
  have hq : (0 : ℚ) ≤ d / microsPerSecond := div_nonneg (Int.cast_nonneg hpos) (Nat.cast_nonneg _)
  have hsmall : (d : ℚ) / microsPerSecond < 2 ^ (34 : ℤ) := by
    rw [div_lt_iff₀ (by unfold microsPerSecond; norm_num)]
    exact_mod_cast h
  have hulp : ulp (d / microsPerSecond) ≤ 2 ^ (-19 : ℤ) := by
    apply ulp_le (by decide)
    rw [abs_of_nonneg hq]
    exact hsmall
  have hgap : (d : ℚ) / microsPerSecond ≤ (d / microsPerSecond : ℤ) + 999999 / 1000000 := by
    have hle : d ≤ microsPerSecond * (d / microsPerSecond) + 999999 := by
      unfold microsPerSecond at *
      omega
    have hcast : (d : ℚ) ≤ microsPerSecond * (d / microsPerSecond : ℤ) + 999999 := by exact_mod_cast hle
    rw [div_le_iff₀ (by unfold microsPerSecond; norm_num)]
    unfold microsPerSecond at *
    linarith
  unfold wholeSeconds totalSeconds
  rw [trunc_nearest hq,hfloor]
  · exact hsmall.trans (by norm_num)
  · rw [hfloor]
    norm_num at hulp ⊢
    linarith

theorem wholeSeconds_lt (hn : 0 < n) (hbound : n ≤ 2 ^ 34) (h : d < n * microsPerSecond) : wholeSeconds d < n := by
  rcases Int.le_total 0 d with hd | hd
  · have hlt : d < 2 ^ 34 * microsPerSecond := by
      unfold microsPerSecond at *
      omega
    rw [wholeSeconds_eq hd hlt]
    exact Int.ediv_lt_of_lt_mul (by decide) h
  · exact (wholeSeconds_nonpos hd).trans_lt hn

end ShardVPN.Time
