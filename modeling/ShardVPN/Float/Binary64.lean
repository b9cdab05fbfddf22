import Mathlib.Algebra.Order.Field.Power
import Mathlib.Data.Int.Log
import Mathlib.Data.Rat.Floor
import Mathlib.Data.Set.List
import Mathlib.Tactic.Linarith

/-! # Arithmetic of doubles

A double is an integer of at most 53 bits times a power of two. The result of an
operation is the double nearest to the exact one, and the even one of two that are
equally near. There is no largest double here: a result too large for the format is
kept where the machine has an infinity.
-/
namespace ShardVPN.Binary64
variable {q r : ℚ} {m n e : ℤ}

/-! ## The nearest integer -/

/-- The nearest integer, the even one of two. -/
def evenRound (q : ℚ) : ℤ :=
  if q - ⌊q⌋ < 1 / 2 then ⌊q⌋
  else if 1 / 2 < q - ⌊q⌋ then ⌊q⌋ + 1
  else if Even ⌊q⌋ then ⌊q⌋ else ⌊q⌋ + 1

/-- No integer is nearer, and an even one is preferred. -/
def NearestEven (q : ℚ) (n : ℤ) : Prop := |q - n| < 1 / 2 ∨ |q - n| = 1 / 2 ∧ Even n

theorem NearestEven.le (h : NearestEven q n) : |q - n| ≤ 1 / 2 := by
  rcases h with h | ⟨h,-⟩
  · exact h.le
  · exact h.le

theorem NearestEven.unique (hm : NearestEven q m) (hn : NearestEven q n) : m = n := by
  have htriangle : |((m - n : ℤ) : ℚ)| ≤ |q - m| + |q - n| := by
    push_cast
    rw [abs_sub_comm q]
    exact abs_sub_le _ _ _
  have hclose : |((m - n : ℤ) : ℚ)| < 1 → m = n := by
    intro h
    have hzero : |m - n| < 1 := by exact_mod_cast h
    exact Int.sub_eq_zero.mp (Int.abs_lt_one_iff.mp hzero)
  rcases hm with hm | ⟨hm,heven⟩
  · exact hclose (by linarith [hn.le])
  rcases hn with hn | ⟨hn,heven'⟩
  · exact hclose (by linarith)
  · have hone : |((m - n : ℤ) : ℚ)| ≤ (1 : ℤ) := by
      push_cast at htriangle ⊢
      linarith
    rw [← Int.cast_abs,Int.cast_le] at hone
    obtain ⟨a,rfl⟩ := heven
    obtain ⟨b,rfl⟩ := heven'
    have hbounds := abs_le.mp hone
    omega

theorem nearestEven_evenRound (q : ℚ) : NearestEven q (evenRound q) := by
  have hlow := Int.floor_le q
  have hhigh := Int.lt_floor_add_one q
  have hnext (h : q - ⌊q⌋ = 1 / 2) : |q - (⌊q⌋ + 1 : ℤ)| = 1 / 2 := by
    push_cast
    rw [abs_sub_comm,abs_of_nonneg] <;> linarith
  unfold evenRound
  split
  · rename_i h
    exact .inl (abs_lt.mpr ⟨by linarith,h⟩)
  · split
    · rename_i h
      refine .inl (abs_lt.mpr ⟨?_,?_⟩) <;> push_cast <;> linarith
    · rename_i hge hle
      have hhalf : q - ⌊q⌋ = 1 / 2 := le_antisymm (not_lt.mp hle) (not_lt.mp hge)
      split
      · rename_i heven
        exact .inr ⟨by rw [hhalf,abs_of_pos (by norm_num)],heven⟩
      · rename_i hodd
        exact .inr ⟨hnext hhalf,(Int.not_even_iff_odd.mp hodd).add_one⟩

theorem evenRound_eq (h : NearestEven q n) : evenRound q = n := (nearestEven_evenRound q).unique h

@[simp] theorem evenRound_intCast (n : ℤ) : evenRound n = n := by
  apply evenRound_eq
  left
  rw [sub_self,abs_zero]
  norm_num

theorem evenRound_neg (q : ℚ) : evenRound (-q) = -evenRound q := by
  have hsymm (n : ℤ) : |-q - (-n : ℤ)| = |q - n| := by
    rw [← abs_neg]
    push_cast
    ring_nf
  apply evenRound_eq
  unfold NearestEven
  rw [hsymm,even_neg]
  exact nearestEven_evenRound q

theorem evenRound_mono (h : q ≤ r) : evenRound q ≤ evenRound r := by
  by_contra hlt
  have hstep : ((evenRound r + 1 : ℤ) : ℚ) ≤ evenRound q := Int.cast_le.mpr (Int.not_le.mp hlt)
  have hq := abs_le.mp (nearestEven_evenRound q).le
  have hr := abs_le.mp (nearestEven_evenRound r).le
  push_cast at hstep
  -- both are halfway between the same two integers
  have heq : q = r := by linarith
  rw [heq] at hlt
  exact hlt (Int.le_refl _)

theorem le_evenRound (h : n ≤ q) : n ≤ evenRound q := by
  rw [← evenRound_intCast n]
  exact evenRound_mono h

/-! ## The nearest double -/

/-- The exponent of the last bit of the doubles around `q`. -/
def exponent (q : ℚ) : ℤ := max (Int.log 2 |q| - 52) (-1074)

/-- The distance between the doubles around `q`. -/
def ulp (q : ℚ) : ℚ := 2 ^ exponent q

def nearest (q : ℚ) : ℚ := evenRound (q / ulp q) * ulp q

theorem ulp_pos (q : ℚ) : 0 < ulp q := zpow_pos (by norm_num) _

@[simp] theorem exponent_neg (q : ℚ) : exponent (-q) = exponent q := by
  unfold exponent
  rw [abs_neg]

theorem exponent_le (he : -52 ≤ e) (h : |q| < 2 ^ (e + 53)) : exponent q ≤ e := by
  unfold exponent
  apply max_le ?_ (by omega)
  rcases eq_or_ne q 0 with rfl | hq
  · rw [abs_zero,Int.log_of_right_le_zero 2 le_rfl]
    omega
  · have hlog : Int.log 2 |q| < e + 53 :=
      (Int.lt_zpow_iff_log_lt (by decide) (abs_pos.mpr hq)).mp (by exact_mod_cast h)
    omega

theorem ulp_le (he : -52 ≤ e) (h : |q| < 2 ^ (e + 53)) : ulp q ≤ 2 ^ e :=
  zpow_le_zpow_right₀ (by norm_num) (exponent_le he h)

theorem nearest_neg (q : ℚ) : nearest (-q) = -nearest q := by
  unfold nearest ulp
  rw [exponent_neg,neg_div,evenRound_neg]
  push_cast
  ring

/-- A multiple of a power of two is one of each lower power. -/
theorem multiple_lower (m : ℤ) {d e : ℤ} (h : d ≤ e) : ∃ n : ℤ, (m : ℚ) * 2 ^ e = n * 2 ^ d := by
  obtain ⟨k,rfl⟩ := Int.le.dest h
  refine ⟨m * 2 ^ k,?_⟩
  rw [zpow_add₀ (by norm_num),zpow_natCast]
  push_cast
  ring

theorem le_nearest (he : exponent q ≤ e) (h : m * 2 ^ e ≤ q) : m * 2 ^ e ≤ nearest q := by
  obtain ⟨n,hn⟩ := multiple_lower m he
  rw [hn] at h ⊢
  have hquotient : n ≤ q / ulp q := (le_div_iff₀ (ulp_pos q)).mpr h
  exact mul_le_mul_of_nonneg_right (Int.cast_le.mpr (le_evenRound hquotient)) (ulp_pos q).le

theorem nearest_le (he : exponent q ≤ e) (h : q ≤ m * 2 ^ e) : nearest q ≤ m * 2 ^ e := by
  have hneg : ((-m : ℤ) : ℚ) * 2 ^ e ≤ -q := by
    push_cast
    linarith
  have hle := le_nearest (by rwa [exponent_neg]) hneg
  rw [nearest_neg] at hle
  push_cast at hle
  linarith

/-- A double is not rounded. -/
theorem nearest_eq (he : exponent q ≤ e) (h : q = m * 2 ^ e) : nearest q = q := by
  apply le_antisymm
  · exact (nearest_le he h.le).trans h.ge
  · exact h.le.trans (le_nearest he h.ge)

theorem nearest_intCast (h : |n| < 2 ^ 53) : nearest n = n := by
  have hexponent : exponent n ≤ 0 := by
    apply exponent_le (by decide)
    exact_mod_cast h
  exact nearest_eq hexponent (by rw [zpow_zero,mul_one])

@[simp] theorem nearest_zero : nearest 0 = 0 := nearest_intCast (n := 0) (by decide)

theorem nearest_nonneg (h : 0 ≤ q) : 0 ≤ nearest q := by
  simpa using le_nearest (m := 0) le_rfl (by simpa using h)

/-- Over a binade's end, the power of two there lies between the two results. -/
theorem nearest_mono_of_nonneg (hq : 0 ≤ q) (h : q ≤ r) : nearest q ≤ nearest r := by
  rcases hq.eq_or_lt with rfl | hq
  · rw [nearest_zero]
    exact nearest_nonneg h
  have hr : 0 < r := hq.trans_le h
  have hlog : Int.log 2 q ≤ Int.log 2 r := Int.log_mono_right hq h
  have hexponent : exponent q ≤ exponent r := by
    unfold exponent
    rw [abs_of_pos hq,abs_of_pos hr]
    exact max_le_max_right _ (Int.sub_le_sub_right hlog 52)
  rcases hexponent.eq_or_lt with heq | hlt
  · unfold nearest ulp
    rw [heq]
    have hpos := (ulp_pos r).le
    exact mul_le_mul_of_nonneg_right (Int.cast_le.mpr (evenRound_mono (div_le_div_of_nonneg_right h hpos))) hpos
  · unfold exponent at hlt
    rw [abs_of_pos hq,abs_of_pos hr] at hlt
    have hstep : Int.log 2 q < Int.log 2 r ∧ -1074 ≤ Int.log 2 r - 52 := by omega
    have hupper : q ≤ (1 : ℤ) * 2 ^ Int.log 2 r := by
      rw [Int.cast_one,one_mul]
      have hlt := (Int.lt_zpow_iff_log_lt (by decide) hq).mpr hstep.1
      exact_mod_cast hlt.le
    have hlower : (1 : ℤ) * 2 ^ Int.log 2 r ≤ r := by
      rw [Int.cast_one,one_mul]
      exact_mod_cast Int.zpow_log_le_self (b := 2) (by decide) hr
    apply (nearest_le ?_ hupper).trans (le_nearest ?_ hlower)
    · unfold exponent
      rw [abs_of_pos hq]
      omega
    · unfold exponent
      rw [abs_of_pos hr]
      omega

theorem nearest_mono (h : q ≤ r) : nearest q ≤ nearest r := by
  rcases le_total 0 q with hq | hq
  · exact nearest_mono_of_nonneg hq h
  have hneg : nearest q = -nearest (-q) := by rw [nearest_neg,neg_neg]
  have hq' : 0 ≤ -q := neg_nonneg.mpr hq
  rcases le_total 0 r with hr | hr
  · linarith [nearest_nonneg hq',nearest_nonneg hr]
  · have hmono := nearest_mono_of_nonneg (neg_nonneg.mpr hr) (neg_le_neg h)
    rw [nearest_neg,nearest_neg] at hmono
    exact neg_le_neg_iff.mp hmono

/-- The result is off by half the distance of its neighbours at most. -/
theorem abs_nearest_sub_le (q : ℚ) : |nearest q - q| ≤ ulp q / 2 := by
  have hpos := ulp_pos q
  have hround := (nearestEven_evenRound (q / ulp q)).le
  have hscale : nearest q - q = -(q / ulp q - evenRound (q / ulp q)) * ulp q := by
    unfold nearest
    field_simp
    ring
  rw [hscale,abs_mul,abs_neg,abs_of_pos hpos]
  linarith [mul_le_mul_of_nonneg_right hround hpos.le]

/-! ## Truncation -/

/-- The integer part, towards zero. -/
def trunc (q : ℚ) : ℤ := q.num.tdiv q.den

theorem trunc_of_nonneg (h : 0 ≤ q) : trunc q = ⌊q⌋ := by
  unfold trunc
  rw [Int.tdiv_eq_ediv_of_nonneg (Rat.num_nonneg.mpr h),← Rat.floor_def']

theorem trunc_neg (q : ℚ) : trunc (-q) = -trunc q := by
  unfold trunc
  rw [Rat.neg_num,Rat.neg_den,Int.neg_tdiv]

theorem trunc_nonneg (h : 0 ≤ q) : 0 ≤ trunc q := by
  rw [trunc_of_nonneg h]
  exact Int.floor_nonneg.mpr h

theorem trunc_nonpos (h : q ≤ 0) : trunc q ≤ 0 := by
  have hneg := trunc_nonneg (neg_nonneg.mpr h)
  rw [trunc_neg] at hneg
  exact Int.neg_nonneg.mp hneg

theorem trunc_mono (h : q ≤ r) : trunc q ≤ trunc r := by
  rcases le_total 0 q with hq | hq
  · rw [trunc_of_nonneg hq,trunc_of_nonneg (hq.trans h)]
    exact Int.floor_le_floor h
  rcases le_total 0 r with hr | hr
  · exact (trunc_nonpos hq).trans (trunc_nonneg hr)
  · have hfloor := Int.floor_le_floor (neg_le_neg h)
    rw [← trunc_of_nonneg (neg_nonneg.mpr hr),← trunc_of_nonneg (neg_nonneg.mpr hq),trunc_neg,trunc_neg] at hfloor
    exact Int.neg_le_neg_iff.mp hfloor

@[simp] theorem trunc_intCast (n : ℤ) : trunc n = n := by
  unfold trunc
  simp

/-- Rounding keeps the integer part of a number that is more than half the distance of its neighbours
below the next integer. -/
theorem trunc_nearest (hq : 0 ≤ q) (h : q < 2 ^ 53) (hgap : q + ulp q / 2 < ⌊q⌋ + 1) : trunc (nearest q) = ⌊q⌋ := by
  have hsmall : |⌊q⌋| < 2 ^ 53 := by
    rw [abs_of_nonneg (Int.floor_nonneg.mpr hq)]
    exact Int.floor_lt.mpr (by exact_mod_cast h)
  have hlow : (⌊q⌋ : ℚ) ≤ nearest q := by
    rw [← nearest_intCast hsmall]
    exact nearest_mono (Int.floor_le q)
  have hhigh := (abs_le.mp (abs_nearest_sub_le q)).2
  rw [trunc_of_nonneg (nearest_nonneg hq)]
  exact Int.floor_eq_iff.mpr ⟨hlow,by linarith⟩

/-! ## Compensated sums -/

/-- One addition of a compensated sum: what it loses is added to the compensation. -/
def addCompensated (acc : ℚ × ℚ) (x : ℚ) : ℚ × ℚ :=
  let t := nearest (acc.1 + x)
  let lost := if |x| ≤ |acc.1| then nearest (nearest (acc.1 - t) + x) else nearest (nearest (x - t) + acc.1)
  (t,nearest (acc.2 + lost))

/-- The sum with the compensation added at the end. -/
def compensated (acc : ℚ × ℚ) : ℚ := if acc.2 = 0 then acc.1 else nearest (acc.1 + acc.2)

/-- The sum of a list from the left, from an integer zero. -/
def sum : List ℚ → ℚ
  | [] => 0
  | x :: rest => compensated (rest.foldl addCompensated (nearest (0 + x),0))

theorem nearest_natCast {n : ℕ} (h : n < 2 ^ 53) : nearest n = n := by
  have hnat := nearest_intCast (n := n) (by rw [Nat.abs_cast]; exact_mod_cast h)
  exact_mod_cast hnat

/-- An addition of natural numbers loses nothing while the sum has 53 bits. -/
theorem addCompensated_natCast {m n : ℕ} (h : m + n < 2 ^ 53) :
    addCompensated ((m : ℚ),0) n = (((m + n : ℕ) : ℚ),0) := by
  have hsum : nearest ((m : ℚ) + n) = (m : ℚ) + n := by exact_mod_cast nearest_natCast h
  have hm : nearest (-(n : ℚ)) = -n := by rw [nearest_neg,nearest_natCast (by omega)]
  have hn : nearest (-(m : ℚ)) = -m := by rw [nearest_neg,nearest_natCast (by omega)]
  unfold addCompensated
  simp [hsum,hm,hn]

theorem foldl_addCompensated_natCast (counts : List ℕ) (m : ℕ) (h : m + counts.sum < 2 ^ 53) :
    (counts.map (Nat.cast : ℕ → ℚ)).foldl addCompensated ((m : ℚ),0) = (((m + counts.sum : ℕ) : ℚ),0) := by
  induction counts generalizing m with
  | nil => simp
  | cons n counts ih =>
    rw [List.sum_cons,← Nat.add_assoc] at h
    rw [List.map_cons,List.foldl_cons,addCompensated_natCast (by omega),ih (m + n) h,List.sum_cons,Nat.add_assoc]

theorem sum_natCast (counts : List ℕ) (h : counts.sum < 2 ^ 53) :
    sum (counts.map (Nat.cast : ℕ → ℚ)) = (counts.sum : ℕ) := by
  cases counts with
  | nil => rfl
  | cons n counts =>
    rw [List.sum_cons] at h
    unfold sum
    rw [List.map_cons]
    dsimp only
    rw [zero_add,nearest_natCast (by omega),foldl_addCompensated_natCast counts n h,List.sum_cons]
    exact if_pos rfl

/-- Natural numbers are summed exactly, in whatever order, when the total has 53 bits. -/
theorem trunc_sum {l : List ℚ} (hl : ∀ x ∈ l, ∃ n : ℕ, (n : ℚ) = x) (h : l.sum < 2 ^ 53) :
    (trunc (sum l) : ℚ) = l.sum := by
  have hrange : l ∈ Set.range (List.map (Nat.cast : ℕ → ℚ)) := by
    rw [Set.range_list_map]
    exact hl
  obtain ⟨counts,rfl⟩ := hrange
  have hcast : ((counts.sum : ℕ) : ℚ) = (counts.map Nat.cast).sum := map_list_sum (Nat.castAddMonoidHom ℚ) counts
  rw [← hcast] at h ⊢
  have hsum : counts.sum < 2 ^ 53 := by exact_mod_cast h
  rw [sum_natCast counts hsum,← Int.cast_natCast,trunc_intCast]

example : sum [9007199254740992,1] = 9007199254740992 := by decide +kernel

end ShardVPN.Binary64
