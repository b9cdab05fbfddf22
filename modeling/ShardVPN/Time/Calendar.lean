import Mathlib.Data.Int.Notation
import Mathlib.Data.List.Basic

/-! # The proleptic Gregorian calendar

Day numbers and dates, computed as the standard library's `datetime` does it:
cycles of 400, 100, 4 and 1 years, and a month estimate that is corrected once.
Day 1 is the first of January of year 1.
-/
namespace ShardVPN.Time

def isLeap (year : ℕ) : Bool := year % 4 = 0 && (year % 100 ≠ 0 || year % 400 = 0)

def daysBeforeYear (year : ℕ) : ℕ :=
  (year - 1) * 365 + (year - 1) / 4 - (year - 1) / 100 + (year - 1) / 400

def monthLengths : List ℕ := [0,31,28,31,30,31,30,31,31,30,31,30,31]

def daysBeforeMonths : List ℕ := [0,0,31,59,90,120,151,181,212,243,273,304,334]

/-- The length of a month in a year that is leap or not. -/
def monthLength (leap : Bool) (month : ℕ) : ℕ :=
  monthLengths.getD month 0 + if month = 2 && leap then 1 else 0

def daysBeforeMonth (leap : Bool) (month : ℕ) : ℕ :=
  daysBeforeMonths.getD month 0 + if decide (2 < month) && leap then 1 else 0

structure Date where
  year : ℕ
  month : ℕ
  day : ℕ
deriving DecidableEq

def Date.Valid (d : Date) : Prop :=
  1 ≤ d.year ∧ d.year ≤ 9999 ∧ 1 ≤ d.month ∧ d.month ≤ 12 ∧ 1 ≤ d.day ∧
    d.day ≤ monthLength (isLeap d.year) d.month

instance (d : Date) : Decidable d.Valid := by
  unfold Date.Valid
  infer_instance

/-- `date.toordinal()`. -/
def Date.toOrdinal (d : Date) : ℕ := daysBeforeYear d.year + daysBeforeMonth (isLeap d.year) d.month + d.day

/-- Month and day of the `n`-th day of a year, counted from zero. -/
def monthDay (leap : Bool) (n : ℕ) : ℕ × ℕ :=
  let month := (n + 50) / 32
  if n < daysBeforeMonth leap month then (month - 1,n - daysBeforeMonth leap (month - 1) + 1)
  else (month,n - daysBeforeMonth leap month + 1)

/-- `date.fromordinal(n)`. -/
def Date.fromOrdinal (n : ℕ) : Date :=
  let n := n - 1
  let n400 := n / 146097
  let n := n % 146097
  let n100 := n / 36524
  let n := n % 36524
  let n4 := n / 1461
  let n := n % 1461
  let n1 := n / 365
  let n := n % 365
  let year := n400 * 400 + n100 * 100 + n4 * 4 + n1 + 1
  if n1 = 4 ∨ n100 = 4 then ⟨year - 1,12,31⟩
  else
    let leap := decide (n1 = 3) && (decide (n4 ≠ 24) || decide (n100 = 3))
    let (month,day) := monthDay leap n
    ⟨year,month,day⟩

/-- The last day of year 9999. -/
def maxOrdinal : ℕ := 3652059

theorem monthDay_spec (leap : Bool) (n : ℕ) (hn : n < 365 + if leap then 1 else 0) :
    1 ≤ (monthDay leap n).1 ∧ (monthDay leap n).1 ≤ 12 ∧ 1 ≤ (monthDay leap n).2 ∧
      (monthDay leap n).2 ≤ monthLength leap (monthDay leap n).1 ∧
      daysBeforeMonth leap (monthDay leap n).1 + (monthDay leap n).2 = n + 1 := by
  cases leap with
  | false =>
    have h : ∀ n < 365, 1 ≤ (monthDay false n).1 ∧ (monthDay false n).1 ≤ 12 ∧ 1 ≤ (monthDay false n).2 ∧
        (monthDay false n).2 ≤ monthLength false (monthDay false n).1 ∧
        daysBeforeMonth false (monthDay false n).1 + (monthDay false n).2 = n + 1 := by decide +kernel
    exact h n hn
  | true =>
    have h : ∀ n < 366, 1 ≤ (monthDay true n).1 ∧ (monthDay true n).1 ≤ 12 ∧ 1 ≤ (monthDay true n).2 ∧
        (monthDay true n).2 ≤ monthLength true (monthDay true n).1 ∧
        daysBeforeMonth true (monthDay true n).1 + (monthDay true n).2 = n + 1 := by decide +kernel
    exact h n hn

/-- The year that `q` cycles of 400, `c` of 100, `b` of 4 and `a` years lead to. -/
theorem daysBeforeYear_cycles (q c b a : ℕ) (hc : c ≤ 3) (hb : b ≤ 24) (ha : a ≤ 3) :
    daysBeforeYear (q * 400 + c * 100 + b * 4 + a + 1) = 146097 * q + 36524 * c + 1461 * b + 365 * a := by
  rw [daysBeforeYear,Nat.add_sub_cancel]
  omega

theorem isLeap_cycles (q c b a : ℕ) (hc : c ≤ 3) (hb : b ≤ 24) (ha : a ≤ 3) :
    isLeap (q * 400 + c * 100 + b * 4 + a + 1) = (decide (a = 3) && (decide (b ≠ 24) || decide (c = 3))) := by
  rw [isLeap,Bool.eq_iff_iff]
  simp only [Bool.and_eq_true,Bool.or_eq_true,decide_eq_true_eq]
  omega

/-- Every day number is that of its date, and the date is valid up to year 9999. -/
theorem fromOrdinal_spec {n : ℕ} (hn : 1 ≤ n) :
    (Date.fromOrdinal n).toOrdinal = n ∧ (n ≤ maxOrdinal → (Date.fromOrdinal n).Valid) := by
  rw [Date.fromOrdinal]
  dsimp only
  generalize hq : (n - 1) / 146097 = q
  generalize hc : (n - 1) % 146097 / 36524 = c
  generalize hb : (n - 1) % 146097 % 36524 / 1461 = b
  generalize ha : (n - 1) % 146097 % 36524 % 1461 / 365 = a
  generalize hd : (n - 1) % 146097 % 36524 % 1461 % 365 = d
  have hsum : n - 1 = 146097 * q + 36524 * c + 1461 * b + 365 * a + d := by omega
  by_cases hlast : a = 4 ∨ c = 4
  · -- the last day of a leap year
    rw [if_pos hlast,Nat.add_sub_cancel]
    have hcycle : ∃ c' b', c' ≤ 3 ∧ b' ≤ 24 ∧ (b' ≠ 24 ∨ c' = 3) ∧
        q * 400 + c * 100 + b * 4 + a = q * 400 + c' * 100 + b' * 4 + 3 + 1 ∧
        n = 146097 * q + 36524 * c' + 1461 * b' + 365 * 3 + 366 := by
      by_cases h4 : c = 4
      · exact ⟨3,24,by omega,by omega,by omega,by omega,by omega⟩
      · exact ⟨c,b,by omega,by omega,by omega,by omega,by omega⟩
    obtain ⟨c',b',hc',hb',hleap,hyear,hn'⟩ := hcycle
    have hl := isLeap_cycles q c' b' 3 hc' hb' (by omega)
    have hy := daysBeforeYear_cycles q c' b' 3 hc' hb' (by omega)
    have hlt : isLeap (q * 400 + c' * 100 + b' * 4 + 3 + 1) = true := by
      rw [hl]
      simp only [decide_true,Bool.true_and,Bool.or_eq_true,decide_eq_true_eq]
      exact hleap
    simp only [Date.toOrdinal,Date.Valid,maxOrdinal,hyear,hlt,hy]
    have hm : monthLength true 12 = 31 := by decide
    have hbm : daysBeforeMonth true 12 = 335 := by decide
    omega
  · rw [if_neg hlast]
    have hl := isLeap_cycles q c b a (by omega) (by omega) (by omega)
    have hy := daysBeforeYear_cycles q c b a (by omega) (by omega) (by omega)
    have hspec := monthDay_spec (decide (a = 3) && (decide (b ≠ 24) || decide (c = 3))) d (by omega)
    simp only [Date.toOrdinal,Date.Valid,maxOrdinal,hl,hy]
    generalize monthDay (decide (a = 3) && (decide (b ≠ 24) || decide (c = 3))) d = md at hspec
    obtain ⟨h1,h2,h3,h4,h5⟩ := hspec
    exact ⟨by omega,fun hmax => ⟨by omega,by omega,h1,h2,h3,h4⟩⟩

/-! ## From dates back to day numbers -/

theorem daysBeforeYear_succ {year : ℕ} (h : 1 ≤ year) :
    daysBeforeYear (year + 1) = daysBeforeYear year + 365 + if isLeap year then 1 else 0 := by
  obtain ⟨n,rfl⟩ := Nat.exists_eq_add_of_le' h
  have h4 : (n + 1) / 4 = n / 4 + if (n + 1) % 4 = 0 then 1 else 0 := by split <;> omega
  have h100 : (n + 1) / 100 = n / 100 + if (n + 1) % 100 = 0 then 1 else 0 := by split <;> omega
  have h400 : (n + 1) / 400 = n / 400 + if (n + 1) % 400 = 0 then 1 else 0 := by split <;> omega
  have hle : n / 100 ≤ n / 4 := by omega
  have hdvd : ((n + 1) % 400 = 0 → (n + 1) % 100 = 0) ∧ ((n + 1) % 100 = 0 → (n + 1) % 4 = 0) := by omega
  unfold daysBeforeYear isLeap
  rw [Nat.add_sub_cancel,Nat.add_sub_cancel,h4,h100,h400]
  simp only [Bool.and_eq_true,Bool.or_eq_true,decide_eq_true_eq]
  generalize n / 4 = a at hle
  generalize n / 100 = b at hle
  generalize n / 400 = c
  by_cases h4 : (n + 1) % 4 = 0 <;> by_cases h100 : (n + 1) % 100 = 0 <;> by_cases h400 : (n + 1) % 400 = 0 <;>
    simp [h4,h100,h400] at hdvd ⊢ <;> omega

theorem daysBeforeYear_mono {y z : ℕ} (hy : 1 ≤ y) (h : y ≤ z) : daysBeforeYear y ≤ daysBeforeYear z := by
  induction h with
  | refl => exact Nat.le_refl _
  | @step z hyz ih =>
    rw [Nat.succ_eq_add_one,daysBeforeYear_succ (Nat.le_trans hy hyz)]
    omega

/-- A month ends before a later one begins, and with the year at the latest. -/
theorem daysBeforeMonth_add (leap : Bool) {month : ℕ} (hm : month ≤ 12) :
    daysBeforeMonth leap month + monthLength leap month ≤ 365 + (if leap then 1 else 0) ∧
      ∀ later ≤ 12, month < later →
        daysBeforeMonth leap month + monthLength leap month ≤ daysBeforeMonth leap later := by
  have hall : ∀ leap, ∀ m ≤ 12, daysBeforeMonth leap m + monthLength leap m ≤ 365 + (if leap then 1 else 0) ∧
      ∀ later ≤ 12, m < later → daysBeforeMonth leap m + monthLength leap m ≤ daysBeforeMonth leap later := by
    decide
  exact hall leap month hm

/-- The day of a valid date lies in its year. -/
theorem Date.Valid.bounds {d : Date} (h : d.Valid) :
    daysBeforeYear d.year < d.toOrdinal ∧ d.toOrdinal ≤ daysBeforeYear (d.year + 1) := by
  obtain ⟨hy,-,-,hm,hd1,hd2⟩ := h
  obtain ⟨hyear,-⟩ := daysBeforeMonth_add (isLeap d.year) hm
  rw [daysBeforeYear_succ hy]
  unfold Date.toOrdinal
  omega

theorem Date.Valid.le_maxOrdinal {d : Date} (h : d.Valid) : d.toOrdinal ≤ maxOrdinal := by
  have hlast : daysBeforeYear 10000 = maxOrdinal := by decide
  rw [← hlast]
  apply Nat.le_trans h.bounds.2
  apply daysBeforeYear_mono (Nat.le_add_left 1 _)
  exact Nat.succ_le_succ h.2.1

/-- No two valid dates have the same day number. -/
theorem Date.Valid.injective {d e : Date} (hd : d.Valid) (he : e.Valid) (h : d.toOrdinal = e.toOrdinal) : d = e := by
  have hbefore : ∀ {d e : Date}, d.Valid → e.Valid → d.year < e.year → d.toOrdinal < e.toOrdinal := by
    intro d e hd he hlt
    have hmono := daysBeforeYear_mono (Nat.le_add_left 1 d.year) hlt
    exact Nat.lt_of_le_of_lt (Nat.le_trans hd.bounds.2 hmono) he.bounds.1
  have hyear : d.year = e.year := by
    rcases Nat.lt_trichotomy d.year e.year with hlt | heq | hlt
    · exact absurd h (Nat.ne_of_lt (hbefore hd he hlt))
    · exact heq
    · exact absurd h (Nat.ne_of_gt (hbefore he hd hlt))
  obtain ⟨year,month,day⟩ := d
  obtain ⟨year',month',day'⟩ := e
  dsimp only at hyear
  subst hyear
  obtain ⟨-,-,-,hm,hd1,hd2⟩ := hd
  obtain ⟨-,-,-,hm',hd1',hd2'⟩ := he
  dsimp only at hm hd1 hd2 hm' hd1' hd2'
  unfold Date.toOrdinal at h
  dsimp only at h
  have hmonth : month = month' := by
    rcases Nat.lt_trichotomy month month' with hlt | heq | hlt
    · have hlater := (daysBeforeMonth_add (isLeap year) hm).2 month' hm' hlt
      omega
    · exact heq
    · have hlater := (daysBeforeMonth_add (isLeap year) hm').2 month hm hlt
      omega
  subst hmonth
  have hday : day = day' := by omega
  rw [hday]

theorem fromOrdinal_toOrdinal {d : Date} (h : d.Valid) : Date.fromOrdinal d.toOrdinal = d := by
  have hpos : 1 ≤ d.toOrdinal := Nat.lt_of_le_of_lt (Nat.zero_le _) h.bounds.1
  obtain ⟨heq,hvalid⟩ := fromOrdinal_spec hpos
  exact (hvalid h.le_maxOrdinal).injective h heq

end ShardVPN.Time
