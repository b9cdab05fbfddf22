import Mathlib.Algebra.Ring.Int.Defs
import ShardVPN.Auth.Verify
import ShardVPN.Program.Statusdoc
import ShardVPN.Program.Watchdog
import ShardVPN.Time.Seconds

/-! # Durations keep their minutes

A duration is shown in days, hours and minutes, with leading fields left out. The
minutes are read back from the text, so two durations look alike exactly when they
have the same number of whole minutes. A number of days with more than 4300 digits is
not printed, but no two datetimes are that far apart.
-/
namespace ShardVPN.Ttl
open Time

/-- `format_duration(seconds)` where `formatDuration` is the text: the interpreter prints no numeral of more
digits than `int` reads. -/
def printDuration (seconds : ℤ) : Except Exn Text :=
  if maxStrDigits < (decimal (seconds.toNat / 86400)).length then
    .error (.valueError (text ("Exceeds the limit (4300 digits) for integer string conversion; " ++
      "use sys.set_int_max_str_digits() to increase the limit")))
  else .ok (formatDuration seconds)

/-- The days of the duration have at most 4300 digits. -/
def Printable (seconds : ℤ) : Prop := seconds < (86400 * 10 ^ maxStrDigits : ℕ)

/-- Minutes on the clock, after whole days and hours. -/
structure Span where
  days : ℕ
  hours : ℕ
  minutes : ℕ
  hours_lt : hours < 24
  minutes_lt : minutes < 60
deriving DecidableEq

namespace Span

def total (x : Span) : ℕ := x.days * 1440 + x.hours * 60 + x.minutes

def ofMinutes (n : ℕ) : Span :=
  ⟨n / 1440,n % 1440 / 60,n % 60,by omega,Nat.mod_lt n (by decide)⟩

@[simp] theorem total_ofMinutes (n : ℕ) : (ofMinutes n).total = n := by
  unfold total ofMinutes
  dsimp only
  omega

@[simp] theorem ofMinutes_total (x : Span) : ofMinutes x.total = x := by
  obtain ⟨days,hours,minutes,hh,hm⟩ := x
  unfold total ofMinutes
  simp only [mk.injEq]
  omega

end Span

/-- A text of the form `[Dd][Hh]Mm`: the days are there unless they are zero, and the hours are there with
the days or unless they are zero. -/
inductive Reads (x : Span) : Text → Prop
  | days : x.days ≠ 0 →
      Reads x (decimal x.days ++ text "d" ++ decimal x.hours ++ text "h" ++ decimal x.minutes ++ text "m")
  | hours : x.days = 0 → x.hours ≠ 0 → Reads x (decimal x.hours ++ text "h" ++ decimal x.minutes ++ text "m")
  | minutes : x.days = 0 → x.hours = 0 → Reads x (decimal x.minutes ++ text "m")

/-! ## One reading -/

theorem decimal_split (n : ℕ) {c : CodePoint} (hc : isAsciiDigit c = false) (rest : Text) :
    (decimal n ++ c :: rest).takeWhile isAsciiDigit = decimal n ∧
      (decimal n ++ c :: rest).dropWhile isAsciiDigit = c :: rest := by
  have hstop : ¬isAsciiDigit c = true := by simp [hc]
  rw [List.takeWhile_append_of_pos (decimal_digits n),List.dropWhile_append_of_pos (decimal_digits n),
    List.takeWhile_cons_of_neg hstop,List.dropWhile_cons_of_neg hstop]
  exact ⟨List.append_nil _,rfl⟩

/-- A numeral ends at the letter of its unit. -/
theorem decimal_cut {a b : ℕ} {c d : CodePoint} {rest rest' : Text} (hc : isAsciiDigit c = false)
    (hd : isAsciiDigit d = false) (h : decimal a ++ c :: rest = decimal b ++ d :: rest') :
    a = b ∧ c = d ∧ rest = rest' := by
  obtain ⟨htake,hdrop⟩ := decimal_split a hc rest
  obtain ⟨htake',hdrop'⟩ := decimal_split b hd rest'
  rw [h] at htake hdrop
  have hnumeral : decimal a = decimal b := htake.symm.trans htake'
  obtain ⟨hletter,hrest⟩ := List.cons.inj (hdrop.symm.trans hdrop')
  refine ⟨?_,hletter,hrest⟩
  rw [← Auth.value_decimal a,hnumeral,Auth.value_decimal]

/-- A text has one reading at most. -/
theorem Reads.unique {t u : Text} {x y : Span} (hx : Reads x t) (hy : Reads y u) (h : t = u) : x = y := by
  have hd : isAsciiDigit 100 = false := by decide
  have hh : isAsciiDigit 104 = false := by decide
  have hm : isAsciiDigit 109 = false := by decide
  have htotal : x.total = y.total := by
    unfold Span.total
    cases hx with
    | days =>
      simp only [List.append_assoc] at h
      cases hy with
      | days =>
        simp only [List.append_assoc] at h
        obtain ⟨hdays,-,h⟩ := decimal_cut hd hd h
        obtain ⟨hhours,-,h⟩ := decimal_cut hh hh h
        obtain ⟨hminutes,-,-⟩ := decimal_cut hm hm h
        rw [hdays,hhours,hminutes]
      | hours =>
        simp only [List.append_assoc] at h
        obtain ⟨-,hletter,-⟩ := decimal_cut hd hh h
        exact absurd hletter (by decide)
      | minutes =>
        obtain ⟨-,hletter,-⟩ := decimal_cut hd hm h
        exact absurd hletter (by decide)
    | hours hxd =>
      simp only [List.append_assoc] at h
      cases hy with
      | days =>
        simp only [List.append_assoc] at h
        obtain ⟨-,hletter,-⟩ := decimal_cut hh hd h
        exact absurd hletter (by decide)
      | hours hyd =>
        simp only [List.append_assoc] at h
        obtain ⟨hhours,-,h⟩ := decimal_cut hh hh h
        obtain ⟨hminutes,-,-⟩ := decimal_cut hm hm h
        rw [hxd,hyd,hhours,hminutes]
      | minutes =>
        obtain ⟨-,hletter,-⟩ := decimal_cut hh hm h
        exact absurd hletter (by decide)
    | minutes hxd hxh =>
      cases hy with
      | days =>
        simp only [List.append_assoc] at h
        obtain ⟨-,hletter,-⟩ := decimal_cut hm hd h
        exact absurd hletter (by decide)
      | hours =>
        simp only [List.append_assoc] at h
        obtain ⟨-,hletter,-⟩ := decimal_cut hm hh h
        exact absurd hletter (by decide)
      | minutes hyd hyh =>
        obtain ⟨hminutes,-,-⟩ := decimal_cut hm hm h
        rw [hxd,hxh,hyd,hyh,hminutes]
  rw [← x.ofMinutes_total,htotal,y.ofMinutes_total]

/-! ## Durations -/

/-- A duration is shown as its whole minutes, and none below zero. -/
theorem formatDuration_reads (seconds : ℤ) :
    Reads (.ofMinutes (seconds.toNat / 60)) (formatDuration seconds) := by
  have hdays : seconds.toNat / 86400 = (Span.ofMinutes (seconds.toNat / 60)).days := by
    unfold Span.ofMinutes
    dsimp only
    omega
  have hhours : seconds.toNat % 86400 / 3600 = (Span.ofMinutes (seconds.toNat / 60)).hours := by
    unfold Span.ofMinutes
    dsimp only
    omega
  have hminutes : seconds.toNat % 86400 % 3600 / 60 = (Span.ofMinutes (seconds.toNat / 60)).minutes := by
    unfold Span.ofMinutes
    dsimp only
    omega
  unfold formatDuration
  dsimp only
  rw [hdays,hhours,hminutes]
  split
  · rename_i hd
    exact .days hd
  · rename_i hd
    split
    · rename_i hh
      exact .hours (not_not.mp hd) hh
    · rename_i hh
      exact .minutes (not_not.mp hd) (not_not.mp hh)

theorem wholeMinutes (seconds : ℤ) : ((seconds.toNat / 60 : ℕ) : ℤ) = max seconds 0 / 60 := by
  rw [Int.natCast_ediv,Int.toNat_eq_max]
  rfl

/-- Durations are shown alike exactly when they have the same number of whole minutes. -/
theorem formatDuration_inj (s t : ℤ) : formatDuration s = formatDuration t ↔ max s 0 / 60 = max t 0 / 60 := by
  rw [← wholeMinutes,← wholeMinutes]
  constructor
  · intro h
    have hspan := (formatDuration_reads s).unique (formatDuration_reads t) h
    rw [← Span.total_ofMinutes (s.toNat / 60),hspan,Span.total_ofMinutes]
  · intro h
    have hminutes : s.toNat / 60 = t.toNat / 60 := by exact_mod_cast h
    have hdays : s.toNat / 86400 = t.toNat / 86400 := by omega
    have hhours : s.toNat % 86400 / 3600 = t.toNat % 86400 / 3600 := by omega
    have hrest : s.toNat % 86400 % 3600 / 60 = t.toNat % 86400 % 3600 / 60 := by omega
    unfold formatDuration
    dsimp only
    rw [hdays,hhours,hrest]

theorem formatDuration_minute {seconds : ℤ} (h : seconds < 60) : formatDuration seconds = text "0m" := by
  have hzero : formatDuration 0 = text "0m" := rfl
  rw [← hzero]
  apply (formatDuration_inj seconds 0).mpr
  omega

/-! ## Printing -/

theorem printable_iff (seconds : ℤ) :
    Printable seconds ↔ (decimal (seconds.toNat / 86400)).length ≤ maxStrDigits := by
  have hlimit : 0 < maxStrDigits := by decide
  have hpower : 0 < 10 ^ maxStrDigits := Nat.pow_pos (by decide)
  unfold decimal Printable
  rw [List.length_map,Nat.length_toDigits_le_iff (by decide) hlimit]
  generalize 10 ^ maxStrDigits = power at hpower
  omega

theorem printDuration_of_printable {seconds : ℤ} (h : Printable seconds) :
    printDuration seconds = .ok (formatDuration seconds) := by
  unfold printDuration
  rw [if_neg (Nat.not_lt.mpr ((printable_iff seconds).mp h))]

theorem printDuration_refused {seconds : ℤ} (h : ¬Printable seconds) :
    ∃ e, printDuration seconds = .error e ∧ e.isValueError = true := by
  unfold printDuration
  rw [if_pos (Nat.lt_of_not_le (mt (printable_iff seconds).mpr h))]
  exact ⟨_,rfl,rfl⟩

theorem printable_of_lt {seconds : ℤ} (h : seconds < 86400 * 10 ^ 8) : Printable seconds := by
  have hpower : 10 ^ 8 ≤ 10 ^ maxStrDigits := Nat.pow_le_pow_right (by decide) (by decide)
  unfold Printable
  generalize 10 ^ maxStrDigits = power at hpower
  omega

theorem between_lt (t u : DateTime) : wholeSeconds (t.instant - u.instant) < 86400 * 10 ^ 8 := by
  have ht := t.wall_lt
  have hto := t.utcoffset_lt
  have huo := u.utcoffset_lt
  have hle : t.instant - u.instant ≤ 86400 * 10 ^ 7 * microsPerSecond := by
    unfold DateTime.instant
    simp only [microsPerDay,microsPerSecond,maxOrdinal] at ht hto huo ⊢
    omega
  exact (wholeSeconds_le (by decide) hle).trans_lt (by decide)

/-- The durations of a status document are always printed. -/
theorem status_durations_printed :
    (∀ t u : DateTime, printDuration (wholeSeconds (t.instant - u.instant)) =
      .ok (formatDuration (wholeSeconds (t.instant - u.instant)))) ∧
    ∀ (points : List Datapoint) (now : DateTime) (floor : Rat) (seconds : ℤ),
      Watchdog.idleSeconds points now floor = some seconds → printDuration seconds = .ok (formatDuration seconds) := by
  constructor
  · intro t u
    exact printDuration_of_printable (printable_of_lt (between_lt t u))
  · intro points now floor seconds h
    have hsince : ∀ p : Datapoint, Printable (max (wholeSeconds (now.instant - p.timestamp.instant)) 0) := by
      intro p
      have hlt := between_lt now p.timestamp
      apply printable_of_lt
      omega
    apply printDuration_of_printable
    unfold Watchdog.idleSeconds at h
    dsimp only at h
    split at h
    · cases h
    · split at h
      · obtain rfl := Option.some.inj h
        exact hsince _
      · obtain rfl := Option.some.inj h
        exact hsince _

/-- A printable duration is shown as a text with one reading, its whole minutes; two of them are shown alike
exactly when they have the same number of whole minutes. Every other duration is refused. -/
theorem duration_lossless :
    (∀ seconds : ℤ, Printable seconds → ∃ t x, printDuration seconds = .ok t ∧ (∀ y, Reads y t ↔ y = x) ∧
      (x.total : ℤ) = max seconds 0 / 60) ∧
    (∀ s t : ℤ, Printable s → Printable t →
      (printDuration s = printDuration t ↔ max s 0 / 60 = max t 0 / 60)) ∧
    ∀ seconds : ℤ, ¬Printable seconds → ∃ e, printDuration seconds = .error e ∧ e.isValueError = true := by
  refine ⟨?_,?_,fun seconds h => printDuration_refused h⟩
  · intro seconds h
    have hreads := formatDuration_reads seconds
    refine ⟨_,_,printDuration_of_printable h,fun y => ⟨fun hy => hy.unique hreads rfl,?_⟩,?_⟩
    · rintro rfl
      exact hreads
    · rw [Span.total_ofMinutes]
      exact wholeMinutes seconds
  · intro s t hs ht
    rw [printDuration_of_printable hs,printDuration_of_printable ht,← formatDuration_inj]
    exact ⟨Except.ok.inj,congrArg Except.ok⟩

/-- The shortest duration that is not printed. -/
def tooLong : ℤ := (86400 * 10 ^ maxStrDigits : ℕ)

theorem tooLong_unprintable : ¬Printable tooLong := Int.lt_irrefl _

/-- A day and an hour, the last second of the same minute, and a duration with too many days. -/
theorem duration_lossless_dayAndHour :
    (∃ t x, printDuration 90000 = .ok t ∧ (∀ y, Reads y t ↔ y = x) ∧ (x.total : ℤ) = max 90000 0 / 60) ∧
    (printDuration 90000 = printDuration 90059 ↔ max (90000 : ℤ) 0 / 60 = max 90059 0 / 60) ∧
    ∃ e, printDuration tooLong = .error e ∧ e.isValueError = true := by
  obtain ⟨hread,hinj,hrefused⟩ := duration_lossless
  have hstart : Printable 90000 := printable_of_lt (by decide)
  have hend : Printable 90059 := printable_of_lt (by decide)
  exact ⟨hread 90000 hstart,hinj 90000 90059 hstart hend,hrefused tooLong tooLong_unprintable⟩

/-- A duration with too many days is not shown at all. -/
theorem tooLong_refused : ¬∃ t x, printDuration tooLong = .ok t ∧ Reads x t := by
  rintro ⟨t,x,ht,-⟩
  obtain ⟨e,he,-⟩ := printDuration_refused tooLong_unprintable
  cases ht.symm.trans he

end ShardVPN.Ttl
