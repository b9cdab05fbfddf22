import ShardVPN.Time.Grammar

/-! # Timestamps round-trip

A datetime is written with the fields of its UTC second and read back to that second,
whatever its offset. A text that names a real second is read and written again as it
was. The order of two datetimes is never swapped on the way.
-/
namespace ShardVPN.Ttl
open Time

/-- The UTC year of the datetime lies between 1000 and 9999. -/
def FourDigitYear (dt : DateTime) : Prop := yearStart 1000 ≤ dt.instant ∧ dt.instant < yearStart 10000

/-- ASCII digits, as many as the width says. -/
def Field (width : ℕ) (t : Text) : Prop := t.length = width ∧ ∀ c ∈ t, isAsciiDigit c = true

instance (width : ℕ) (t : Text) : Decidable (Field width t) :=
  decidable_of_iff (t.length = width ∧ t.all isAsciiDigit = true) (by simp [Field])

/-- A text of the form `YYYY-MM-DDTHH:MM:SSZ`, with the date and the time of day it names. -/
inductive Names : Text → Date → ℕ → ℕ → ℕ → Prop
  | intro {year month day hour minute second : Text} : Field 4 year → Field 2 month → Field 2 day →
      Field 2 hour → Field 2 minute → Field 2 second →
      Names (year ++ text "-" ++ month ++ text "-" ++ day ++ text "T" ++ hour ++ text ":" ++ minute ++ text ":" ++
        second ++ text "Z") ⟨Auth.value year,Auth.value month,Auth.value day⟩ (Auth.value hour)
        (Auth.value minute) (Auth.value second)

/-- A date of the calendar and a time of day on the clock. -/
def RealSecond (d : Date) (hour minute second : ℕ) : Prop :=
  d.Valid ∧ hour < 24 ∧ minute < 60 ∧ second < 60

variable {t : Text} {dt : DateTime}

theorem yearStart_end : yearStart 10000 = maxOrdinal * microsPerDay := by decide

theorem FourDigitYear.inCalendar (h : FourDigitYear dt) : InCalendar dt.instant := by
  refine ⟨Int.le_trans (Int.natCast_nonneg _) h.1,?_⟩
  have hlt := h.2
  rw [yearStart_end] at hlt
  exact_mod_cast hlt

/-! ## The fields of a text -/

theorem digit_value {c : CodePoint} (h : isAsciiDigit c = true) {n : ℕ} (hn : n % 10 = c.val - 48) : digit n = c := by
  have hc := inRange_iff.mp h
  apply Fin.ext
  unfold digit
  dsimp only
  omega

theorem Field.pad2 (h : Field 2 t) : Time.pad2 (Auth.value t) = t := by
  obtain ⟨hlength,hdigits⟩ := h
  obtain ⟨a,b,rfl⟩ := List.length_eq_two.mp hlength
  have ha := hdigits a List.mem_cons_self
  have hb := hdigits b (List.mem_cons_of_mem _ List.mem_cons_self)
  have hra := inRange_iff.mp ha
  have hrb := inRange_iff.mp hb
  have hvalue : Auth.value [a,b] = 10 * (a.val - 48) + (b.val - 48) := by
    simp [Auth.value,ofDigitValues,asciiDigitValues]
  unfold Time.pad2
  rw [hvalue,digit_value ha (by omega),digit_value hb (by omega)]

theorem Field.pad4 (h : Field 4 t) : Time.pad4 (Auth.value t) = t := by
  obtain ⟨hlength,hdigits⟩ := h
  match t, hlength with
  | [a,b,c,d], _ =>
    have ha := hdigits a (by simp)
    have hb := hdigits b (by simp)
    have hc := hdigits c (by simp)
    have hd := hdigits d (by simp)
    have hra := inRange_iff.mp ha
    have hrb := inRange_iff.mp hb
    have hrc := inRange_iff.mp hc
    have hrd := inRange_iff.mp hd
    have hvalue : Auth.value [a,b,c,d] =
        10 * (10 * (10 * (a.val - 48) + (b.val - 48)) + (c.val - 48)) + (d.val - 48) := by
      simp [Auth.value,ofDigitValues,asciiDigitValues]
    unfold Time.pad4
    rw [hvalue,digit_value ha (by omega),digit_value hb (by omega),digit_value hc (by omega),
      digit_value hd (by omega)]

/-- A text that names fields is the one that is written for them. -/
theorem Names.stampText {d : Date} {hour minute second : ℕ} (h : Names t d hour minute second) :
    Time.stampText d hour minute second = t := by
  obtain ⟨hy,hmo,hd,hh,hmi,hs⟩ := h
  unfold Time.stampText
  rw [hy.pad4,hmo.pad2,hd.pad2,hh.pad2,hmi.pad2,hs.pad2]
  simp only [List.append_assoc]
  rfl

/-! ## The round trips -/

/-- A datetime is read back to the beginning of its second, in UTC. -/
theorem rfc3339_read (h : InCalendar dt.instant) : ∃ t read, rfc3339 dt = .ok t ∧ parseRfc3339 t = some read ∧
    read.utcoffset = 0 ∧ read.instant = floorSecond dt.instant := by
  obtain ⟨t,ht⟩ := rfc3339_inCalendar h
  obtain ⟨read,hread,hoffset,hinstant⟩ := rfc3339_instant ht
  exact ⟨t,read,ht,hread,hoffset,hinstant⟩

/-- A text that names a real second is written again as it was. -/
theorem Names.written {d : Date} {hour minute second : ℕ} (h : Names t d hour minute second)
    (hreal : RealSecond d hour minute second) : ∃ read, parseRfc3339 t = some read ∧ rfc3339 read = .ok t := by
  obtain ⟨hd,hh,hm,hs⟩ := hreal
  obtain ⟨read,hread,hoffset,hwritten⟩ := strftime_parse hd hh hm hs
  rw [h.stampText] at hread hwritten
  refine ⟨read,hread,?_⟩
  unfold rfc3339 Time.rfc3339
  rw [astimezone_utc hoffset]
  exact congrArg Except.ok hwritten

theorem floorSecond_mono {s u : ℤ} (h : s ≤ u) : floorSecond s ≤ floorSecond u := by
  unfold floorSecond microsPerSecond
  omega

/-- Timestamps round-trip in both directions and keep the order of datetimes. -/
theorem timestamps_round_trip :
    (∀ dt : DateTime, FourDigitYear dt → ∃ t read, rfc3339 dt = .ok t ∧ parseRfc3339 t = some read ∧
      read.utcoffset = 0 ∧ read.instant = floorSecond dt.instant) ∧
    (∀ (t : Text) (d : Date) (hour minute second : ℕ), Names t d hour minute second →
      RealSecond d hour minute second → 1000 ≤ d.year →
      ∃ read, parseRfc3339 t = some read ∧ rfc3339 read = .ok t) ∧
    ∀ (a b : DateTime) (s t : Text) (x y : DateTime), FourDigitYear a → FourDigitYear b → rfc3339 a = .ok s →
      rfc3339 b = .ok t → parseRfc3339 s = some x → parseRfc3339 t = some y → a.instant ≤ b.instant →
      x.instant ≤ y.instant := by
  refine ⟨fun dt h => rfc3339_read h.inCalendar,fun t d hour minute second h hreal _ => h.written hreal,?_⟩
  intro a b s t x y _ _ ha hb hx hy hle
  obtain ⟨x',hx',-,hxa⟩ := rfc3339_instant ha
  obtain ⟨y',hy',-,hyb⟩ := rfc3339_instant hb
  obtain rfl := Option.some.inj (hx.symm.trans hx')
  obtain rfl := Option.some.inj (hy.symm.trans hy')
  rw [hxa,hyb]
  exact floorSecond_mono hle

/-- Half a second before midnight on a leap day, half past five hours west of UTC. -/
def leapDay : DateTime := ⟨yearStart 2024 + 60 * microsPerDay - 500000,-(19800 * microsPerSecond),by decide,by decide⟩

theorem names_leapDay : Names (text "2024-02-29T23:59:59Z") ⟨2024,2,29⟩ 23 59 59 := by
  have hfields : Field 4 (text "2024") ∧ Field 2 (text "02") ∧ Field 2 (text "29") ∧ Field 2 (text "23") ∧
      Field 2 (text "59") := by decide +kernel
  obtain ⟨hyear,hmonth,hday,hhour,hsixtieth⟩ := hfields
  have hvalues : Auth.value (text "2024") = 2024 ∧ Auth.value (text "02") = 2 ∧ Auth.value (text "29") = 29 ∧
      Auth.value (text "23") = 23 ∧ Auth.value (text "59") = 59 := by decide +kernel
  obtain ⟨hy,hmo,hd,hh,hs⟩ := hvalues
  have htext : text "2024" ++ text "-" ++ text "02" ++ text "-" ++ text "29" ++ text "T" ++ text "23" ++ text ":" ++
      text "59" ++ text ":" ++ text "59" ++ text "Z" = text "2024-02-29T23:59:59Z" := by decide +kernel
  have hnames := Names.intro hyear hmonth hday hhour hsixtieth hsixtieth
  rw [htext,hy,hmo,hd,hh,hs] at hnames
  exact hnames

theorem timestamps_round_trip_leapDay :
    (∃ t read, rfc3339 leapDay = .ok t ∧ parseRfc3339 t = some read ∧ read.utcoffset = 0 ∧
      read.instant = floorSecond leapDay.instant) ∧
    (∃ read, parseRfc3339 (text "2024-02-29T23:59:59Z") = some read ∧
      rfc3339 read = .ok (text "2024-02-29T23:59:59Z")) ∧
    ∃ s t x y, rfc3339 newYear = .ok s ∧ rfc3339 leapDay = .ok t ∧ parseRfc3339 s = some x ∧
      parseRfc3339 t = some y ∧ x.instant ≤ y.instant := by
  obtain ⟨hread,hwritten,horder⟩ := timestamps_round_trip
  have hleap : FourDigitYear leapDay := ⟨by decide,by decide⟩
  have hnew : FourDigitYear newYear := ⟨by decide,by decide⟩
  have hreal : RealSecond ⟨2024,2,29⟩ 23 59 59 := ⟨by decide,by decide,by decide,by decide⟩
  obtain ⟨s,x,hs,hx,-⟩ := hread newYear hnew
  obtain ⟨t,y,ht,hy,-⟩ := hread leapDay hleap
  have hle : newYear.instant ≤ leapDay.instant := by decide
  refine ⟨hread leapDay hleap,hwritten _ _ _ _ _ names_leapDay hreal (by decide),s,t,x,y,hs,ht,hx,hy,?_⟩
  exact horder newYear leapDay s t x y hnew hleap hs ht hx hy hle

end ShardVPN.Ttl
