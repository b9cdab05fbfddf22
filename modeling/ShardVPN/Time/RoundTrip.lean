import ShardVPN.Time.DateTime

/-! # Timestamps read back

What `strftime` writes is parsed to the same second. The
fields are read one by one, each up to the separator the format puts after it.
-/
namespace ShardVPN.Time

/-- A field ends at the first separator. -/
theorem cut_append {separator lowered : CodePoint} {field : Text}
    (h : ∀ c ∈ field, c ≠ separator ∧ c ≠ lowered) (rest : Text) :
    cut separator lowered (field ++ separator :: rest) = some (field,rest) := by
  induction field with
  | nil => simp [cut]
  | cons c field ih =>
    have hc := h c List.mem_cons_self
    simp [cut,hc.1,hc.2,ih (fun d hd => h d (List.mem_cons_of_mem c hd))]

theorem digit_ne {c : CodePoint} (hc : isAsciiDigit c = false) (n : ℕ) : digit n ≠ c := by
  rintro rfl
  rw [isAsciiDigit_digit] at hc
  cases hc

theorem pad2_ne {c d : CodePoint} (hc : isAsciiDigit c = false) (hd : isAsciiDigit d = false) (n : ℕ) :
    ∀ x ∈ pad2 n, x ≠ c ∧ x ≠ d := by
  intro x hx
  rcases List.mem_cons.mp hx with rfl | hx
  · exact ⟨digit_ne hc _,digit_ne hd _⟩
  · rw [List.mem_singleton.mp hx]
    exact ⟨digit_ne hc _,digit_ne hd _⟩

theorem pad4_ne {c d : CodePoint} (hc : isAsciiDigit c = false) (hd : isAsciiDigit d = false) (n : ℕ) :
    ∀ x ∈ pad4 n, x ≠ c ∧ x ≠ d := by
  intro x hx
  rw [pad4] at hx
  simp only [List.mem_cons,List.not_mem_nil,or_false] at hx
  rcases hx with rfl | rfl | rfl | rfl <;> exact ⟨digit_ne hc _,digit_ne hd _⟩

theorem yearField_pad4 {n : ℕ} (hn : n ≤ 9999) : yearField (pad4 n) = some n := by
  simp only [yearField,pad4,decimalValue_digit,Option.bind_eq_bind,Option.bind_some,Option.some.injEq]
  omega

/-- Every two-digit field reads back what `pad2` wrote. -/
theorem fields_pad2 : ∀ n < 60, (n < 13 → 1 ≤ n → monthField (pad2 n) = some n) ∧
    (n < 32 → 1 ≤ n → dayField (pad2 n) = some n) ∧ (n < 24 → hourField (pad2 n) = some n) ∧
    minuteField (pad2 n) = some n ∧ secondField (pad2 n) = some n := by decide +kernel

theorem monthLength_le (leap : Bool) {month : ℕ} (h : month ≤ 12) : monthLength leap month ≤ 31 := by
  have hall : ∀ leap, ∀ m ≤ 12, monthLength leap m ≤ 31 := by decide
  exact hall leap month h

/-- The same datetime in UTC with its sub-second part dropped. -/
def DateTime.floorSecond (dt : DateTime) : DateTime :=
  ⟨dt.wall / microsPerSecond * microsPerSecond,0,
    Nat.lt_of_le_of_lt (Nat.div_mul_le_self _ _) dt.wall_lt,zero_utcoffset_lt⟩

theorem ofFields_date (dt : DateTime) :
    ofFields dt.date (dt.secondOfDay / 3600) (dt.secondOfDay / 60 % 60) (dt.secondOfDay % 60) =
      some dt.floorSecond := by
  have hs := dt.secondOfDay_lt
  have hwall : (dt.date.toOrdinal - 1) * 86400 + dt.secondOfDay / 3600 * 3600 +
      dt.secondOfDay / 60 % 60 * 60 + dt.secondOfDay % 60 = dt.wall / microsPerSecond := by
    rw [dt.toOrdinal_date,Nat.add_sub_cancel]
    simp only [DateTime.secondOfDay,microsPerDay,microsPerSecond]
    omega
  have hlt : dt.wall / microsPerSecond * microsPerSecond < maxOrdinal * microsPerDay :=
    Nat.lt_of_le_of_lt (Nat.div_mul_le_self _ _) dt.wall_lt
  have hord : 1 ≤ dt.date.toOrdinal := by
    rw [dt.toOrdinal_date]
    exact Nat.le_add_left 1 _
  have hcast : ((dt.date.toOrdinal : ℤ) - 1) * 86400 + (dt.secondOfDay / 3600 : ℕ) * 3600 +
      (dt.secondOfDay / 60 % 60 : ℕ) * 60 + (dt.secondOfDay % 60 : ℕ) =
        ((dt.wall / microsPerSecond : ℕ) : ℤ) := by
    rw [← hwall]
    omega
  rw [ofFields,if_pos ⟨dt.date_valid,by omega,by omega,by omega⟩,hcast,DateTime.ofInstant]
  rw [dif_pos (by constructor <;> exact_mod_cast (by first | exact Nat.zero_le _ | exact hlt))]
  simp only [Option.some.injEq,DateTime.floorSecond,DateTime.mk.injEq,and_true]
  exact_mod_cast Int.toNat_natCast _

/-- The text of a date and a time of day. -/
def stampText (d : Date) (hour minute second : ℕ) : Text :=
  pad4 d.year ++ 45 :: (pad2 d.month ++ 45 :: (pad2 d.day ++
    84 :: (pad2 hour ++ 58 :: (pad2 minute ++ 58 :: (pad2 second ++ [90])))))

theorem strftime_eq (dt : DateTime) : strftime dt =
    stampText dt.date (dt.secondOfDay / 3600) (dt.secondOfDay / 60 % 60) (dt.secondOfDay % 60) := rfl

/-- Parsing reads the fields back that were written. -/
theorem parse_stampText {d : Date} {hour minute second : ℕ} (hd : d.Valid) (hh : hour < 24) (hm : minute < 60)
    (hs : second < 60) : parseRfc3339 (stampText d hour minute second) = ofFields d hour minute second := by
  obtain ⟨-,hyear,hm1,hm2,hd1,hd2⟩ := hd
  have hd3 := Nat.le_trans hd2 (monthLength_le _ hm2)
  obtain ⟨hmonth,-⟩ := fields_pad2 d.month (by omega)
  obtain ⟨-,hday,-⟩ := fields_pad2 d.day (by omega)
  obtain ⟨-,-,hhour,-⟩ := fields_pad2 hour (by omega)
  obtain ⟨-,-,-,hminute,-⟩ := fields_pad2 minute hm
  obtain ⟨-,-,-,-,hsecond⟩ := fields_pad2 second hs
  have hdash : isAsciiDigit 45 = false := by decide
  have hcolon : isAsciiDigit 58 = false := by decide
  have hT : isAsciiDigit 84 = false ∧ isAsciiDigit 116 = false := by decide
  have hZ : isAsciiDigit 90 = false ∧ isAsciiDigit 122 = false := by decide
  rw [parseRfc3339,stampText,cut_append (pad4_ne hdash hdash _)]
  simp only [Option.bind_eq_bind,Option.bind_some,cut_append (pad2_ne hdash hdash _),
    cut_append (pad2_ne hT.1 hT.2 _),cut_append (pad2_ne hcolon hcolon _),cut_append (pad2_ne hZ.1 hZ.2 _),
    yearField_pad4 hyear,hmonth (by omega) hm1,hday (by omega) hd1,hhour hh,hminute,hsecond,
    ne_eq,not_true_eq_false,↓reduceIte]

/-- Formatting and parsing drops the sub-second part and nothing else. -/
theorem parse_strftime (dt : DateTime) : parseRfc3339 (strftime dt) = some dt.floorSecond := by
  have hs := dt.secondOfDay_lt
  rw [strftime_eq,parse_stampText dt.date_valid (by omega) (by omega) (by omega)]
  exact ofFields_date dt

/-- A valid date and time of day is that of a datetime in UTC. -/
theorem ofFields_valid {d : Date} {hour minute second : ℕ} (hd : d.Valid) (hh : hour < 24) (hm : minute < 60)
    (hs : second < 60) : ∃ dt, ofFields d hour minute second = some dt ∧ dt.utcoffset = 0 ∧ dt.date = d ∧
      dt.secondOfDay = hour * 3600 + minute * 60 + second := by
  obtain ⟨hpos,-⟩ := hd.bounds
  have hmax := hd.le_maxOrdinal
  have hsecond : hour * 3600 + minute * 60 + second < 86400 := by omega
  generalize hn : hour * 3600 + minute * 60 + second = n at hsecond
  have hday : 1 ≤ d.toOrdinal := Nat.lt_of_le_of_lt (Nat.zero_le _) hpos
  obtain ⟨k,hk⟩ := Nat.exists_eq_add_of_le' hday
  have hcast : (((d.toOrdinal : ℤ) - 1) * 86400 + hour * 3600 + minute * 60 + second) * microsPerSecond =
      ((k * microsPerDay + n * microsPerSecond : ℕ) : ℤ) := by
    rw [hk,← hn]
    unfold microsPerDay microsPerSecond
    omega
  have hlt : k * microsPerDay + n * microsPerSecond < maxOrdinal * microsPerDay := by
    unfold microsPerDay microsPerSecond
    omega
  unfold ofFields DateTime.ofInstant
  rw [if_pos ⟨hd,by omega,by omega,by omega⟩,hcast,dif_pos ⟨Int.natCast_nonneg _,by exact_mod_cast hlt⟩]
  refine ⟨_,rfl,rfl,?_,?_⟩
  · unfold DateTime.date
    dsimp only
    have hquotient : (k * microsPerDay + n * microsPerSecond) / microsPerDay + 1 = d.toOrdinal := by
      rw [hk]
      unfold microsPerDay microsPerSecond
      omega
    rw [Int.toNat_natCast,hquotient]
    exact fromOrdinal_toOrdinal hd
  · unfold DateTime.secondOfDay
    dsimp only
    rw [Int.toNat_natCast]
    unfold microsPerDay microsPerSecond
    omega

/-- A text of a valid date and time of day is parsed to a datetime of that text. -/
theorem strftime_parse {d : Date} {hour minute second : ℕ} (hd : d.Valid) (hh : hour < 24) (hm : minute < 60)
    (hs : second < 60) : ∃ dt, parseRfc3339 (stampText d hour minute second) = some dt ∧ dt.utcoffset = 0 ∧
      strftime dt = stampText d hour minute second := by
  obtain ⟨dt,hdt,hoffset,hdate,hsecond⟩ := ofFields_valid hd hh hm hs
  refine ⟨dt,(parse_stampText hd hh hm hs).trans hdt,hoffset,?_⟩
  have hhour : dt.secondOfDay / 3600 = hour := by omega
  have hminute : dt.secondOfDay / 60 % 60 = minute := by omega
  have hrest : dt.secondOfDay % 60 = second := by omega
  rw [strftime_eq,hdate,hhour,hminute,hrest]

/-! ## Clock readings -/

/-- A datetime in UTC is its own UTC datetime. -/
theorem astimezone_utc {dt : DateTime} (h : dt.utcoffset = 0) : dt.astimezone = some dt := by
  have hi : dt.instant = dt.wall := by rw [DateTime.instant,h,Int.sub_zero]
  have hlt := dt.wall_lt
  rw [DateTime.astimezone,DateTime.ofInstant,hi,dif_pos ⟨by omega,by exact_mod_cast hlt⟩]
  obtain ⟨wall,utcoffset,wall_lt,utcoffset_lt⟩ := dt
  obtain rfl : utcoffset = 0 := h
  simp

/-- A clock reading is written and read back to its own second. -/
theorem WallClock.rfc3339 (now : WallClock) :
    rfc3339 now.toDateTime = some (strftime now.toDateTime) ∧
      parseRfc3339 (strftime now.toDateTime) = some now.floorSecond := by
  refine ⟨?_,parse_strftime now.toDateTime⟩
  rw [ShardVPN.Time.rfc3339,astimezone_utc now.utc]
  rfl

end ShardVPN.Time
