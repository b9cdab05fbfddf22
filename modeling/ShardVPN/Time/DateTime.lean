import ShardVPN.Float.Binary64
import ShardVPN.Text.Basic
import ShardVPN.Time.Calendar

/-! # Aware datetimes and their RFC 3339 texts

A datetime is a wall time in microseconds with an offset from UTC. Formatting goes
through `astimezone(UTC)`; parsing is the regular expression that `strptime`
compiles from the format, whose two-digit fields may be one digit long and whose
unbounded digits may be digits of any script.
-/
namespace ShardVPN.Time

def microsPerSecond : ℕ := 1000000
def microsPerDay : ℕ := 86400 * microsPerSecond

structure DateTime where
  wall : ℕ
  utcoffset : ℤ
  wall_lt : wall < maxOrdinal * microsPerDay
  utcoffset_lt : utcoffset.natAbs < microsPerDay
deriving DecidableEq

namespace DateTime

theorem zero_utcoffset_lt : (0 : ℤ).natAbs < microsPerDay := by decide

/-- Microseconds of UTC; aware datetimes are compared and subtracted by it. -/
def instant (dt : DateTime) : ℤ := dt.wall - dt.utcoffset

/-- The UTC datetime of an instant; `none` stands for an `OverflowError`. -/
def ofInstant (t : ℤ) : Option DateTime :=
  if h : 0 ≤ t ∧ t < maxOrdinal * microsPerDay then
    some ⟨t.toNat,0,by omega,zero_utcoffset_lt⟩
  else none

/-- `dt + timedelta(microseconds=d)`; `none` stands for an `OverflowError`. -/
def add (dt : DateTime) (d : ℤ) : Option DateTime :=
  if h : 0 ≤ dt.wall + d ∧ dt.wall + d < maxOrdinal * microsPerDay then
    some ⟨(dt.wall + d).toNat,dt.utcoffset,by omega,dt.utcoffset_lt⟩
  else none

/-- `dt.astimezone(UTC)`. -/
def astimezone (dt : DateTime) : Option DateTime := ofInstant dt.instant

def date (dt : DateTime) : Date := Date.fromOrdinal (dt.wall / microsPerDay + 1)
def secondOfDay (dt : DateTime) : ℕ := dt.wall % microsPerDay / microsPerSecond

theorem toOrdinal_date (dt : DateTime) : dt.date.toOrdinal = dt.wall / microsPerDay + 1 :=
  (fromOrdinal_spec (Nat.le_add_left 1 _)).1

theorem date_valid (dt : DateTime) : dt.date.Valid := by
  refine (fromOrdinal_spec (Nat.le_add_left 1 _)).2 ?_
  exact Nat.succ_le_of_lt (Nat.div_lt_of_lt_mul (Nat.mul_comm maxOrdinal microsPerDay ▸ dt.wall_lt))

theorem secondOfDay_lt (dt : DateTime) : dt.secondOfDay < 86400 := by
  have h := Nat.mod_lt dt.wall (show 0 < microsPerDay by decide)
  exact Nat.div_lt_of_lt_mul (by simpa [microsPerDay,Nat.mul_comm] using h)

end DateTime

/-! ## Formatting -/

def pad2 (n : ℕ) : Text := [digit (n / 10),digit n]
def pad4 (n : ℕ) : Text := [digit (n / 1000),digit (n / 100),digit (n / 10),digit n]

/-- `strftime("%Y-%m-%dT%H:%M:%SZ")`; no year has more than four digits. -/
def strftime (dt : DateTime) : Text :=
  pad4 dt.date.year ++ 45 :: (pad2 dt.date.month ++ 45 :: (pad2 dt.date.day ++
    84 :: (pad2 (dt.secondOfDay / 3600) ++ 58 :: (pad2 (dt.secondOfDay / 60 % 60) ++
      58 :: (pad2 (dt.secondOfDay % 60) ++ [90])))))

/-- `rfc3339(dt)`; `none` stands for the `OverflowError` of `astimezone`. -/
def rfc3339 (dt : DateTime) : Option Text := dt.astimezone.map strftime

/-! ## Parsing -/

def between (lo hi : ℕ) (c : CodePoint) : Option ℕ := if inRange lo hi c then some (c.val - 48) else none

/-- `\d\d\d\d`. -/
def yearField : Text → Option ℕ
  | [a,b,c,d] => do
    let a ← decimalValue a
    let b ← decimalValue b
    let c ← decimalValue c
    let d ← decimalValue d
    some (((a * 10 + b) * 10 + c) * 10 + d)
  | _ => none

/-- `1[0-2]|0[1-9]|[1-9]`. -/
def monthField : Text → Option ℕ
  | [a,b] => if a = 49 then (between 48 50 b).map (10 + ·) else if a = 48 then between 49 57 b else none
  | [a] => between 49 57 a
  | _ => none

/-- `3[0-1]|[1-2]\d|0[1-9]|[1-9]| [1-9]`. -/
def dayField : Text → Option ℕ
  | [a,b] =>
    if a = 51 then (between 48 49 b).map (30 + ·)
    else if a = 49 ∨ a = 50 then (decimalValue b).map ((a.val - 48) * 10 + ·)
    else if a = 48 ∨ a = 32 then between 49 57 b
    else none
  | [a] => between 49 57 a
  | _ => none

/-- `2[0-3]|[0-1]\d|\d`. -/
def hourField : Text → Option ℕ
  | [a,b] =>
    if a = 50 then (between 48 51 b).map (20 + ·)
    else if a = 48 ∨ a = 49 then (decimalValue b).map ((a.val - 48) * 10 + ·)
    else none
  | [a] => decimalValue a
  | _ => none

/-- `[0-5]\d|\d`. -/
def minuteField : Text → Option ℕ
  | [a,b] => if inRange 48 53 a then (decimalValue b).map ((a.val - 48) * 10 + ·) else none
  | [a] => decimalValue a
  | _ => none

/-- `6[0-1]|[0-5]\d|\d`. -/
def secondField : Text → Option ℕ
  | [a,b] => if a = 54 then (between 48 49 b).map (60 + ·) else minuteField [a,b]
  | t => minuteField t

/-- The text before the first separator and the text after it; letters match in
either case. No field can hold a separator of the format. -/
def cut (separator lowered : CodePoint) : Text → Option (Text × Text)
  | [] => none
  | c :: rest =>
    if c = separator ∨ c = lowered then some ([],rest)
    else (cut separator lowered rest).map (fun p => (c :: p.1,p.2))

/-- The UTC datetime of a date and a time of day; `none` stands for the `ValueError`
of a field that is out of range. -/
def ofFields (d : Date) (hour minute second : ℕ) : Option DateTime :=
  if d.Valid ∧ hour ≤ 23 ∧ minute ≤ 59 ∧ second ≤ 59 then
    DateTime.ofInstant (((d.toOrdinal - 1) * 86400 + hour * 3600 + minute * 60 + second) * microsPerSecond)
  else none

/-- `parse_rfc3339(value)`; `none` stands for its `ValueError`. -/
def parseRfc3339 (value : Text) : Option DateTime := do
  let (year,rest) ← cut 45 45 value
  let (month,rest) ← cut 45 45 rest
  let (day,rest) ← cut 84 116 rest
  let (hour,rest) ← cut 58 58 rest
  let (minute,rest) ← cut 58 58 rest
  let (second,rest) ← cut 90 122 rest
  if rest ≠ [] then none
  let year ← yearField year
  let month ← monthField month
  let day ← dayField day
  let hour ← hourField hour
  let minute ← minuteField minute
  let second ← secondField second
  ofFields ⟨year,month,day⟩ hour minute second

/-! ## Differences -/

/-- `difference.total_seconds()` of a difference in microseconds. -/
def totalSeconds (difference : ℤ) : ℚ := Binary64.nearest (difference / microsPerSecond)

/-- `int(difference.total_seconds())`. -/
def wholeSeconds (difference : ℤ) : ℤ := Binary64.trunc (totalSeconds difference)

/-! ## Clock readings -/

/-- A reading of the system clock: a UTC datetime from 1970 on. -/
structure WallClock extends DateTime where
  utc : utcoffset = 0
  from_epoch : 719162 * microsPerDay ≤ wall

/-- `time.time()`, in microseconds. -/
def WallClock.time (now : WallClock) : ℤ := now.wall - 719162 * microsPerDay

end ShardVPN.Time
