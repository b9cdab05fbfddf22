import ShardVPN.Auth.Verify
import ShardVPN.Program.Ttl
import ShardVPN.Time.RoundTrip

/-! # What a TTL means

An accepted TTL is stored as a timestamp of whole seconds and read back by every
sweep. The node expires that many seconds after the second in which the request was
made, no earlier and for good.
-/
namespace ShardVPN.Ttl
open Time

/-- A TTL text denotes a number of seconds: ASCII digits and the letter of a unit. -/
inductive Denotes : Text → ℕ → Prop
  | intro {digits : Text} {letter : CodePoint} {unit : ℕ} : digits ≠ [] → (∀ c ∈ digits, isAsciiDigit c = true) →
      unitSeconds letter = some unit → Denotes (digits ++ [letter]) (Auth.value digits * unit)

/-- The beginning of the second of an instant. -/
def floorSecond (t : ℤ) : ℤ := t / microsPerSecond * microsPerSecond

variable {ttl expiresAt : Text} {n : ℕ} {now : DateTime}

theorem ttlPattern_denotes {digits : Text} {letter : CodePoint} {unit : ℕ} (hne : digits ≠ [])
    (hdigits : ∀ c ∈ digits, isAsciiDigit c = true) (hunit : unitSeconds letter = some unit) :
    digits ++ [letter] ∉ noExpiry ∧ ttlPattern (digits ++ [letter]) = some (digits,unit) := by
  have hlast : (digits ++ [letter]).getLast? = some letter := List.getLast?_concat
  have hmem : digits ++ [letter] ∉ noExpiry := by
    intro hmem
    rcases List.mem_cons.mp hmem with hspelling | hmem
    · rw [hspelling] at hlast
      obtain rfl := Option.some.inj hlast
      cases hunit
    · rw [List.mem_singleton.mp hmem] at hlast
      obtain rfl := Option.some.inj hlast
      cases hunit
  have hall : digits.all isAsciiDigit = true := List.all_eq_true.mpr hdigits
  refine ⟨hmem,?_⟩
  rw [ttlPattern,hlast]
  simp [hne,hall,hunit]

theorem Denotes.pattern (h : Denotes ttl n) : ∃ digits unit, ttlPattern ttl = some (digits,unit) ∧ ttl ∉ noExpiry ∧
    (∀ c ∈ digits, isAsciiDigit c = true) ∧ digits ≠ [] ∧ ttl.length = digits.length + 1 ∧
    n = Auth.value digits * unit := by
  obtain ⟨hne,hdigits,hunit⟩ := h
  obtain ⟨hmem,hpattern⟩ := ttlPattern_denotes hne hdigits hunit
  exact ⟨_,_,hpattern,hmem,hdigits,hne,by simp,rfl⟩

/-- A TTL text is refused for the length of its numeral or for its range, or what it denotes is added to
the clock. -/
theorem parseTtl_denotes (now : DateTime) (hn : Denotes ttl n) :
    (60 ≤ n → n ≤ maxTtlSeconds → maxStrDigits + 1 < ttl.length) ∧
        (∃ e : Exn, parseTtl (.str ttl) now = .error e ∧ e.typeName = text "ValueError" ∧ e.isValueError = true) ∨
      ttl.length ≤ maxStrDigits + 1 ∧ 60 ≤ n ∧ n ≤ maxTtlSeconds ∧
        parseTtl (.str ttl) now = (now.add (n * microsPerSecond)).elim (.error .overflowError) rfc3339 := by
  obtain ⟨digits,unit,hpattern,hmem,hdigits,hne,hlength,rfl⟩ := hn.pattern
  rw [parseTtl,if_neg hmem,hpattern]
  dsimp only
  by_cases hlen : digits.length ≤ maxStrDigits
  · rw [Auth.int_digits hdigits hne hlen]
    dsimp only
    rw [Int.ofNat_eq_natCast,← Int.natCast_mul]
    by_cases hmin : Auth.value digits * unit < 60
    · rw [if_pos (by omega)]
      exact .inl ⟨fun h => absurd hmin (Nat.not_lt.mpr h),_,rfl,rfl,rfl⟩
    rw [if_neg (by omega)]
    by_cases hmax : maxTtlSeconds < Auth.value digits * unit
    · rw [if_pos (by omega)]
      exact .inl ⟨fun _ h => absurd hmax (Nat.not_lt.mpr h),_,rfl,rfl,rfl⟩
    rw [if_neg (by omega)]
    refine .inr ⟨by omega,Nat.le_of_not_lt hmin,Nat.le_of_not_lt hmax,?_⟩
    cases now.add (((Auth.value digits * unit : ℕ) : ℤ) * microsPerSecond) with
    | none => rfl
    | some later => rfl
  · rw [Auth.int_digits_long hdigits hne (Nat.lt_of_not_le hlen)]
    refine .inl ⟨?_,_,rfl,rfl,rfl⟩
    intro _ _
    omega

/-- What an accepted TTL denotes is what is added to the clock. -/
theorem parseTtl_accepted (hn : Denotes ttl n) (h : parseTtl (.str ttl) now = .ok expiresAt) :
    60 ≤ n ∧ n ≤ maxTtlSeconds ∧ ∃ later, now.add (n * microsPerSecond) = some later ∧
      rfc3339 later = .ok expiresAt := by
  rcases parseTtl_denotes now hn with ⟨-,e,herror,-⟩ | ⟨-,hmin,hmax,hadded⟩
  · cases h.symm.trans herror
  · refine ⟨hmin,hmax,?_⟩
    rw [hadded] at h
    cases hadd : now.add (n * microsPerSecond) with
    | none =>
      rw [hadd] at h
      cases h
    | some later =>
      rw [hadd] at h
      exact ⟨later,rfl,h⟩

theorem floorSecond_add (t : ℤ) (n : ℕ) :
    floorSecond (t + n * microsPerSecond) = floorSecond t + n * microsPerSecond := by
  unfold floorSecond
  rw [Int.add_mul_ediv_right _ _ (by decide),Int.add_mul]

theorem floorSecond_bounds (t : ℤ) : floorSecond t ≤ t ∧ t < floorSecond t + microsPerSecond := by
  unfold floorSecond microsPerSecond
  omega

theorem instant_add {d : ℤ} {later : DateTime} (h : now.add d = some later) :
    later.instant = now.instant + d := by
  unfold DateTime.add at h
  split at h
  · rename_i hrange
    obtain rfl := Option.some.inj h
    change ((now.wall + d).toNat : ℤ) - now.utcoffset = now.wall - now.utcoffset + d
    rw [Int.toNat_of_nonneg hrange.1]
    omega
  · cases h

theorem instant_astimezone {utc : DateTime} (h : now.astimezone = some utc) : utc.instant = now.instant := by
  unfold DateTime.astimezone DateTime.ofInstant at h
  split at h
  · rename_i hrange
    obtain rfl := Option.some.inj h
    change (now.instant.toNat : ℤ) - 0 = now.instant
    rw [Int.toNat_of_nonneg hrange.1,Int.sub_zero]
  · cases h

/-- A timestamp is read back to the second it was written in. -/
theorem rfc3339_instant (h : rfc3339 now = .ok expiresAt) :
    ∃ read, parseRfc3339 expiresAt = some read ∧ read.utcoffset = 0 ∧
      read.instant = floorSecond now.instant := by
  unfold rfc3339 Time.rfc3339 at h
  cases hutc : now.astimezone with
  | none =>
    rw [hutc] at h
    cases h
  | some utc =>
    rw [hutc] at h
    obtain rfl := Except.ok.inj h
    have hzero : utc.utcoffset = 0 := by
      unfold DateTime.astimezone DateTime.ofInstant at hutc
      split at hutc
      · rw [← Option.some.inj hutc]
      · cases hutc
    refine ⟨utc.floorSecond,parse_strftime utc,rfl,?_⟩
    rw [← instant_astimezone hutc]
    unfold DateTime.instant
    rw [hzero]
    unfold DateTime.floorSecond floorSecond
    push_cast
    rw [Int.sub_zero,Int.sub_zero]

theorem isExpired_iff {read t : DateTime} (hread : parseRfc3339 expiresAt = some read) (hne : expiresAt ≠ never) :
    isExpired expiresAt t = true ↔ read.instant ≤ t.instant := by
  unfold isExpired
  rw [if_neg hne,hread]
  exact decide_eq_true_iff

theorem parseRfc3339_never : parseRfc3339 never = none := by decide +kernel

/-- The expiry of an accepted TTL is read back as the second of the request and the
seconds it denotes. -/
theorem isExpired_parseTtl {t : DateTime} (hn : Denotes ttl n) (h : parseTtl (.str ttl) now = .ok expiresAt) :
    isExpired expiresAt t = true ↔ floorSecond now.instant + n * microsPerSecond ≤ t.instant := by
  obtain ⟨-,-,later,hadd,hlater⟩ := parseTtl_accepted hn h
  obtain ⟨read,hread,-,hinstant⟩ := rfc3339_instant hlater
  have hne : expiresAt ≠ never := by
    rintro rfl
    rw [parseRfc3339_never] at hread
    cases hread
  rw [isExpired_iff hread hne,hinstant,instant_add hadd,floorSecond_add]

/-- A text that is no timestamp never expires anything. -/
theorem isExpired_malformed {tag : Text} {t : DateTime} (h : parseRfc3339 tag = none) :
    isExpired tag t = false := by
  unfold isExpired
  rw [h]
  exact ite_self _

/-- The four readings of an expiry that is `n` seconds after the second of the request. -/
theorem isExpired_round_trip (hn : Denotes ttl n) (h : parseTtl (.str ttl) now = .ok expiresAt) :
    (∀ t : DateTime, isExpired expiresAt t = true ↔ floorSecond now.instant + n * microsPerSecond ≤ t.instant) ∧
      (∀ t : DateTime, isExpired expiresAt t = true → now.instant + (n - 1) * microsPerSecond < t.instant) ∧
      (∀ t : DateTime, now.instant + n * microsPerSecond ≤ t.instant → isExpired expiresAt t = true) ∧
      ∀ t u : DateTime, t.instant ≤ u.instant → isExpired expiresAt t = true → isExpired expiresAt u = true := by
  have hiff : ∀ t : DateTime, _ := fun t => isExpired_parseTtl (t := t) hn h
  obtain ⟨hle,hlt⟩ := floorSecond_bounds now.instant
  refine ⟨hiff,?_,?_,?_⟩
  · intro t ht
    have hexpiry := (hiff t).mp ht
    rw [Int.sub_mul]
    omega
  · intro t ht
    apply (hiff t).mpr
    omega
  · intro t u htu ht
    exact (hiff u).mpr (Int.le_trans ((hiff t).mp ht) htu)

end ShardVPN.Ttl
