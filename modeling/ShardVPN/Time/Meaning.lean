import ShardVPN.Time.Grammar

/-! # What an accepted TTL means

A TTL of the grammar is accepted whenever its expiry lies in the calendar, and then every
sweep reads from the tag what the request asked for.
-/
namespace ShardVPN.Ttl
open Time
variable {ttl : Text} {n : ℕ} {now : DateTime}

theorem Lasts.denotes (h : Lasts (.str ttl) n) : Denotes ttl n := by
  obtain ⟨t,ht,hn,-,-⟩ := h
  rwa [Json.str.inj ht]

/-- A TTL of the grammar is accepted when its expiry lies in the calendar. -/
theorem Lasts.accepted (h : Lasts (.str ttl) n) (hc : Convertible (.str ttl)) (hnow : now.wall < yearStart 9999)
    (hroom : InCalendar (now.instant + n * microsPerSecond)) :
    ∃ expiresAt, parseTtl (.str ttl) now = .ok expiresAt := by
  obtain ⟨expiresAt,-,haccepted⟩ := (parseTtl_outcome (.str ttl) hnow).parses.expires.mpr ⟨n,h,hc,hroom⟩
  exact ⟨expiresAt,haccepted⟩

/-- A TTL means what it says through the tag, as long as its expiry lies in the calendar, which it does for
every clock whose UTC time is before the year 9999. -/
theorem ttl_round_trip :
    (∀ ttl n (now : DateTime), Lasts (.str ttl) n → Convertible (.str ttl) → now.wall < yearStart 9999 →
      InCalendar (now.instant + n * microsPerSecond) → ∃ expiresAt, parseTtl (.str ttl) now = .ok expiresAt ∧
        (∀ t : DateTime, isExpired expiresAt t = true ↔ floorSecond now.instant + n * microsPerSecond ≤ t.instant) ∧
        (∀ t : DateTime, isExpired expiresAt t = true → now.instant + (n - 1) * microsPerSecond < t.instant) ∧
        (∀ t : DateTime, now.instant + n * microsPerSecond ≤ t.instant → isExpired expiresAt t = true) ∧
        ∀ t u : DateTime, t.instant ≤ u.instant → isExpired expiresAt t = true → isExpired expiresAt u = true) ∧
    (∀ ttl n (now : DateTime), Lasts (.str ttl) n → 0 ≤ now.instant → now.instant < yearStart 9999 →
      InCalendar (now.instant + n * microsPerSecond)) ∧
    (∀ ttl ∈ [Json.null,.str (text "none"),.str (text "never")], ∀ now, parseTtl ttl now = .ok never) ∧
    (∀ t, isExpired never t = false) ∧
    ∀ tag t, parseRfc3339 tag = none → isExpired tag t = false := by
  refine ⟨?_,fun _ _ _ h hlo hhi => h.inCalendar hlo hhi,?_,fun t => isExpired_malformed parseRfc3339_never,
    fun tag t htag => isExpired_malformed htag⟩
  · intro ttl n now h hc hnow hroom
    obtain ⟨expiresAt,haccepted⟩ := h.accepted hc hnow hroom
    exact ⟨expiresAt,haccepted,isExpired_round_trip h.denotes haccepted⟩
  · intro ttl httl now
    rcases List.mem_cons.mp httl with rfl | httl
    · rfl
    rcases List.mem_cons.mp httl with rfl | httl
    · rfl
    rw [List.mem_singleton.mp httl]
    rfl

theorem denotes_year : Denotes (text "365d") maxTtlSeconds := by
  have hunit : unitSeconds 100 = some 86400 := rfl
  have hvalue : Auth.value [51,54,53] * 86400 = maxTtlSeconds := rfl
  have hdigits : ([51,54,53] : Text).all isAsciiDigit = true := rfl
  have h := Denotes.intro (List.cons_ne_nil _ _) (List.all_eq_true.mp hdigits) hunit
  rw [hvalue] at h
  exact h

theorem lasts_year : Lasts (.str (text "365d")) maxTtlSeconds := ⟨_,rfl,denotes_year,by decide +kernel,le_rfl⟩

theorem convertible_year : Convertible (.str (text "365d")) := ⟨_,rfl,by decide⟩

/-- A year from the beginning of 2024. -/
theorem ttl_round_trip_newYear : ∃ expiresAt, parseTtl (.str (text "365d")) newYear = .ok expiresAt ∧
    isExpired expiresAt ⟨yearStart 2025,0,by decide,DateTime.zero_utcoffset_lt⟩ = true ∧
    isExpired expiresAt newYear = false ∧ isExpired (text "tomorrow") newYear = false := by
  obtain ⟨hround,hroom,-,-,hmalformed⟩ := ttl_round_trip
  obtain ⟨expiresAt,haccepted,hiff,-,hlast,-⟩ := hround _ _ newYear lasts_year convertible_year (by decide)
    (hroom _ _ newYear lasts_year (by decide) (by decide))
  refine ⟨expiresAt,haccepted,hlast _ (by decide),?_,hmalformed _ _ (by decide +kernel)⟩
  rw [← Bool.not_eq_true,hiff]
  decide

/-- The last second of 9998, a day less a minute west of UTC. -/
def lastEvening : DateTime := ⟨yearStart 9999 - microsPerSecond,-(86340 * microsPerSecond),by decide,by decide⟩

/-- At that clock a year is not accepted: its expiry is outside the calendar. -/
theorem ttl_round_trip_overflows : Lasts (.str (text "365d")) maxTtlSeconds ∧ Convertible (.str (text "365d")) ∧
    yearStart 1000 ≤ lastEvening.wall ∧ lastEvening.wall < yearStart 9999 ∧
    parseTtl (.str (text "365d")) lastEvening = .error .overflowError :=
  ⟨lasts_year,convertible_year,by decide,by decide,by decide +kernel⟩

end ShardVPN.Ttl
