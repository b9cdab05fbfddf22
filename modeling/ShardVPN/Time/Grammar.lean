import ShardVPN.Time.Expiry

/-! # Which TTLs are accepted

The grammar of a TTL, and the outcomes of parsing one: no expiry, a timestamp or a
refusal. `int` converts numerals of at most 4300 digits, leading zeros included, and a
timestamp can be written only for an instant that lies in the calendar.
-/
namespace ShardVPN.Ttl
open Time

/-- The JSON values that mean no expiry. -/
def Unlimited (ttl : Json) : Prop := ttl = .null ∨ ttl = .str (text "none") ∨ ttl = .str never

/-- The value is a TTL text of between a minute and a year. -/
def Lasts (ttl : Json) (n : ℕ) : Prop := ∃ t, ttl = .str t ∧ Denotes t n ∧ 60 ≤ n ∧ n ≤ maxTtlSeconds

/-- Its numeral has no more digits than `int` converts. -/
def Convertible (ttl : Json) : Prop := ∃ t, ttl = .str t ∧ t.length ≤ maxStrDigits + 1

/-- The beginning of a year. -/
def yearStart (year : ℕ) : ℕ := ((⟨year,1,1⟩ : Date).toOrdinal - 1) * microsPerDay

/-- The instant lies in the calendar. -/
def InCalendar (t : ℤ) : Prop := 0 ≤ t ∧ t < maxOrdinal * microsPerDay

/-- A `ValueError` itself, none of its subclasses. -/
def Refusal (e : Exn) : Prop := e.typeName = text "ValueError" ∧ e.isValueError = true

/-- An outcome is that of parsing a value, where `limited` says which values stand for how many seconds
and `escapes` which other errors there are. -/
structure Parses (limited : Json → ℕ → Prop) (escapes : Exn → Prop) (ttl : Json) (now : DateTime)
    (r : Except Exn Text) : Prop where
  unlimited : r = .ok never ↔ Unlimited ttl
  expires : (∃ t, t ≠ never ∧ r = .ok t) ↔ ∃ n, limited ttl n
  stamped : ∀ n t, limited ttl n → r = .ok t → ∃ later, now.add (n * microsPerSecond) = some later ∧
    rfc3339 later = .ok t
  refused : ∀ e, r = .error e → Refusal e ∨ escapes e

variable {ttl : Json} {t : Text} {n m : ℕ} {now dt : DateTime}

theorem yearStart_last : yearStart 9999 + 365 * microsPerDay = maxOrdinal * microsPerDay := by decide

/-! ## The grammar -/

theorem ttlPattern_some {digits : Text} {unit : ℕ} (h : ttlPattern t = some (digits,unit)) :
    ∃ letter, t = digits ++ [letter] ∧ digits ≠ [] ∧ (∀ c ∈ digits, isAsciiDigit c = true) ∧
      unitSeconds letter = some unit := by
  unfold ttlPattern at h
  cases hlast : t.getLast? with
  | none =>
    rw [hlast] at h
    cases h
  | some letter =>
    rw [hlast] at h
    dsimp only at h
    split at h
    · rename_i hdigits
      obtain ⟨unit',hunit,hpair⟩ := Option.map_eq_some_iff.mp h
      obtain ⟨rfl,rfl⟩ := Prod.mk.inj hpair
      refine ⟨letter,?_,hdigits.1,List.all_eq_true.mp hdigits.2,hunit⟩
      exact (List.dropLast_append_getLast? letter hlast).symm
    · cases h

theorem Denotes.unique (h : Denotes t n) (h' : Denotes t m) : n = m := by
  obtain ⟨digits,unit,hp,-,-,-,-,rfl⟩ := h.pattern
  obtain ⟨digits',unit',hp',-,-,-,-,rfl⟩ := h'.pattern
  obtain ⟨rfl,rfl⟩ := Prod.mk.inj (Option.some.inj (hp.symm.trans hp'))
  rfl

theorem value_padded (k : ℕ) (digits : Text) : Auth.value (List.replicate k 48 ++ digits) = Auth.value digits := by
  induction k with
  | zero => rfl
  | succ k ih => exact ih

/-- Leading zeros do not change what is denoted. -/
theorem Denotes.padded (k : ℕ) (h : Denotes t n) : Denotes (List.replicate k 48 ++ t) n := by
  obtain ⟨hne,hdigits,hunit⟩ := h
  rename_i digits letter unit
  rw [← List.append_assoc,← value_padded k digits]
  refine .intro (List.append_ne_nil_of_right_ne_nil _ hne) ?_ hunit
  intro c hc
  rcases List.mem_append.mp hc with hc | hc
  · rw [(List.mem_replicate.mp hc).2]
    rfl
  · exact hdigits c hc

theorem denotes_hour : Denotes (text "1h") 3600 := by
  have hdigits : ∀ c ∈ ([49] : Text), isAsciiDigit c = true := by
    intro c hc
    rw [List.mem_singleton.mp hc]
    rfl
  have hunit : unitSeconds 104 = some 3600 := rfl
  have hvalue : Auth.value [49] = 1 := rfl
  have h := Denotes.intro (List.cons_ne_nil _ _) hdigits hunit
  rw [hvalue,Nat.one_mul] at h
  exact h

theorem unlimited_str : Unlimited (.str t) ↔ t ∈ noExpiry := by
  constructor
  · rintro (h | h | h)
    · cases h
    · rw [Json.str.inj h]
      exact List.mem_cons_of_mem _ List.mem_cons_self
    · rw [Json.str.inj h]
      exact List.mem_cons_self
  · intro hmem
    rcases List.mem_cons.mp hmem with rfl | hmem
    · exact .inr (.inr rfl)
    · rw [List.mem_singleton.mp hmem]
      exact .inr (.inl rfl)

theorem Lasts.limited (h : Lasts ttl n) : ¬Unlimited ttl := by
  obtain ⟨t,rfl,hn,-,-⟩ := h
  obtain ⟨-,-,-,hmem,-,-,-,-⟩ := hn.pattern
  exact fun hunlimited => hmem (unlimited_str.mp hunlimited)

theorem Lasts.unique (h : Lasts ttl n) (h' : Lasts ttl m) : n = m := by
  obtain ⟨t,rfl,hn,-,-⟩ := h
  obtain ⟨t',ht,hm,-,-⟩ := h'
  obtain rfl := Json.str.inj ht
  exact hn.unique hm

/-! ## Writing the timestamp -/

theorem rfc3339_inCalendar (h : InCalendar dt.instant) : ∃ t, rfc3339 dt = .ok t := by
  unfold InCalendar at h
  unfold rfc3339 Time.rfc3339 DateTime.astimezone DateTime.ofInstant
  rw [dif_pos h]
  exact ⟨_,rfl⟩

theorem rfc3339_outside (h : ¬InCalendar dt.instant) : rfc3339 dt = .error .overflowError := by
  unfold InCalendar at h
  unfold rfc3339 Time.rfc3339 DateTime.astimezone DateTime.ofInstant
  rw [dif_neg h]
  rfl

theorem rfc3339_ne_never (h : rfc3339 dt = .ok t) : t ≠ never := by
  obtain ⟨read,hread,-⟩ := rfc3339_instant h
  rintro rfl
  rw [parseRfc3339_never] at hread
  cases hread

/-- Before the year 9999 there is room for a year on the wall. -/
theorem add_year (hnow : now.wall < yearStart 9999) (hn : n ≤ maxTtlSeconds) :
    ∃ later, now.add (n * microsPerSecond) = some later := by
  have hyear := yearStart_last
  unfold DateTime.add
  rw [dif_pos]
  · exact ⟨_,rfl⟩
  · simp only [maxTtlSeconds,microsPerDay,microsPerSecond] at hn hyear ⊢
    constructor <;> omega

/-! ## The outcomes -/

/-- What parsing comes to: no expiry, the timestamp of what is denoted, or a refusal of a value that
is neither. -/
inductive Outcome (ttl : Json) (now : DateTime) : Except Exn Text → Prop
  | unlimited : Unlimited ttl → Outcome ttl now (.ok never)
  | limited {n : ℕ} {later : DateTime} : Lasts ttl n → Convertible ttl →
      now.add (n * microsPerSecond) = some later → Outcome ttl now (rfc3339 later)
  | refused {e : Exn} : ¬Unlimited ttl → (∀ n, Lasts ttl n → ¬Convertible ttl) → Refusal e →
      Outcome ttl now (.error e)

theorem Outcome.of_text (hmem : t ∉ noExpiry) (h : ∀ n, Denotes t n → 60 ≤ n → n ≤ maxTtlSeconds →
    maxStrDigits + 1 < t.length) {e : Exn} (he : Refusal e) : Outcome (.str t) now (.error e) := by
  refine .refused (fun hunlimited => hmem (unlimited_str.mp hunlimited)) ?_ he
  rintro n ⟨t',ht,hn,hmin,hmax⟩ ⟨t'',ht',hlen⟩
  obtain rfl := Json.str.inj ht
  obtain rfl := Json.str.inj ht'
  have hlong := h n hn hmin hmax
  omega

theorem Outcome.of_other (ht : ∀ t, ttl ≠ .str t) (hnull : ttl ≠ .null) {e : Exn} (he : Refusal e) :
    Outcome ttl now (.error e) := by
  refine .refused ?_ ?_ he
  · rintro (h | h | h)
    · exact hnull h
    · exact ht _ h
    · exact ht _ h
  · rintro n ⟨t,h,-⟩
    exact absurd h (ht t)

theorem parseTtl_outcome (ttl : Json) (hnow : now.wall < yearStart 9999) : Outcome ttl now (parseTtl ttl now) := by
  cases ttl with
  | null => exact .unlimited (.inl rfl)
  | str t =>
    by_cases hmem : t ∈ noExpiry
    · rw [parseTtl,if_pos hmem]
      exact .unlimited (unlimited_str.mpr hmem)
    cases hpattern : ttlPattern t with
    | none =>
      rw [parseTtl,if_neg hmem,hpattern]
      refine .of_text hmem ?_ ⟨rfl,rfl⟩
      intro n hn
      obtain ⟨_,_,hp,-⟩ := hn.pattern
      cases hpattern.symm.trans hp
    | some p =>
      obtain ⟨digits,unit⟩ := p
      obtain ⟨letter,rfl,hne,hdigits,hunit⟩ := ttlPattern_some hpattern
      have hdenotes : Denotes (digits ++ [letter]) (Auth.value digits * unit) := .intro hne hdigits hunit
      rcases parseTtl_denotes now hdenotes with ⟨hout,e,herror,he⟩ | ⟨hlen,hmin,hmax,hadded⟩
      · rw [herror]
        refine .of_text hmem ?_ he
        intro m hm hlo hhi
        obtain rfl := hdenotes.unique hm
        exact hout hlo hhi
      · obtain ⟨later,hlater⟩ := add_year hnow hmax
        rw [hadded,hlater]
        exact .limited ⟨_,rfl,hdenotes,hmin,hmax⟩ ⟨_,rfl,hlen⟩ hlater
  | bool | int | float | arr | obj => exact .of_other (by simp) (by simp) ⟨rfl,rfl⟩

/-- An accepted TTL is stored as `never` exactly when it means no expiry. -/
theorem never_iff_unlimited {stored : Text} (h : parseTtl ttl now = .ok stored) : stored = never ↔ Unlimited ttl := by
  cases ttl with
  | null =>
    obtain rfl := Except.ok.inj h
    exact iff_of_true rfl (.inl rfl)
  | str t =>
    rw [unlimited_str]
    by_cases hmem : t ∈ noExpiry
    · rw [parseTtl,if_pos hmem] at h
      exact iff_of_true (Except.ok.inj h).symm hmem
    refine iff_of_false ?_ hmem
    cases hpattern : ttlPattern t with
    | none =>
      rw [parseTtl,if_neg hmem,hpattern] at h
      cases h
    | some p =>
      obtain ⟨digits,unit⟩ := p
      obtain ⟨letter,rfl,hne,hdigits,hunit⟩ := ttlPattern_some hpattern
      obtain ⟨-,-,later,-,hlater⟩ := parseTtl_accepted (.intro hne hdigits hunit) h
      exact rfc3339_ne_never hlater
  | bool | int | float | arr | obj => cases h

/-- The value stands for seconds after which the calendar still has room. -/
def Stampable (now : DateTime) (ttl : Json) (n : ℕ) : Prop :=
  Lasts ttl n ∧ Convertible ttl ∧ InCalendar (now.instant + n * microsPerSecond)

/-- The expiry of the value lies outside the calendar. -/
def Escapes (now : DateTime) (ttl : Json) (e : Exn) : Prop :=
  e = .overflowError ∧ ∃ n, Lasts ttl n ∧ Convertible ttl ∧ ¬InCalendar (now.instant + n * microsPerSecond)

theorem Outcome.parses {r : Except Exn Text} (h : Outcome ttl now r) :
    Parses (Stampable now) (Escapes now ttl) ttl now r := by
  cases h with
  | unlimited hu =>
    refine ⟨iff_of_true rfl hu,?_,fun n _ hn _ => absurd hu hn.1.limited,fun _ he => by cases he⟩
    constructor
    · rintro ⟨t,hne,ht⟩
      exact absurd (Except.ok.inj ht).symm hne
    · rintro ⟨n,hn,-⟩
      exact absurd hu hn.limited
  | @limited n later hn hc hlater =>
    have hinstant := instant_add hlater
    by_cases hin : InCalendar later.instant
    · obtain ⟨t,ht⟩ := rfc3339_inCalendar hin
      have hne := rfc3339_ne_never ht
      refine ⟨iff_of_false ?_ hn.limited,iff_of_true ⟨t,hne,ht⟩ ⟨n,hn,hc,hinstant ▸ hin⟩,?_,?_⟩
      · intro hr
        exact hne (Except.ok.inj (ht.symm.trans hr))
      · rintro m t' ⟨hm,-⟩ hr
        obtain rfl := hn.unique hm
        exact ⟨later,hlater,hr⟩
      · intro e he
        cases ht.symm.trans he
    · have hr := rfc3339_outside hin
      rw [hr]
      refine ⟨iff_of_false (by simp) hn.limited,iff_of_false (by simp) ?_,fun _ _ _ ht => (by cases ht),?_⟩
      · rintro ⟨m,hm,-,hroom⟩
        obtain rfl := hn.unique hm
        exact hin (hinstant ▸ hroom)
      · intro e he
        exact .inr ⟨(Except.error.inj he).symm,n,hn,hc,hinstant ▸ hin⟩
  | refused hu hn he =>
    refine ⟨iff_of_false (by simp) hu,iff_of_false (by simp) ?_,fun _ _ _ ht => (by cases ht),?_⟩
    · rintro ⟨n,hlasts,hc,-⟩
      exact hn n hlasts hc
    · intro e he'
      exact .inl (Except.error.inj he' ▸ he)

theorem Parses.mono {limited limited' : Json → ℕ → Prop} {escapes escapes' : Exn → Prop} {r : Except Exn Text}
    (h : Parses limited escapes ttl now r) (hl : ∀ n, limited ttl n ↔ limited' ttl n)
    (he : ∀ e, escapes e → escapes' e) : Parses limited' escapes' ttl now r where
  unlimited := h.unlimited
  expires := h.expires.trans (exists_congr hl)
  stamped n t hn ht := h.stamped n t ((hl n).mpr hn) ht
  refused e hr := (h.refused e hr).imp_right (he e)

/-- The calendar has room for every TTL after a clock of UTC before its last year. -/
theorem Lasts.inCalendar (h : Lasts ttl n) (hlo : 0 ≤ now.instant) (hhi : now.instant < yearStart 9999) :
    InCalendar (now.instant + n * microsPerSecond) := by
  obtain ⟨-,-,-,-,hmax⟩ := h
  have hyear := yearStart_last
  unfold InCalendar
  simp only [maxTtlSeconds,microsPerDay,microsPerSecond] at hmax hyear ⊢
  constructor <;> omega

/-- Parsing accepts its grammar and nothing else, and every refusal is a `ValueError`. A numeral may have
4300 digits. An expiry outside the calendar raises an `OverflowError`, and no clock whose UTC time is
before the year 9999 comes to that. -/
theorem parseTtl_exact (ttl : Json) (now : DateTime) (hnow : now.wall < yearStart 9999) :
    Parses (Stampable now) (Escapes now ttl) ttl now (parseTtl ttl now) ∧
      (0 ≤ now.instant → now.instant < yearStart 9999 →
        Parses (fun ttl n => Lasts ttl n ∧ Convertible ttl) (fun _ => False) ttl now (parseTtl ttl now)) := by
  have h := (parseTtl_outcome ttl hnow).parses
  refine ⟨h,fun hlo hhi => h.mono ?_ ?_⟩
  · intro n
    constructor
    · rintro ⟨hn,hc,-⟩
      exact ⟨hn,hc⟩
    · rintro ⟨hn,hc⟩
      exact ⟨hn,hc,hn.inCalendar hlo hhi⟩
  · rintro e ⟨-,n,hn,-,hout⟩
    exact hout (hn.inCalendar hlo hhi)

/-- The beginning of 2024. -/
def newYear : DateTime := ⟨yearStart 2024,0,by decide,DateTime.zero_utcoffset_lt⟩

theorem parseTtl_exact_newYear : Parses (fun ttl n => Lasts ttl n ∧ Convertible ttl) (fun _ => False)
    (.str (text "48h")) newYear (parseTtl (.str (text "48h")) newYear) :=
  (parseTtl_exact (.str (text "48h")) newYear (by decide)).2 (by decide) (by decide)

/-! ## The edges -/

/-- Midnight on the first day of the calendar, fourteen hours east of UTC. -/
def dawn : DateTime := ⟨0,14 * 3600 * microsPerSecond,by decide,by decide⟩

/-- An hour, with as many leading zeros as `int` reads digits. -/
def paddedHour : Text := List.replicate maxStrDigits 48 ++ text "1h"

/-- A padded hour is refused, and an hour at the beginning of the calendar raises an `OverflowError`. -/
theorem parseTtl_edges :
    ¬Parses Lasts (fun _ => False) (.str paddedHour) newYear (parseTtl (.str paddedHour) newYear) ∧
    ¬Parses Lasts (fun _ => False) (.str (text "1h")) dawn (parseTtl (.str (text "1h")) dawn) := by
  constructor
  · intro h
    obtain ⟨t,ht⟩ := h.expires.mpr ⟨3600,_,rfl,denotes_hour.padded maxStrDigits,by decide,by decide⟩
    obtain ⟨n,-,⟨t',ht',hlen⟩,-⟩ := (parseTtl_outcome _ (by decide)).parses.expires.mp ⟨t,ht⟩
    obtain rfl := Json.str.inj ht'
    rw [paddedHour,List.length_append,List.length_replicate,Nat.add_le_add_iff_left] at hlen
    exact absurd hlen (by decide)
  · intro h
    have hover : parseTtl (.str (text "1h")) dawn = .error .overflowError := by decide +kernel
    rcases h.refused _ hover with he | he
    · cases he.2
    · exact he

end ShardVPN.Ttl
