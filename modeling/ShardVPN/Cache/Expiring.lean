import Mathlib.Data.Int.Order.Basic
import ShardVPN.Effect.Runs

/-! # A cache whose entries expire

A query is served from the cache while the entry of its key is young enough, and by a
read otherwise; only a read that succeeds changes the cache, and only at its key. An
entry is the truth about the time at which it was read.
-/
namespace ShardVPN.Cache
open Effect

/-- What each key was last read to be, and when. -/
abbrev Entries (K V : Type) := K → Option (ℤ × V)

/-- A query at a time, with the outcome of the read it may need. -/
structure Query (K V ε : Type) where
  key : K
  time : ℤ
  read : Except ε V

variable {K V ε : Type}

section
variable (ttl : ℤ) (c : Entries K V) (q : Query K V ε)

/-- The value that serves a query without a read. -/
def serves : Option V := ((c q.key).filter (fun e => q.time - e.1 < ttl)).map Prod.snd

def answer : Except ε V :=
  match serves ttl c q with
  | some v => .ok v
  | none => q.read

end

/-- The cache after a query. -/
def after [DecidableEq K] (ttl : ℤ) (c : Entries K V) (q : Query K V ε) : Entries K V :=
  match serves ttl c q with
  | some _ => c
  | none => match q.read with
    | .ok v => fun k => if k = q.key then some (q.time,v) else c k
    | .error _ => c

/-- The read of a query reports what is stored at its time. -/
def Truthful (stored : ℤ → K → Option V) (q : Query K V ε) : Prop := ∀ v, q.read = .ok v → stored q.time q.key = some v

/-- Every entry was the truth at its time, which lies in the past. -/
def Sound (stored : ℤ → K → Option V) (now : ℤ) (c : Entries K V) : Prop :=
  ∀ k e, c k = some e → e.1 ≤ now ∧ stored e.1 k = some e.2

variable {ttl : ℤ} {c : Entries K V} {q : Query K V ε} {stored : ℤ → K → Option V}

theorem serves_some {v : V} : serves ttl c q = some v ↔ ∃ t, c q.key = some (t,v) ∧ q.time - t < ttl := by
  unfold serves
  cases c q.key with
  | none => simp
  | some e =>
    obtain ⟨t,w⟩ := e
    simp only [Option.filter_some,Option.map_eq_some_iff,Option.some.injEq,Prod.mk.injEq]
    constructor
    · intro h
      split at h
      · rename_i hyoung
        obtain ⟨_,he,rfl⟩ := h
        cases he
        exact ⟨t,⟨rfl,rfl⟩,of_decide_eq_true hyoung⟩
      · obtain ⟨_,h,-⟩ := h
        cases h
    · rintro ⟨_,⟨rfl,rfl⟩,h⟩
      exact ⟨_,if_pos (decide_eq_true h),rfl⟩

section
variable [DecidableEq K]

theorem after_served {v : V} (h : serves ttl c q = some v) : after ttl c q = c := by
  unfold after
  rw [h]

theorem after_read {v : V} (h : serves ttl c q = none) (hr : q.read = .ok v) :
    after ttl c q = fun k => if k = q.key then some (q.time,v) else c k := by
  unfold after
  rw [h,hr]

/-- A query that ends in an error leaves every entry as it was. -/
theorem after_error {e : ε} (h : answer ttl c q = .error e) : after ttl c q = c := by
  unfold answer at h
  unfold after
  cases hs : serves ttl c q with
  | some v => rfl
  | none =>
    rw [hs] at h
    rw [show q.read = _ from h]

theorem after_other {k : K} (h : k ≠ q.key) : after ttl c q k = c k := by
  unfold after
  cases serves ttl c q with
  | some v => rfl
  | none =>
    cases q.read with
    | ok v => exact if_neg h
    | error e => rfl

omit [DecidableEq K] in
/-- Only the entry of its own key matters to a query. -/
theorem answer_congr {d : Entries K V} (h : c q.key = d q.key) : answer ttl c q = answer ttl d q := by
  unfold answer serves
  rw [h]

theorem after_congr {d : Entries K V} (h : c q.key = d q.key) : after ttl c q q.key = after ttl d q q.key := by
  unfold after serves
  rw [h]
  cases ((d q.key).filter (fun e => decide (q.time - e.1 < ttl))).map Prod.snd with
  | some v => exact h
  | none =>
    cases q.read with
    | ok v => simp
    | error e => exact h

/-! ## Soundness -/

omit [DecidableEq K] in
theorem Sound.mono {now later : ℤ} (h : Sound stored now c) (hle : now ≤ later) : Sound stored later c := by
  intro k e he
  obtain ⟨ht,hv⟩ := h k e he
  exact ⟨le_trans ht hle,hv⟩

theorem Sound.after {now : ℤ} (h : Sound stored now c) (hq : Truthful stored q) (hle : now ≤ q.time) :
    Sound stored q.time (Cache.after ttl c q) := by
  have hold := h.mono hle
  cases hs : serves ttl c q with
  | some v => rwa [after_served hs]
  | none =>
    cases hr : q.read with
    | error e =>
      have herror : answer ttl c q = .error e := by
        unfold answer
        rw [hs,hr]
      rwa [after_error herror]
    | ok v =>
      rw [after_read hs hr]
      intro k e he
      dsimp only at he
      by_cases hk : k = q.key
      · rw [if_pos hk] at he
        cases he
        exact ⟨le_refl _,hk ▸ hq v hr⟩
      · rw [if_neg hk] at he
        exact hold k e he

/-- Every cache that a run of queries in order of time leaves is sound. -/
theorem Sound.run {qs : List (Query K V ε)} {now later : ℤ} (h : Sound stored now c)
    (hqs : ∀ q ∈ qs, Truthful stored q) (htimes : (now :: (qs.map Query.time ++ [later])).Pairwise (· ≤ ·)) :
    Sound stored later (Effect.run (Cache.after ttl) c qs) := by
  induction qs generalizing c now with
  | nil => exact h.mono (List.rel_of_pairwise_cons htimes (by simp))
  | cons q qs ih =>
    have hle : now ≤ q.time := List.rel_of_pairwise_cons htimes (by simp)
    refine ih (h.after (hqs q List.mem_cons_self) hle) (fun r hr => hqs r (List.mem_cons_of_mem q hr)) ?_
    exact (List.pairwise_cons.mp htimes).2

omit [DecidableEq K] in
/-- An answer was the truth at some time within the last `ttl`. -/
theorem Sound.answer (h : Sound stored q.time c) (hq : Truthful stored q) (httl : 0 < ttl) {v : V}
    (hv : answer ttl c q = .ok v) : ∃ t, q.time - ttl < t ∧ t ≤ q.time ∧ stored t q.key = some v := by
  unfold Cache.answer at hv
  cases hs : serves ttl c q with
  | some w =>
    rw [hs] at hv
    cases hv
    obtain ⟨t,hentry,hyoung⟩ := serves_some.mp hs
    obtain ⟨hle,hstored⟩ := h q.key _ hentry
    exact ⟨t,by omega,hle,hstored⟩
  | none =>
    rw [hs] at hv
    exact ⟨q.time,by omega,le_refl _,hq v hv⟩

/-! ## Independence -/

/-- Queries for other keys do not matter to the entry of a key. -/
theorem run_filter (k : K) {d : Entries K V} (h : c k = d k) (qs : List (Query K V ε)) :
    run (after ttl) c qs k = run (after ttl) d (qs.filter (fun q => q.key = k)) k := by
  induction qs generalizing c d with
  | nil => exact h
  | cons q qs ih =>
    by_cases hq : q.key = k
    · subst hq
      rw [List.filter_cons_of_pos (by simp),run_cons,run_cons]
      exact ih (after_congr h)
    · rw [List.filter_cons_of_neg (by simpa using hq),run_cons]
      exact ih ((after_other (Ne.symm hq)).trans h)

/-- While an entry is young enough for every query of its key, it stays. -/
theorem run_kept {k : K} {t : ℤ} {v : V} (h : c k = some (t,v)) {qs : List (Query K V ε)}
    (hqs : ∀ q ∈ qs, q.key = k → q.time - t < ttl) : run (after ttl) c qs k = some (t,v) := by
  induction qs generalizing c with
  | nil => exact h
  | cons q qs ih =>
    refine ih ?_ (fun r hr => hqs r (List.mem_cons_of_mem q hr))
    by_cases hq : q.key = k
    · subst hq
      have hserved : serves ttl c q = some v := serves_some.mpr ⟨t,h,hqs q List.mem_cons_self rfl⟩
      rw [after_served hserved,h]
    · rw [after_other (Ne.symm hq),h]

end

end ShardVPN.Cache
