import ShardVPN.Cache.Expiring
import ShardVPN.System.Plain
import ShardVPN.Program.Specs

/-! # The secret cache over time

The process asks for parameters at different times, while anyone may change what is
stored. The program refines a cache whose entries expire: what it returns was stored
within the last `secretTtlSeconds`.
-/
namespace ShardVPN.Settings
open Effect

/-- `cachedSecret` for a name of any text. -/
def cachedSecretOf (region name : Text) (now : ℤ) : Program Exn Text := do
  let p ← Action.getProc
  match (p.secretCache name).filter (fun c => now - c.1 < secretTtlSeconds * Time.microsPerSecond) with
  | some cached => pure cached.2
  | none =>
    let value ← Program.call (.getParameter region name true)
    let p ← Action.getProc
    Action.setProc { p with secretCache := fun n => if n = name then some (now,value) else p.secretCache n }
    pure value

theorem cachedSecret_eq (region : Text) (name : ParamName) (now : ℤ) :
    cachedSecret region name now = cachedSecretOf region name.path now := rfl

/-- The lifetime of an entry in microseconds. -/
def secretTtl : ℤ := secretTtlSeconds * Time.microsPerSecond

/-- One call: what it meets, the name it asks for and the time it passes. -/
structure Ask where
  env : Env
  name : Text
  time : ℤ

section
variable (world : ℤ → World) (region : Text) (p : Proc) (a : Ask)

/-- A call finds the world as it is at its time, and what the process remembers. -/
def Ask.start : State := ⟨world a.time,p,[]⟩

def Ask.returns : Except Exn Text :=
  ((cachedSecretOf region a.name a.time).exec a.env.service (a.start world p)).1

def Ask.after : Proc := ((cachedSecretOf region a.name a.time).exec a.env.service (a.start world p)).2.proc

/-- The calls of the service that a call of the cache makes. -/
def Ask.reads : List Event := (cachedSecretOf region a.name a.time).events a.env.service (a.start world p)

/-- The query the call puts to the cache. -/
def Ask.query : Cache.Query Text Text Exn where
  key := a.name
  time := a.time
  read := (a.env.service.reply [] (world a.time) (.getParameter region a.name true)).mapError Exn.service

/-- What is stored under a name at a time. -/
def storedAt (time : ℤ) (name : Text) : Option Text := (world time).parameters region name

end

section
variable {world : ℤ → World} {region : Text} {p : Proc} {a : Ask}

/-- A call returns the entry while it is young, and reads otherwise. -/
theorem cachedSecretOf_cases {env : Env} {s t : State} {name : Text} {now : ℤ} {r : Except Exn Text}
    {es : List Event} (h : Steps env.service (cachedSecretOf region name now) s r es t) :
    (∃ e, (s.proc.secretCache name).filter (fun c => now - c.1 < secretTtl) = some e ∧ r = .ok e.2 ∧ es = [] ∧ t = s) ∨
      (s.proc.secretCache name).filter (fun c => now - c.1 < secretTtl) = none ∧
        r = (env.service.reply s.trace s.world (.getParameter region name true)).mapError Exn.service ∧
        es = [env.service.event s.trace s.world (.getParameter region name true)] ∧
        (∀ v, r = .ok v → t.proc.secretCache = fun n => if n = name then some (now,v) else s.proc.secretCache n) ∧
        ∀ x, r = .error x → t.proc.secretCache = s.proc.secretCache := by
  rcases h.bind_cases with ⟨p,u,xs,ys,h1,h2,he⟩ | ⟨x,h1,-⟩
  · obtain ⟨hp,rfl,rfl⟩ := Steps.getProc_iff.mp h1
    obtain rfl := Except.ok.inj hp
    rw [List.nil_append] at he
    subst he
    split at h2
    · rename_i e hfilter
      obtain ⟨hr,hys,ht⟩ := Steps.pure_iff.mp h2
      exact Or.inl ⟨e,hfilter,hr,hys,ht⟩
    · rename_i hfilter
      refine Or.inr ⟨hfilter,?_⟩
      rcases h2.bind_cases with ⟨v,w,xs,ys,h3,h4,rfl⟩ | ⟨x,h3,rfl⟩
      · obtain ⟨hproc,hv,-⟩ := h3.call_reply
        rcases h4.bind_cases with ⟨p,w',xs',ys',h5,h6,rfl⟩ | ⟨x,h5,-⟩
        · obtain ⟨hp,rfl,rfl⟩ := Steps.getProc_iff.mp h5
          obtain rfl := Except.ok.inj hp
          rcases h6.bind_cases with ⟨_,w',xs',ys',h7,h8,rfl⟩ | ⟨x,h7,-⟩
          · obtain ⟨-,rfl,rfl⟩ := Steps.setProc_iff.mp h7
            obtain ⟨rfl,rfl,rfl⟩ := Steps.pure_iff.mp h8
            refine ⟨hv,?_,?_,?_⟩
            · rw [List.nil_append,List.nil_append,List.append_nil]
              exact h3.call_event
            · rintro _ ⟨⟩
              funext n
              rw [← hproc]
            · rintro x ⟨⟩
          · cases (Steps.setProc_iff.mp h7).1
        · cases (Steps.getProc_iff.mp h5).1
      · obtain ⟨hproc,hv,-⟩ := h3.call_reply
        refine ⟨hv,h3.call_event,?_,?_⟩
        · rintro v ⟨⟩
        · intro y hy
          rw [hproc]
  · cases (Steps.getProc_iff.mp h1).1

/-- A call of the program is a query to a cache whose entries expire. -/
theorem Ask.refines (world : ℤ → World) (region : Text) (p : Proc) (a : Ask) :
    a.returns world region p = Cache.answer secretTtl p.secretCache (a.query world region) ∧
      (a.after world region p).secretCache = Cache.after secretTtl p.secretCache (a.query world region) ∧
      a.reads world region p = if Cache.serves secretTtl p.secretCache (a.query world region) = none then
        [a.env.service.event [] (world a.time) (.getParameter region a.name true)] else [] := by
  have hcases := cachedSecretOf_cases ((cachedSecretOf region a.name a.time).steps_exec a.env.service (a.start world p))
  change (∃ e, (p.secretCache a.name).filter (fun c => a.time - c.1 < secretTtl) = some e ∧
      a.returns world region p = .ok e.2 ∧ a.reads world region p = [] ∧ _ = a.start world p) ∨
    (p.secretCache a.name).filter (fun c => a.time - c.1 < secretTtl) = none ∧
      a.returns world region p = (a.query world region).read ∧ a.reads world region p = [_] ∧
      (∀ v, a.returns world region p = .ok v → (a.after world region p).secretCache =
        fun n => if n = a.name then some (a.time,v) else p.secretCache n) ∧
      ∀ x, a.returns world region p = .error x → (a.after world region p).secretCache = p.secretCache at hcases
  rcases hcases with ⟨e,hfilter,hr,hreads,hstate⟩ | ⟨hfilter,hr,hreads,hok,herror⟩
  · have hserves : Cache.serves secretTtl p.secretCache (a.query world region) = some e.2 :=
      congrArg (Option.map Prod.snd) hfilter
    refine ⟨?_,?_,?_⟩
    · unfold Cache.answer
      rw [hserves,hr]
    · rw [Cache.after_served hserves]
      exact congrArg (fun s => s.proc.secretCache) hstate
    · rw [hreads,hserves,if_neg (by simp)]
  · have hserves : Cache.serves secretTtl p.secretCache (a.query world region) = none :=
      congrArg (Option.map Prod.snd) hfilter
    refine ⟨?_,?_,?_⟩
    · unfold Cache.answer
      rw [hserves,hr]
    · cases hread : (a.query world region).read with
      | ok v =>
        rw [Cache.after_read hserves hread]
        exact hok v (hr.trans hread)
      | error x =>
        have hanswer : Cache.answer secretTtl p.secretCache (a.query world region) = .error x := by
          unfold Cache.answer
          rw [hserves,hread]
        rw [Cache.after_error hanswer]
        exact herror x (hr.trans hread)
    · rw [hreads,if_pos hserves]
      rfl

theorem Ask.truthful (world : ℤ → World) (region : Text) (a : Ask) :
    Cache.Truthful (storedAt world region) (a.query world region) := by
  intro v hv
  change (a.env.service.reply [] (world a.time) (.getParameter region a.name true)).mapError Exn.service = .ok v at hv
  exact parameter_of_reply (ok_of_mapError hv.symm)

/-- The process after some calls, one after the other. -/
def process (world : ℤ → World) (region : Text) (p : Proc) (asks : List Ask) : Proc :=
  run (fun p a => a.after world region p) p asks

theorem process_refines (asks : List Ask) : (process world region p asks).secretCache =
    run (Cache.after secretTtl) p.secretCache (asks.map (fun a => a.query world region)) := by
  induction asks generalizing p with
  | nil => rfl
  | cons a asks ih =>
    unfold process at ih ⊢
    rw [run_cons,ih,(a.refines world region p).2.1]
    rfl

/-- Calls for other names do not matter to the entry of a name. -/
theorem process_filter (name : Text) (asks : List Ask) : (process world region p asks).secretCache name =
    (process world region p (asks.filter (fun a => a.name = name))).secretCache name := by
  rw [process_refines,process_refines,Cache.run_filter name rfl,List.filter_map]
  rfl

/-- While an entry is young enough for every call for its name, it stays. -/
theorem process_kept {name : Text} {t : ℤ} {v : Text} (h : p.secretCache name = some (t,v)) {asks : List Ask}
    (hasks : ∀ a ∈ asks, a.name = name → a.time - t < secretTtl) :
    (process world region p asks).secretCache name = some (t,v) := by
  rw [process_refines]
  refine Cache.run_kept h ?_
  intro q hq hname
  obtain ⟨a,ha,rfl⟩ := List.mem_map.mp hq
  exact hasks a ha hname

/-- A call that reads has missed the cache and returns what it reads. -/
theorem Ask.missed {e : Event} (he : e ∈ a.reads world region p) :
    Cache.serves secretTtl p.secretCache (a.query world region) = none ∧
      a.returns world region p = (a.query world region).read ∧
      e.succeeded = (a.query world region).read.toBool := by
  obtain ⟨hreturns,-,hreads⟩ := a.refines world region p
  rw [hreads] at he
  cases hserves : Cache.serves secretTtl p.secretCache (a.query world region) with
  | some v =>
    rw [hserves,if_neg (by simp)] at he
    cases he
  | none =>
    rw [if_pos hserves] at he
    refine ⟨rfl,?_,?_⟩
    · rw [hreturns]
      unfold Cache.answer
      rw [hserves]
    · rw [List.mem_singleton.mp he,Service.event_succeeded]
      unfold Ask.query
      cases a.env.service.reply [] (world a.time) (.getParameter region a.name true) <;> rfl

/-- After a call that reads, a call for the same name does not read while the entry is young. -/
theorem Ask.spares {b : Ask} {mid : List Ask} (h : ∃ e ∈ a.reads world region p, e.succeeded = true)
    (hname : b.name = a.name) (hmid : ∀ c ∈ mid, c.time ≤ b.time) (hlate : b.time < a.time + secretTtl) :
    b.reads world region (process world region (a.after world region p) mid) = [] := by
  obtain ⟨e,he,hok⟩ := h
  obtain ⟨hserves,-,hsucceeded⟩ := Ask.missed he
  rw [hsucceeded] at hok
  cases hread : (a.query world region).read with
  | error x =>
    rw [hread] at hok
    cases hok
  | ok v =>
    have hstored : (a.after world region p).secretCache a.name = some (a.time,v) := by
      rw [(a.refines world region p).2.1,Cache.after_read hserves hread]
      exact if_pos rfl
    have hentry : (process world region (a.after world region p) mid).secretCache a.name = some (a.time,v) := by
      apply process_kept hstored
      intro c hc _
      have hle := hmid c hc
      omega
    have hserved : Cache.serves secretTtl (process world region (a.after world region p) mid).secretCache
        (b.query world region) = some v := by
      refine Cache.serves_some.mpr ⟨a.time,?_,?_⟩
      · change (process world region (a.after world region p) mid).secretCache b.name = _
        rw [hname,hentry]
      · change b.time - a.time < secretTtl
        omega
    rw [(b.refines world region _).2.2,hserved,if_neg (by simp)]

/-- What holds of one call after the calls `pre` and before the calls `post` of a process. -/
structure FreshAnswer (world : ℤ → World) (region : Text) (p : Proc) (pre : List Ask) (a : Ask) (post : List Ask) :
    Prop where
  recent : ∀ v, a.returns world region (process world region p pre) = .ok v →
    ∃ t, a.time - secretTtl < t ∧ t ≤ a.time ∧ storedAt world region t a.name = some v
  refreshed : a.reads world region (process world region p pre) ≠ [] →
    ∀ v, a.returns world region (process world region p pre) = .ok v → storedAt world region a.time a.name = some v
  failed : (∃ e ∈ a.reads world region (process world region p pre), e.succeeded = false) →
    ∃ x, a.returns world region (process world region p pre) = .error x
  unchanged : ∀ x, a.returns world region (process world region p pre) = .error x →
    (process world region p (pre ++ [a])).secretCache = (process world region p pre).secretCache
  independent : a.returns world region (process world region p pre) =
    a.returns world region (process world region p (pre.filter (fun b => b.name = a.name)))
  unread : (∃ e ∈ a.reads world region (process world region p pre), e.succeeded = true) →
    ∀ mid b rest, post = mid ++ b :: rest → b.name = a.name → b.time < a.time + secretTtl →
      b.reads world region (process world region p (pre ++ a :: mid)) = []

theorem process_sound (world : ℤ → World) (region : Text) {pre post : List Ask} (hp : ∀ name, p.secretCache name = none)
    (htimes : ((pre ++ a :: post).map Ask.time).Pairwise (· ≤ ·)) :
    Cache.Sound (storedAt world region) a.time (process world region p pre).secretCache := by
  rw [process_refines]
  have hempty : ∀ now, Cache.Sound (storedAt world region) now p.secretCache := by
    intro now k e he
    rw [hp] at he
    cases he
  cases pre with
  | nil => exact hempty a.time
  | cons b pre =>
    rw [List.map_append] at htimes
    refine (hempty b.time).run ?_ ?_
    · intro q hq
      obtain ⟨c,-,rfl⟩ := List.mem_map.mp hq
      exact c.truthful world region
    · rw [List.map_map]
      change (b.time :: (((b :: pre).map Ask.time) ++ [a.time])).Pairwise (· ≤ ·)
      have hbefore : ((b :: pre).map Ask.time ++ [a.time]).Pairwise (· ≤ ·) :=
        htimes.sublist ((List.Sublist.refl _).append (List.singleton_sublist.mpr (by simp)))
      refine List.pairwise_cons.mpr ⟨?_,hbefore⟩
      intro t ht
      rcases List.mem_cons.mp ht with rfl | ht
      · exact le_refl _
      · exact (List.pairwise_cons.mp hbefore).1 t ht

/-- What a process returns for a secret was stored within the last five minutes, and a failed read
leaves the cache as it was. -/
theorem secrets_fresh (world : ℤ → World) (region : Text) (p : Proc) (pre : List Ask) (a : Ask) (post : List Ask)
    (hp : ∀ name, p.secretCache name = none)
    (htimes : ((pre ++ a :: post).map Ask.time).Pairwise (· ≤ ·)) : FreshAnswer world region p pre a post := by
  have hsound := process_sound world region hp htimes
  obtain ⟨hreturns,hafter,-⟩ := a.refines world region (process world region p pre)
  refine ⟨?_,?_,?_,?_,?_,?_⟩
  · intro v hv
    exact hsound.answer (a.truthful world region) (by decide) (hreturns.symm.trans hv)
  · intro hne v hv
    obtain ⟨e,he⟩ := List.exists_mem_of_ne_nil _ hne
    obtain ⟨-,hread,-⟩ := Ask.missed he
    exact a.truthful world region v (hread.symm.trans hv)
  · rintro ⟨e,he,hf⟩
    obtain ⟨-,hread,hsucceeded⟩ := Ask.missed he
    rw [hread]
    rw [hsucceeded] at hf
    cases hr : (a.query world region).read with
    | error x => exact ⟨x,rfl⟩
    | ok v =>
      rw [hr] at hf
      cases hf
  · intro x hx
    unfold process at hafter hx hreturns ⊢
    rw [run_append]
    exact hafter.trans (Cache.after_error (hreturns.symm.trans hx))
  · rw [hreturns,(a.refines world region _).1]
    apply Cache.answer_congr
    exact process_filter a.name pre
  · rintro hread mid b rest rfl hname hlate
    have hmid : ∀ c ∈ mid, c.time ≤ b.time := by
      intro c hc
      rw [List.map_append,List.map_cons,List.map_append,List.map_cons] at htimes
      have htail := (List.pairwise_cons.mp (List.pairwise_append.mp htimes).2.1).2
      exact (List.pairwise_append.mp htail).2.2 _ (List.mem_map_of_mem hc) _ List.mem_cons_self
    have hspared := Ask.spares hread hname hmid hlate
    unfold process at hspared ⊢
    rw [run_append,run_cons]
    exact hspared

end

/-- The signing secret is rotated after a minute. -/
def rotating (time : ℤ) : World :=
  if time < 60 * Time.microsPerSecond then Plain.empty
  else Plain.empty.setParameter Plain.control ParamName.signingSecret.path (text "rotated")

/-- A call for the signing secret so many seconds after the first one. -/
def askAfter (seconds : ℕ) : Ask := ⟨Plain.clean,ParamName.signingSecret.path,seconds * Time.microsPerSecond⟩

/-- The third call comes as the entry of the first one expires. -/
theorem secrets_fresh_rotating :
    FreshAnswer rotating Plain.control Plain.proc [askAfter 0,askAfter 299] (askAfter 300) [] :=
  secrets_fresh rotating Plain.control Plain.proc [askAfter 0,askAfter 299] (askAfter 300) [] (fun _ => rfl) (by decide)

end ShardVPN.Settings
