import ShardVPN.System.Answers
import ShardVPN.System.Lifetime

/-! # The origin of a node

Whatever fails, an instance that is new after a run was launched in one step of it, by an
admitted request to go up, in the region that the request resolves to and where no node
was live.
-/
namespace ShardVPN.System
open Effect Time Ec2ops Settings Handler Watchdog

variable {rt : Runtime} {v w : World}

/-! ## What appears with a step -/

def keys (w : World) : List (Text × Text) := w.instances.map Node.key

/-- Without a launch no instance appears. -/
theorem keys_replay (env : Env) {es : List Event} (hes : ∀ e ∈ es, e.call.runs = false) (w : World) :
    keys (env.service.replay w es) = keys w := by
  have hmapped : ∀ (u : World) (f : Text → Instance → Instance) (hf : ∀ r i, (f r i).instanceId = i.instanceId),
      keys (u.mapInstances f hf) = keys u := by
    intro u f hf
    unfold keys World.mapInstances
    dsimp only
    rw [List.map_map]
    exact List.map_congr_left fun n _ => Prod.ext rfl (hf n.1 n.2)
  refine Service.replay_rel (R := fun u w => keys w = keys u) (fun _ => rfl) (fun _ _ _ h k => k.trans h)
    (Q := fun c => c.runs = false) (fun c u hc => ?_) hes w
  cases c with
  | terminateInstances region ids => exact hmapped u _ _
  | createTags region ids tags => exact hmapped u _ _
  | runInstances region request => cases hc
  | _ => rfl

/-- One instance appears where none is live, or none appears. -/
inductive Grown (rt : Runtime) (body : Dict) (v w : World) : Prop
  | same : keys w = keys v → Grown rt body v w
  | one (region instanceId : Text) : Target rt body v region → v.nodesIn region = [] →
      keys w = keys v ++ [(region,instanceId)] → Grown rt body v w

theorem upRun_grown {env : Env} {body : Dict} {r : Except Exn Response} {es : List Event}
    (h : UpRun rt env body w r es) : Grown rt body w (env.service.replay w es) := by
  have hquiet : ∀ {es : List Event}, (∀ e ∈ es, e.call.quiet = true) → ∀ e ∈ es, e.call.runs = false :=
    fun hes e he => Call.quiet_runs (hes e he)
  have hlaunch : ∀ {xs ys : List Event} {e : Event} {region request}, Target rt body w region → w.nodesIn region = [] →
      (∀ e ∈ xs, e.call.quiet = true) → e.call = .runInstances region request → (∀ e ∈ ys, e.call.runs = false) →
      Grown rt body w (env.service.replay w (xs ++ e :: ys)) := by
    intro xs ys e region request ht hfree hxs hcall hys
    rw [Service.replay_append,Service.replay_cons]
    split
    · refine .one region (env.instanceId (env.service.replay w xs)) ht hfree ?_
      rw [keys_replay env hys,← keys_replay env (hquiet hxs) w,hcall]
      exact List.map_append
    · exact .same ((keys_replay env hys _).trans (keys_replay env (hquiet hxs) w))
  cases h with
  | tracked hes _ _ _ _ => exact .same (keys_replay env (hquiet hes) w)
  | declined hes _ => exact .same (keys_replay env (hquiet hes) w)
  | @recovered region i r e xs ys _ _ hxs hcall hys _ _ =>
    refine .same (keys_replay env (fun f hf => ?_) w)
    rcases List.mem_append.mp hf with hf | hf
    · exact hquiet hxs f hf
    rcases List.mem_cons.mp hf with rfl | hf
    · rw [hcall]
      rfl
    · exact hquiet hys f hf
  | failed ht hfree hxs hcall _ _ => exact hlaunch ht hfree hxs hcall (by simp)
  | launched ht hfree hxs _ hcall _ _ =>
    refine hlaunch ht hfree hxs rfl fun f hf => ?_
    rw [List.mem_singleton.mp hf,hcall]
    rfl

theorem downRun_launchless {r : Except Exn Response} {es : List Event} (h : DownRun rt w r es) :
    ∀ e ∈ es, e.call.runs = false := by
  have hremoves : ∀ {c : Call}, c.onlyRemoves = true → c.runs = false := fun h => by
    revert h
    rename_i c
    cases c <;> simp [Call.onlyRemoves,Call.runs]
  cases h with
  | failed hes _ => exact fun e he => hremoves (hes e he)
  | emptied _ hxs _ hzs =>
    intro e he
    rcases List.mem_append.mp he with he | he
    · exact Call.quiet_runs (hxs e he)
    rcases List.mem_append.mp he with he | he
    · obtain ⟨i,-,rfl⟩ := List.mem_map.mp he
      rfl
    · rcases hzs with ⟨rfl,-⟩ | rfl
      · cases he
      · rw [List.mem_singleton.mp he]
        rfl

/-! ## What appears in a run -/

/-- An instance was launched for an admitted request to go up that resolves to its region, where no node was live;
it is the only one that the request launched. -/
structure Origin (rt : Runtime) (w : World) (n : Node) (i : Invocation) : Prop where
  admitted : Admitted rt i.env i.event (i.start w)
  asked : ∃ body, requestBody i.event = some body ∧ asksUp body ∧ Target rt body w n.1
  free : w.nodesIn n.1 = []
  here : n ∈ (i.after rt w).instances
  new : keys (i.after rt w) = keys w ++ [n.key]

/-- What an invocation lets appear. -/
theorem Invocation.origin {i : Invocation} {key : Text × Text} (hkey : key ∈ keys (i.after rt w)) (hnew : key ∉ keys w) :
    ∃ n, n.key = key ∧ Origin rt w n i := by
  have hruns : ¬∀ e ∈ i.events rt w, e.call.runs = false := fun hes => by
    rw [i.after_eq,keys_replay i.env hes] at hkey
    exact hnew hkey
  have hreads : ∀ {es : List Event}, (∀ e ∈ es, e.call.reads = true) → ∀ e ∈ es, e.call.runs = false := fun hes e he =>
    Call.quiet_runs (Call.quiet_of_reads (hes e he))
  have hhttp : ¬i.Sweeps := fun hsweep => by
    obtain ⟨u,t,summary,-,hsteps⟩ := hsweep.steps rt w
    exact hruns (sweep_launchless _ hsteps)
  have hadmitted : Admitted rt i.env i.event (i.start w) := by
    rcases lambdaHandler_admitted hhttp (i.steps w) with h | ⟨hsecret,-⟩
    · exact h
    · exact absurd (fun e he => by rw [hsecret e he]; rfl) hruns
  have hafter : i.after rt w = i.env.service.replay w (i.events rt w) := i.after_eq w
  have hhandled := i.handled rt w
  generalize i.events rt w = es at hruns hafter hhandled
  generalize i.reply rt w = r at hhandled
  cases hhandled with
  | swept hcontext _ _ => exact absurd hcontext hhttp
  | refused hes _ => exact absurd (hreads hes) hruns
  | @performed body r u t xs ys hbody hxs hu hperform =>
    have hys : ¬∀ e ∈ ys, e.call.runs = false := fun hys => hruns fun e he =>
      (List.mem_append.mp he).elim (hreads hxs e) (hys e)
    rw [Service.replay_append,replay_reads i.env hxs] at hafter
    rcases perform_cases hperform with ⟨hasks,hrun⟩ | ⟨-,hrun⟩ | ⟨-,-,hquiet⟩
    · have hgrown := upRun_grown hrun
      rw [hu,← hafter] at hgrown
      rcases hgrown with hsame | ⟨region,instanceId,ht,hfree,hkeys⟩
      · exact absurd (hsame ▸ hkey) hnew
      · obtain ⟨n,hn,rfl⟩ := List.mem_map.mp hkey
        rw [hkeys] at hkey
        have hone : n.key = (region,instanceId) := List.mem_singleton.mp ((List.mem_append.mp hkey).resolve_left hnew)
        have hregion : n.1 = region := (Prod.mk.inj hone).1
        exact ⟨n,rfl,hadmitted,⟨body,hbody,hasks,hregion ▸ ht⟩,hregion ▸ hfree,hn,hone ▸ hkeys⟩
    · exact absurd (downRun_launchless hrun) hys
    · exact absurd (fun e he => Call.quiet_runs (hquiet e he)) hys

/-- Nothing appears from outside. -/
theorem keys_outside {l : Label} (hl : ∀ i, l ≠ .invoke i) : keys (after rt w l) = keys w := by
  have hmapped : ∀ {f : Node → Node}, (∀ n, (f n).key = n.key) → (w.instances.map f).map Node.key = keys w := by
    intro f hf
    rw [List.map_map]
    exact List.map_congr_left fun n _ => hf n
  cases l with
  | invoke i => exact absurd rfl (hl i)
  | setDefault d value => rfl
  | nodeEnds instanceId => exact hmapped fun n => (ages_ended instanceId n.1 n.2).key
  | nodeBoots instanceId publicIp => exact hmapped fun n => (ages_booted instanceId n.1 publicIp n.2).key

/-- Whatever fails, an instance that appears in a run was launched in one step of it, for a cause. -/
theorem birth_has_cause (rt : Runtime) (w : World) (ls : List Label) (n : Node)
    (hn : n ∈ (run (after rt) w ls).instances) (hnew : n.key ∉ keys w) :
    ∃ (before : List Label) (i : Invocation) (later : List Label) (m : Node), ls = before ++ .invoke i :: later ∧
      Ages m n ∧ Origin rt (run (after rt) w before) m i := by
  induction ls generalizing w with
  | nil => exact absurd (List.mem_map_of_mem hn) hnew
  | cons l ls ih =>
    by_cases hstep : n.key ∈ keys (after rt w l)
    · by_cases hl : ∃ i, l = .invoke i
      · obtain ⟨i,rfl⟩ := hl
        obtain ⟨m,hm,horigin⟩ := Invocation.origin hstep hnew
        have hages : Ages m n := ages_run horigin.here hn hm.symm
        exact ⟨[],i,ls,m,rfl,hages,horigin⟩
      · rw [keys_outside fun i hi => hl ⟨i,hi⟩] at hstep
        exact absurd hstep hnew
    · obtain ⟨before,i,later,m,rfl,hages,horigin⟩ := ih (after rt w l) hn hstep
      exact ⟨l :: before,i,later,m,rfl,hages,horigin⟩

/-- A request to go up, and one to go down that is refused its calls. -/
def bornRun : List Label := [Plain.invoke Plain.clean Plain.upText,Plain.invoke Plain.unwritable Plain.downText]

theorem birth_has_cause_plain : ∃ n ∈ (run (after Plain.runtime) Plain.empty bornRun).instances,
    ∃ (before : List Label) (i : Invocation) (later : List Label) (m : Node), bornRun = before ++ .invoke i :: later ∧
      Ages m n ∧ Origin Plain.runtime (run (after Plain.runtime) Plain.empty before) m i := by
  have hne : (run (after Plain.runtime) Plain.empty bornRun).instances ≠ [] := by decide +kernel
  exact ⟨_,List.head_mem hne,birth_has_cause Plain.runtime Plain.empty bornRun _ (List.head_mem hne) List.not_mem_nil⟩

end ShardVPN.System
