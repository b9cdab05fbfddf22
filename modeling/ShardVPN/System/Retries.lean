import ShardVPN.System.Runs

/-! # Retrying a request to go up

However many requests go up in the same region, and whatever fails in each of them,
one launch at most takes effect: a launch is made only when a scan of the region has
found it empty, and it leaves a live node there.
-/
namespace ShardVPN.System
open Effect Settings Handler

theorem nodesIn_ne_nil {w : World} {region : Text} :
    w.nodesIn region ≠ [] ↔ ∃ k ∈ w.nodes.map Node.key, k.1 = region := by
  constructor
  · intro hne
    obtain ⟨i,hi⟩ := List.exists_mem_of_ne_nil _ hne
    exact ⟨_,List.mem_map_of_mem (mem_nodesIn.mp hi),rfl⟩
  · rintro ⟨k,hk,rfl⟩
    obtain ⟨n,hn,rfl⟩ := List.mem_map.mp hk
    exact List.ne_nil_of_mem (mem_nodesIn.mpr hn)

/-- What a request to go up in a region does there. -/
inductive LaunchStep (region : Text) (v w : World) (es : List Event) : Prop
  | none : launches es = [] → w.nodes.map Node.key = v.nodes.map Node.key → LaunchStep region v w es
  | one {e : Event} : launches es = [e] → v.nodesIn region = [] → w.nodesIn region ≠ [] → LaunchStep region v w es

theorem launch_nodesIn (env : Env) (region : Text) (request : RunInstances) (w : World)
    (h : hasRole (env.launched w request) = true) :
    (env.effect (.runInstances region request) w).nodesIn region ≠ [] := by
  rw [nodesIn_ne_nil,nodes_run env region request w h]
  exact ⟨(region,(env.launched w request).instanceId),by simp [Node.key],rfl⟩

theorem UpRun.launchStep {rt : Runtime} {env : Env} {body : Dict} {region : Text} {w : World}
    {r : Except Exn Response} {es : List Event} (h : UpRun rt env body w r es) (hr : Resolves rt w body region) :
    LaunchStep region w (env.service.replay w es) es := by
  have hkeeps : ∀ {es : List Event}, (∀ e ∈ es, e.call.keepsNodes = true) →
      LaunchStep region w (env.service.replay w es) es := fun hes =>
    .none (launches_eq_nil hes) (by rw [replay_keepsNodes env hes])
  have hquiet : ∀ {es : List Event}, (∀ e ∈ es, e.call.quiet = true) → ∀ e ∈ es, e.call.keepsNodes = true :=
    fun hes e he => Call.quiet_keepsNodes (hes e he)
  have htarget : ∀ {region'}, Target rt body w region' → region' = region := fun ht =>
    Json.str.inj (Option.some.inj (ht.resolves.symm.trans hr))
  cases h with
  | tracked hes _ _ _ _ => exact hkeeps (hquiet hes)
  | declined hes _ => exact hkeeps (hquiet hes)
  | recovered _ _ hxs he hys _ _ =>
    refine .none ?_ (by rw [nodes_recovered env hxs he hys])
    rw [launches_append,launches_eq_nil (hquiet hxs)]
    refine launches_eq_nil fun f hf => ?_
    rcases List.mem_cons.mp hf with rfl | hf
    · rw [he]
      rfl
    · exact hquiet hys f hf
  | @failed region' request x e xs ht hn hxs he hrole hf =>
    obtain rfl := htarget ht
    cases heffective : e.effective with
    | false =>
      refine .none ?_ ?_
      · rw [launches_append,launches_eq_nil (hquiet hxs)]
        simp [launches,heffective]
      · rw [Service.replay_append,Service.replay_cons,heffective]
        exact congrArg _ (replay_keepsNodes env (hquiet hxs) w)
    | true =>
      refine .one (e := e) ?_ hn ?_
      · rw [launches_append,launches_eq_nil (hquiet hxs)]
        simp [launches,heffective,he,Call.runs]
      · rw [Service.replay_append,Service.replay_cons,heffective,he]
        exact launch_nodesIn env _ request _ hrole
  | @launched region' request r e xs ht hn hxs hrole he _ _ =>
    obtain rfl := htarget ht
    refine .one (e := ⟨.runInstances region' request,none,true⟩) ?_ hn ?_
    · rw [launches_append,launches_eq_nil (hquiet hxs)]
      simp [launches,he,pointerWrite,Call.runs]
    · rw [nodesIn_ne_nil,nodes_launched env hxs hrole he,List.map_append]
      exact ⟨_,List.mem_append_right _ (List.mem_singleton_self _),rfl⟩

/-- A step that does nothing but go up in a region, or let an instance boot. -/
def RetriesUp (rt : Runtime) (region : Text) (w : World) : Label → Prop
  | .invoke i => i.event.get (text "requestContext") ≠ none ∧
      Asks (fun body => asksUp body ∧ Resolves rt w body region) i
  | .nodeBoots .. => True
  | .setDefault .. => False
  | .nodeEnds .. => False

theorem step_launches {rt : Runtime} {region : Text} {w : World} {l : Label} (h : RetriesUp rt region w l) :
    LaunchStep region w (after rt w l) (calls rt w l) := by
  cases l with
  | setDefault d value => cases h
  | nodeEnds instanceId => cases h
  | nodeBoots instanceId publicIp => exact .none rfl (keys_nodeBoots w instanceId publicIp)
  | invoke i =>
    obtain ⟨hcontext,body,hbody,hup,hresolves⟩ := h
    have hhandled := i.handled rt w
    change LaunchStep region w (i.after rt w) (i.events rt w)
    rw [i.after_eq]
    generalize i.events rt w = es at hhandled
    generalize i.reply rt w = r at hhandled
    have hreads : ∀ {es : List Event}, (∀ e ∈ es, e.call.reads = true) → ∀ e ∈ es, e.call.keepsNodes = true := by
      intro es hes e he
      have hc := hes e he
      generalize e.call = c at hc
      cases c <;> first | rfl | cases hc
    cases hhandled with
    | swept hnone _ _ => exact absurd hnone hcontext
    | refused hes _ => exact .none (launches_eq_nil (hreads hes)) (by rw [replay_keepsNodes i.env (hreads hes)])
    | @performed body' r u t xs ys hbody' hxs hu hperform =>
      obtain rfl : body = body' := Option.some.inj (hbody.symm.trans hbody')
      rcases perform_cases hperform with ⟨-,hrun⟩ | ⟨hdown,-⟩ | ⟨hnot,-⟩
      · rw [hu] at hrun
        rw [Service.replay_append,replay_reads i.env hxs]
        rcases UpRun.launchStep hrun hresolves with ⟨hnil,hkeys⟩ | ⟨hone,hbefore,hafter⟩
        · exact .none (by rw [launches_append,hnil,launches_eq_nil (hreads hxs)]; rfl) hkeys
        · exact .one (by rw [launches_append,hone,launches_eq_nil (hreads hxs)]; rfl) hbefore hafter
      · rw [asksUp] at hup
        rw [asksDown,hup] at hdown
        exact absurd hdown (by decide)
      · exact absurd hup hnot

/-- Retrying up in a region launches at most once, and not at all over a live node. -/
theorem retries_launch_once (rt : Runtime) (region : Text) (w : World) (ls : List Label)
    (h : Along (after rt) (RetriesUp rt region) w ls) :
    (launches (emitted (after rt) (calls rt) w ls)).length ≤ 1 ∧
      (w.nodesIn region ≠ [] → launches (emitted (after rt) (calls rt) w ls) = []) := by
  induction ls generalizing w with
  | nil => exact ⟨Nat.zero_le 1,fun _ => rfl⟩
  | cons l ls ih =>
    obtain ⟨hlength,hlive⟩ := ih (after rt w l) h.2
    rw [emitted,launches_append]
    rcases step_launches h.1 with ⟨hnil,hkeys⟩ | ⟨hone,hbefore,hafter⟩
    · rw [hnil,List.nil_append]
      refine ⟨hlength,fun hne => hlive ?_⟩
      rw [nodesIn_ne_nil,hkeys,← nodesIn_ne_nil]
      exact hne
    · rw [hone,hlive hafter]
      exact ⟨le_refl 1,fun hne => absurd hbefore hne⟩

/-- A request that cannot write the pointer, and the retry. -/
def retried : List Label := [Plain.invoke Plain.unwritable Plain.upText,Plain.invoke Plain.clean Plain.upText]

theorem retries_launch_once_plain :
    (launches (emitted (after Plain.runtime) (calls Plain.runtime) Plain.empty retried)).length ≤ 1 := by
  have hbody : requestBody (Plain.request Plain.upText) = some [(text "action",.str (text "up"))] := by
    decide +kernel
  have hcontext : (Plain.request Plain.upText).get (text "requestContext") ≠ none := by decide +kernel
  have hretries : Along (after Plain.runtime) (RetriesUp Plain.runtime Plain.region0) Plain.empty retried := by
    refine ⟨⟨hcontext,_,hbody,rfl,?_⟩,⟨hcontext,_,hbody,rfl,?_⟩,trivial⟩ <;> rw [Resolves] <;> decide +kernel
  exact (retries_launch_once Plain.runtime Plain.region0 Plain.empty retried hretries).1

end ShardVPN.System
