import ShardVPN.Request.Admission
import ShardVPN.System.Recovery

/-! # The lifetime of a node

Whatever fails, an instance that ended stays ended, and a live node goes only for a
cause: it ends by itself, a request to go down empties its region, or a sweep finds it
overdue or finds a live node launched no earlier that is not. Its expiry stays what
its launch made it, so it is never overdue before its TTL is up, and from then on a
sweep that can see and terminate it removes it.
-/
namespace ShardVPN.System
open Effect Time Ec2ops Settings Handler Watchdog

variable {rt : Runtime} {v w : World}

theorem Ages.trans {l m n : Node} (h : Ages l m) (k : Ages m n) : Ages l n where
  key := k.key.trans h.key
  tags key hkey := (k.tags key hkey).trans (h.tags key hkey)
  role := k.role.trans h.role
  live := h.live ∘ k.live

theorem Evolves.ages (h : Evolves v w) {n : Node} (hn : n ∈ v.instances) : ∃ m ∈ w.instances, Ages n m := by
  cases h with
  | aged f hf hw =>
    refine ⟨f n,?_,hf n⟩
    rw [hw]
    exact List.mem_map_of_mem hn
  | launched l i _ _ _ _ hw =>
    refine ⟨n,?_,.refl n⟩
    rw [hw]
    exact List.mem_append_left _ hn

/-- An instance stays on record, whatever becomes of it. -/
theorem ages_lasting (rt : Runtime) (n : Node) : Lasting rt (fun w => ∃ m ∈ w.instances, Ages n m) :=
  lasting_of_evolves fun v w h _ => by
    rintro ⟨m,hm,hages⟩
    obtain ⟨k,hk,hmk⟩ := h.ages hm
    exact ⟨k,hk,hages.trans hmk⟩

theorem instance_unique {m n : Node} (hm : m ∈ w.instances) (hn : n ∈ w.instances) (h : m.key = n.key) : m = n :=
  List.inj_on_of_nodup_map w.ids_nodup hm hn (Prod.mk.inj h).2

/-- The same instance later in a run. -/
theorem ages_run {ls : List Label} {m n : Node} (hn : n ∈ w.instances) (hm : m ∈ (run (after rt) w ls).instances)
    (hkey : m.key = n.key) : Ages n m := by
  obtain ⟨k,hk,hages⟩ := (ages_lasting rt n).run ls ⟨n,hn,.refl n⟩
  rwa [instance_unique hm hk (hkey.trans hages.key.symm)]

/-- The instance is on record and has ended. -/
def Ended (w : World) (key : Text × Text) : Prop := ∃ n ∈ w.instances, n.key = key ∧ isLive n.2 = false

/-- What has ended stays ended. -/
theorem ended_lasting (rt : Runtime) (key : Text × Text) : Lasting rt (fun w => Ended w key) :=
  lasting_of_evolves fun v w h _ => by
    rintro ⟨n,hn,hkey,hdead⟩
    obtain ⟨m,hm,hages⟩ := h.ages hn
    refine ⟨m,hm,hages.key.trans hkey,?_⟩
    by_contra hlive
    rw [hages.live (by simpa using hlive)] at hdead
    cases hdead

theorem Ended.gone {key : Text × Text} (h : Ended w key) : key ∉ w.nodes.map Node.key := by
  obtain ⟨n,hn,rfl,hdead⟩ := h
  intro hmem
  obtain ⟨m,hm,hkey⟩ := List.mem_map.mp hmem
  obtain ⟨hm,hnode⟩ := List.mem_filter.mp hm
  obtain rfl := instance_unique hm hn hkey
  rw [isNode,hdead,Bool.and_false] at hnode
  cases hnode

/-! ## What an invocation removes -/

/-- A call of the program that does not terminate an instance leaves it live. -/
theorem key_effect (env : Env) {c : Call} (hc : ProgramCall rt c) {key : Text × Text}
    (hkey : terminateTarget ⟨c,none,true⟩ ≠ some key) (hw : key ∈ w.nodes.map Node.key) :
    key ∈ (env.effect c w).nodes.map Node.key := by
  have hquiet : ∀ {u : World}, u.nodes = w.nodes → key ∈ u.nodes.map Node.key := fun h => by rwa [h]
  cases hc with
  | quiet hquiet' => exact hquiet (env.effect_quiet hquiet' w).nodes
  | writePointer value => exact hquiet rfl
  | terminate region instanceId =>
    obtain ⟨n,hn,rfl⟩ := List.mem_map.mp hw
    rw [nodes_terminate]
    refine List.mem_map_of_mem (List.mem_filter.mpr ⟨hn,?_⟩)
    have hne : ¬(n.1 = region ∧ n.2.instanceId = instanceId) := fun h => hkey (by rw [Node.key,h.1,h.2]; rfl)
    simpa [imp_iff_not_or] using hne
  | @stamp region ids t ht =>
    rw [nodes_stamp env region ids (by rw [ht]; decide),List.map_map]
    have hsame : Node.key ∘ stamped region ids t = Node.key := funext fun n => stamped_key region ids t n
    rwa [hsame]
  | @launch region hostname launchedAt expiresAt request hne htags =>
    rw [nodes_run env region request w (hasRole_launchTags env w htags),List.map_append]
    exact List.mem_append_left _ hw

/-- A node that no call terminated is still live. -/
theorem key_replay (env : Env) {es : List Event} (hes : ∀ e ∈ es, ProgramCall rt e.call) {key : Text × Text}
    (hkey : key ∉ attempted es) (hw : key ∈ w.nodes.map Node.key) :
    key ∈ (env.service.replay w es).nodes.map Node.key := by
  induction es generalizing w with
  | nil => exact hw
  | cons e es ih =>
    have htarget : terminateTarget e ≠ some key := by
      intro h
      exact hkey (List.mem_filterMap.mpr ⟨e,List.mem_cons_self,h⟩)
    rw [Service.replay_cons]
    refine ih (fun f hf => hes f (List.mem_cons_of_mem _ hf)) ?_ ?_
    · intro h
      obtain ⟨f,hf,ht⟩ := List.mem_filterMap.mp h
      exact hkey (List.mem_filterMap.mpr ⟨f,List.mem_cons_of_mem _ hf,ht⟩)
    · split
      · exact key_effect env (hes e List.mem_cons_self) htarget hw
      · exact hw

theorem Invocation.programmed (i : Invocation) (w : World) : ∀ e ∈ i.events rt w, ProgramCall rt e.call :=
  lambdaHandler_programmed i.requestId i.event (i.steps w)

/-- Calls of the program keep the parameters but for the pointer. -/
theorem programCall_parameters {c : Call} (h : ProgramCall rt c) :
    c.keepsParameters = true ∨ ∃ value, c = pointerWrite rt value := by
  cases h with
  | quiet h => exact Or.inl (Call.quiet_keepsParameters h)
  | writePointer value => exact Or.inr ⟨value,rfl⟩
  | terminate region instanceId => exact Or.inl rfl
  | stamp h => exact Or.inl rfl
  | launch h k => exact Or.inl rfl

theorem Invocation.parameter_kept (i : Invocation) (w : World) {name : ParamName} (hname : name ≠ .currentNode) :
    (i.after rt w).parameters rt.controlRegion name.path = w.parameters rt.controlRegion name.path := by
  rw [i.after_eq]
  exact replay_parameter i.env rt (fun e he => programCall_parameters (i.programmed w e he)) w hname

/-- No step writes a parameter that is neither the pointer nor a default. -/
theorem after_parameter (l : Label) (w : World) {name : ParamName} (hname : name ≠ .currentNode)
    (hdefault : ∀ d : Default, name.path ≠ d.name.path) :
    (after rt w l).parameters rt.controlRegion name.path = w.parameters rt.controlRegion name.path := by
  cases l with
  | invoke i => exact i.parameter_kept w hname
  | setDefault d value => simp [after,World.setParameter,hdefault d]
  | nodeEnds instanceId => rfl
  | nodeBoots instanceId publicIp => rfl

/-- A request to go up terminates nothing. -/
theorem upRun_attempted {env : Env} {body : Dict} {r : Except Exn Response} {es : List Event}
    (h : UpRun rt env body w r es) : attempted es = [] := by
  refine attempted_eq_nil fun e he => ?_
  have hquiet : ∀ {es : List Event}, (∀ e ∈ es, e.call.quiet = true) → e ∈ es → e.call.terminates = false :=
    fun hes he => Call.quiet_terminates (hes e he)
  cases h with
  | tracked hes _ _ _ _ => exact hquiet hes he
  | declined hes _ => exact hquiet hes he
  | recovered _ _ hxs hc hys _ _ =>
    rcases List.mem_append.mp he with he | he
    · exact hquiet hxs he
    · rcases List.mem_cons.mp he with rfl | he
      · rw [hc]
        rfl
      · exact hquiet hys he
  | failed _ _ hxs hc _ _ =>
    rcases List.mem_append.mp he with he | he
    · exact hquiet hxs he
    · rw [List.mem_singleton.mp he,hc]
      rfl
  | launched _ _ hxs _ hc _ _ =>
    rcases List.mem_append.mp he with he | he
    · exact hquiet hxs he
    · rcases List.mem_cons.mp he with rfl | he
      · rfl
      · rw [List.mem_singleton.mp he,hc]
        rfl

section
variable {env : Env} {s t : State} {es : List Event}

/-- Emptying a region terminates instances there and nowhere else. -/
theorem terminateRegion_attempted {region : Text} {r : Except Exn Unit}
    (h : Steps env.service (terminateRegion region) s r es t) {key : Text × Text} (hkey : key ∈ attempted es) :
    key.1 = region := by
  have honly : Only (fun c => ∀ k, terminateTarget ⟨c,none,true⟩ = some k → k.1 = region) (terminateRegion region) := by
    refine .bind (findNodes_only _ fun k hk => by cases hk) fun is => ?_
    induction is with
    | nil => exact .pure _
    | cons i rest ih =>
      refine .bind (.call ?_) fun _ => ih
      rintro k ⟨⟩
      rfl
  obtain ⟨e,he,ht⟩ := List.mem_filterMap.mp hkey
  exact honly h e he key ht

theorem emptied_attempted {region : Text} {next : Unit → Program Exn Response} {r : Except Exn Response}
    (hnext : Only (fun c => c.terminates = false) (next ()))
    (h : Steps env.service (terminateRegion region >>= next) s r es t) {key : Text × Text}
    (hkey : key ∈ attempted es) : key.1 = region := by
  rcases h.bind_cases with ⟨_,u,xs,ys,k,hrest,rfl⟩ | ⟨x,k,-⟩
  · rw [attempted_append,attempted_eq_nil (hnext hrest),List.append_nil] at hkey
    exact terminateRegion_attempted k hkey
  · exact terminateRegion_attempted k hkey

theorem down_default_attempted {r : Except Exn Response} {key : Text × Text}
    (h : Steps env.service (do
      let region ← defaultClient rt
      terminateRegion region
      pure (respond 200 Statusdoc.absent)) s r es t)
    (hkey : key ∈ attempted es) :
    ∃ region, s.world.parameters rt.controlRegion ParamName.defaultRegion.path = some region ∧ key.1 = region := by
  have honly : Only (fun c => c.terminates = false) (defaultClient rt) := defaultClient_only rfl
  rcases h.bind_cases with ⟨region,u,xs,ys,k,hrest,rfl⟩ | ⟨x,k,-⟩
  · rw [attempted_append,attempted_eq_nil (honly k),List.nil_append] at hkey
    exact ⟨region,defaultClient_cases k,emptied_attempted (.pure _) hrest hkey⟩
  · rw [attempted_eq_nil (honly k)] at hkey
    cases hkey

theorem down_pointed_attempted {p : Pointer} {r : Except Exn Response} {key : Text × Text}
    (h : Steps env.service (do
      let region ← Program.ofExcept (clientRegion rt p.region)
      terminateRegion region
      writePointer rt.controlRegion .currentNode none
      pure (respond 200 Statusdoc.absent)) s r es t)
    (hkey : key ∈ attempted es) : clientRegion rt p.region = .ok key.1 := by
  rcases h.bind_cases with ⟨region,u,xs,ys,k,hrest,rfl⟩ | ⟨x,k,-⟩
  · obtain ⟨hregion,rfl,rfl⟩ := ofExcept_cases k
    rw [List.nil_append] at hkey
    have hnext : Only (fun c => c.terminates = false) (writePointer rt.controlRegion .currentNode none >>= fun _ =>
        pure (respond 200 Statusdoc.absent)) := .bind (.call rfl) fun _ => .pure _
    rw [← hregion,emptied_attempted hnext hrest hkey]
  · rw [(ofExcept_cases k).2.1] at hkey
    cases hkey

/-- A request to go down terminates only where it empties a region. -/
theorem down_attempted {r : Except Exn Response} (h : Steps env.service (down rt) s r es t) {key : Text × Text}
    (hkey : key ∈ attempted es) : DownRegion rt s.world key.1 := by
  have hread : ∀ {X α : Type} {m : Program X α} {u v : State} {r : Except X α} {xs : List Event}, Quiet m →
      Steps env.service m u r xs v → attempted xs = [] := fun hm h =>
    attempted_eq_nil fun e he => Call.quiet_terminates (hm h e he)
  rcases h.bind_cases with ⟨pointer,u,xs,ys,k,hrest,rfl⟩ | ⟨x,k,-⟩
  · rw [attempted_append,hread (readPointer_frugal _ _).quiet k,List.nil_append] at hkey
    obtain ⟨hworld,-,hstored | ⟨x,hx⟩⟩ := readPointer_cases k
    · cases pointer with
      | none =>
        obtain ⟨region,hdefault,rfl⟩ := down_default_attempted hrest hkey
        exact Or.inl ⟨hstored.symm,hworld ▸ hdefault⟩
      | some p => exact Or.inr ⟨p,hstored.symm,down_pointed_attempted hrest hkey⟩
    · cases hx
  · rw [hread (readPointer_frugal _ _).quiet k] at hkey
    cases hkey

/-- Another live node, not overdue, that was launched no earlier. -/
structure Outlives (now : DateTime) (w : World) (k n : Node) : Prop where
  live : k ∈ w.nodes
  other : k.key ≠ n.key
  timely : overdue now k = false
  newer : ∃ a b, launchTime n = some a ∧ launchTime k = some b ∧ a.instant ≤ b.instant

/-- A node that step 2 gives up is outlived by the node it keeps. -/
theorem surplus_outlived {now : DateTime} {threshold : Option ℤ} {pointer : Except Exn (Option Pointer)}
    {regions : List Text} {summary summary' : Summary}
    (x : SweepRun rt env now threshold pointer regions w summary summary' es) (hregions : regions.Nodup) {n : Node}
    (hn : n ∈ surplus x.survivors) : ∃ k, Outlives now w k n ∧ k.key ∉ attempted es := by
  have hduplicates := surplus_isDuplicates x.survivors
  by_cases hresolved : 2 ≤ x.survivors.length ∧ ∀ m ∈ x.survivors, launchTime m ≠ none
  · obtain ⟨k,hperm,hnewest⟩ := hduplicates.resolved hresolved.1 hresolved.2
    have hk : k ∈ x.survivors := hperm.mem_iff.mpr List.mem_cons_self
    have hns : n ∈ x.survivors := surplus_subset n hn
    have hkeys : ((k :: surplus x.survivors).map Node.key).Nodup := by
      rw [← (hperm.map Node.key).nodup_iff]
      exact (x.found_keys_nodup hregions).sublist (List.filter_sublist.map _)
    obtain ⟨hkfound,htimely⟩ := List.mem_filter.mp hk
    obtain ⟨a,ha⟩ := Option.ne_none_iff_exists'.mp (hresolved.2 n hns)
    obtain ⟨b,hb⟩ := Option.ne_none_iff_exists'.mp (hresolved.2 k hk)
    have hother : k.key ∉ (surplus x.survivors).map Node.key := (List.nodup_cons.mp hkeys).1
    refine ⟨k,⟨?_,?_,?_,a,b,ha,hb,hnewest n hns a b ha hb⟩,?_⟩
    · exact (List.mem_filter.mp (((x.found_perm hregions).mem_iff).mp hkfound)).1
    · intro hkey
      exact hother (hkey ▸ List.mem_map_of_mem hn)
    · rw [← expired_eq_overdue]
      simpa using htimely
    · rw [x.attempted_eq,List.map_append,List.mem_append]
      rintro (h | h)
      · obtain ⟨m,hm,hkey⟩ := List.mem_map.mp h
        exact x.keys_disjoint hregions hm hk hkey
      · exact hother h
  · rw [hduplicates.unresolved hresolved] at hn
    cases hn

/-- A sweep terminates what is overdue and what is outlived, and nothing else. -/
theorem sweep_attempted {now : DateTime} {summary : Summary}
    (h : Steps env.service (sweep rt now) s (.ok summary) es t) {key : Text × Text} (hkey : key ∈ attempted es) :
    ∃ n ∈ s.world.nodes, n.key = key ∧
      (overdue now n = true ∨ ∃ k, Outlives now s.world k n ∧ k.key ∉ attempted es) := by
  obtain ⟨y⟩ := sweep_cases h
  rw [y.attempted_rest.1] at hkey ⊢
  cases hsucceeded : y.regionsEvent.succeeded with
  | false =>
    rw [attempted_eq_nil fun e he =>
      terminates_of_inspects (inspects_of_notifies (y.aborted hsucceeded e he))] at hkey
    cases hkey
  | true =>
    obtain ⟨regions,hperm,⟨x⟩⟩ := y.run hsucceeded
    have hregions : regions.Nodup := hperm.nodup_iff.mpr s.world.regions_nodup
    have hfound : ∀ n ∈ x.found, n ∈ s.world.nodes := fun n hn =>
      (List.mem_filter.mp (((x.found_perm hregions).mem_iff).mp hn)).1
    rw [x.attempted_eq] at hkey
    obtain ⟨n,hn,rfl⟩ := List.mem_map.mp hkey
    rcases List.mem_append.mp hn with hn | hn
    · obtain ⟨hfoundn,hexpired⟩ := List.mem_filter.mp hn
      exact ⟨n,hfound n hfoundn,rfl,Or.inl (by rwa [← expired_eq_overdue])⟩
    · have hmem : n ∈ x.found := (List.mem_filter.mp (surplus_subset n hn)).1
      exact ⟨n,hfound n hmem,rfl,Or.inr (surplus_outlived x hregions hn)⟩

end

/-- Why a live node goes with a step: it ends by itself, an admitted request empties its region, or a sweep
finds it overdue or outlived by a node that stays. -/
inductive Cause (rt : Runtime) (w : World) (n : Node) : Label → Prop
  | ended : Cause rt w n (.nodeEnds n.2.instanceId)
  | downed {i : Invocation} : Admitted rt i.env i.event (i.start w) → Asks asksDown i → DownRegion rt w n.1 →
      Cause rt w n (.invoke i)
  | expired {i : Invocation} : i.Sweeps → overdue i.time.toDateTime n = true → Cause rt w n (.invoke i)
  | replaced {i : Invocation} {k : Node} : i.Sweeps → Outlives i.time.toDateTime w k n →
      k.key ∈ (i.after rt w).nodes.map Node.key → Cause rt w n (.invoke i)

theorem Invocation.key_kept {i : Invocation} {key : Text × Text} (hw : key ∈ w.nodes.map Node.key)
    (hkey : key ∉ attempted (i.events rt w)) : key ∈ (i.after rt w).nodes.map Node.key := by
  rw [i.after_eq]
  exact key_replay i.env (i.programmed w) hkey hw

/-- What an HTTP event terminates, an admitted request to go down asked for. -/
theorem Invocation.attempted_http {i : Invocation} (hhttp : ¬i.Sweeps) {key : Text × Text}
    (hkey : key ∈ attempted (i.events rt w)) :
    Admitted rt i.env i.event (i.start w) ∧ Asks asksDown i ∧ DownRegion rt w key.1 := by
  have hreads : ∀ {es : List Event}, (∀ e ∈ es, e.call.reads = true) → attempted es = [] := fun hes =>
    attempted_eq_nil fun e he => Call.quiet_terminates (Call.quiet_of_reads (hes e he))
  refine ⟨?_,?_⟩
  · rcases lambdaHandler_admitted hhttp (i.steps w) with h | ⟨hsecret,-⟩
    · exact h
    · rw [hreads fun e he => hsecret e he ▸ rfl] at hkey
      cases hkey
  · have hhandled := i.handled rt w
    generalize i.events rt w = es at hkey hhandled
    generalize i.reply rt w = r at hhandled
    cases hhandled with
    | swept hcontext _ _ => exact absurd hcontext hhttp
    | refused hes _ =>
      rw [hreads hes] at hkey
      cases hkey
    | @performed body v u t xs ys hbody hxs hu hperform =>
      rw [attempted_append,hreads hxs,List.nil_append] at hkey
      rcases perform_cases hperform with ⟨-,hup⟩ | ⟨hdown,-⟩ | ⟨-,-,hquiet⟩
      · rw [upRun_attempted hup] at hkey
        cases hkey
      · rw [perform_down hdown] at hperform
        exact ⟨⟨body,hbody,hdown⟩,hu ▸ down_attempted hperform hkey⟩
      · rw [attempted_eq_nil fun e he => Call.quiet_terminates (hquiet e he)] at hkey
        cases hkey

theorem Invocation.cause {i : Invocation} {n : Node} (hn : n ∈ w.nodes)
    (hgone : n.key ∉ (i.after rt w).nodes.map Node.key) : Cause rt w n (.invoke i) := by
  have hkey : n.key ∈ attempted (i.events rt w) := by
    by_contra hkey
    exact hgone (i.key_kept (List.mem_map_of_mem hn) hkey)
  by_cases hsweep : i.Sweeps
  · obtain ⟨u,t,summary,rfl,h⟩ := hsweep.steps rt w
    obtain ⟨m,hm,hmn,hcause⟩ := sweep_attempted h hkey
    obtain rfl := instance_unique (List.mem_filter.mp hm).1 (List.mem_filter.mp hn).1 hmn
    rcases hcause with hexpired | ⟨k,hk,hkept⟩
    · exact .expired hsweep hexpired
    · exact .replaced hsweep hk (i.key_kept (List.mem_map_of_mem hk.live) hkept)
  · obtain ⟨hadmitted,hasks,hregion⟩ := Invocation.attempted_http hsweep hkey
    exact .downed hadmitted hasks hregion

theorem step_cause {l : Label} {n : Node} (hn : n ∈ w.nodes) (hgone : n.key ∉ (after rt w l).nodes.map Node.key) :
    Cause rt w n l := by
  have hsame : ∀ {u : World}, u.nodes.map Node.key = w.nodes.map Node.key → n.key ∈ u.nodes.map Node.key :=
    fun h => h ▸ List.mem_map_of_mem hn
  cases l with
  | invoke i => exact Invocation.cause hn hgone
  | setDefault d value => exact absurd (hsame rfl) hgone
  | nodeBoots instanceId publicIp => exact absurd (hsame (keys_nodeBoots w instanceId publicIp)) hgone
  | nodeEnds instanceId =>
    by_cases hid : n.2.instanceId = instanceId
    · exact hid ▸ .ended
    · refine absurd ?_ hgone
      rw [nodes_nodeEnds]
      exact List.mem_map_of_mem (List.mem_filter.mpr ⟨hn,decide_eq_true hid⟩)

/-- Whatever fails, a live node goes in one step of the run, and that step has a cause. -/
theorem death_has_cause (rt : Runtime) (w : World) (ls : List Label) (n : Node) (hn : n ∈ w.nodes)
    (hgone : n.key ∉ (run (after rt) w ls).nodes.map Node.key) :
    ∃ (before : List Label) (l : Label) (later : List Label) (m : Node), ls = before ++ l :: later ∧
      m ∈ (run (after rt) w before).nodes ∧ Ages n m ∧ Cause rt (run (after rt) w before) m l ∧
      m.key ∉ (run (after rt) w (before ++ [l])).nodes.map Node.key := by
  induction ls generalizing w n with
  | nil => exact absurd (List.mem_map_of_mem hn) hgone
  | cons l ls ih =>
    by_cases hstep : n.key ∈ (after rt w l).nodes.map Node.key
    · obtain ⟨m,hm,hmn⟩ := List.mem_map.mp hstep
      have hlater : m ∈ (run (after rt) w [l]).instances := (List.mem_filter.mp hm).1
      have hages : Ages n m := ages_run (List.mem_filter.mp hn).1 hlater hmn
      obtain ⟨before,l',later,k,rfl,hk,hmk,hcause,hstepk⟩ := ih (after rt w l) m hm (by rwa [hmn])
      exact ⟨l :: before,l',later,k,rfl,hk,hages.trans hmk,hcause,hstepk⟩
    · exact ⟨[],l,ls,n,rfl,hn,.refl n,step_cause hn hstep,hstep⟩

def lapsedNode : Node := Plain.node Plain.region0 Plain.instance0 Plain.newYearsEve Plain.noonBefore

/-- An overdue node, a new default and the first sweep. -/
def lapsing : List Label := [.setDefault .ttl (text "2h"),.invoke ⟨Plain.clean,Plain.proc,[],[]⟩]

theorem death_has_cause_lapsing : ∃ (before : List Label) (l : Label) (later : List Label) (m : Node),
    lapsing = before ++ l :: later ∧
      m ∈ (run (after Plain.runtime) (Plain.lapsed Settings.empty) before).nodes ∧ Ages lapsedNode m ∧
      Cause Plain.runtime (run (after Plain.runtime) (Plain.lapsed Settings.empty) before) m l ∧
      m.key ∉ (run (after Plain.runtime) (Plain.lapsed Settings.empty) (before ++ [l])).nodes.map Node.key :=
  death_has_cause Plain.runtime (Plain.lapsed Settings.empty) lapsing lapsedNode (by decide) (by decide +kernel)

end ShardVPN.System
