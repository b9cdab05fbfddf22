import ShardVPN.Pointer.Codec
import ShardVPN.Request.Describe
import ShardVPN.Sweep.Cull

/-! # What `down` does

A request to go down that succeeds has terminated every node of one region: the one
the pointer names, or the default region when there is no pointer. In both cases no
pointer is left. One that raises has made no change or has met a failed call.
-/
namespace ShardVPN.Handler
open Effect Ec2ops Settings

/-- The terminate of a node that was served. -/
def terminateEvent (region : Text) (i : Instance) : Event := ⟨Watchdog.terminateCall (region,i),none,true⟩

/-- The region that a request to go down empties. -/
def DownRegion (rt : Runtime) (w : World) (region : Text) : Prop :=
  (storedPointer rt w = .ok none ∧
    w.parameters rt.controlRegion ParamName.defaultRegion.path = some region) ∨
  ∃ p, storedPointer rt w = .ok (some p) ∧ clientRegion rt p.region = .ok region

/-- A readable pointer decides the region that is emptied. -/
theorem DownRegion.pointed {rt : Runtime} {w : World} {region region' : Text} {p : Pointer}
    (h : DownRegion rt w region) (hp : storedPointer rt w = .ok (some p))
    (hclient : clientRegion rt p.region = .ok region') : region' = region := by
  rcases h with ⟨hnone,-⟩ | ⟨q,hq,hclient'⟩
  · cases hnone.symm.trans hp
  · obtain rfl := Option.some.inj (Except.ok.inj (hp.symm.trans hq))
    exact Except.ok.inj (hclient.symm.trans hclient')

/-- How a request to go down runs from a world. -/
inductive DownRun (rt : Runtime) (w : World) : Except Exn Response → List Event → Prop
  | failed {x : Exn} {es : List Event} : (∀ e ∈ es, e.call.onlyRemoves = true) →
      ((∀ e ∈ es, e.call.quiet = true) ∨ ∃ e ∈ es, e.succeeded = false) → DownRun rt w (.error x) es
  | emptied {region : Text} {is : List Instance} {xs zs : List Event} : DownRegion rt w region →
      (∀ e ∈ xs, e.call.quiet = true) → is.Perm (w.nodesIn region) →
      (zs = [] ∧ storedPointer rt w = .ok none ∨ zs = [⟨pointerWrite rt none,none,true⟩]) →
      DownRun rt w (.ok (respond 200 Statusdoc.absent)) (xs ++ (is.map (terminateEvent region) ++ zs))

section
variable {rt : Runtime} {env : Env} {s t : State} {es : List Event}

theorem terminateAll_cases {region : Text} {is : List Instance} {r : Except Exn Unit}
    (h : Steps env.service (terminateAll region is) s r es t) :
    r = .ok () ∧ es = is.map (terminateEvent region) ∨
      (∃ x, r = .error x) ∧ (∀ e ∈ es, e.call.onlyRemoves = true) ∧ ∃ e ∈ es, e.succeeded = false := by
  induction is generalizing s es with
  | nil =>
    obtain ⟨hr,rfl,-⟩ := Steps.pure_iff.mp h
    exact Or.inl ⟨hr,rfl⟩
  | cons i rest ih =>
    rcases h.bind_cases with ⟨_,u,xs,ys,h1,h2,rfl⟩ | ⟨x,h1,hr⟩
    · rcases terminate_cases h1 with ⟨-,rfl⟩ | ⟨e,b,hx,-⟩
      · rcases ih h2 with ⟨hr,rfl⟩ | ⟨hr,hys,e,he,hf⟩
        · exact Or.inl ⟨hr,rfl⟩
        · refine Or.inr ⟨hr,?_,e,List.mem_append_right _ he,hf⟩
          intro f hf
          rcases List.mem_append.mp hf with hf | hf
          · rw [List.mem_singleton.mp hf]
            rfl
          · exact hys f hf
      · cases hx
    · rcases terminate_cases h1 with ⟨hx,-⟩ | ⟨e,b,-,rfl⟩
      · cases hx
      · exact Or.inr ⟨⟨x,hr⟩,by simp [Call.onlyRemoves],by simp [Event.succeeded]⟩

theorem terminateRegion_cases {region : Text} {r : Except Exn Unit}
    (h : Steps env.service (terminateRegion region) s r es t) :
    (∃ (is : List Instance) (xs : List Event), is.Perm (s.world.nodesIn region) ∧
      (∀ e ∈ xs, e.call.quiet = true) ∧ r = .ok () ∧ es = xs ++ is.map (terminateEvent region)) ∨
      (∃ x, r = .error x) ∧ (∀ e ∈ es, e.call.onlyRemoves = true) ∧ ∃ e ∈ es, e.succeeded = false := by
  rcases h.bind_cases with ⟨nodes,u,xs,ys,h1,h2,rfl⟩ | ⟨x,h1,hr⟩
  · have hquiet := (findNodes_frugal _).quiet h1
    obtain ⟨-,-,⟨nodes',hn,hperm,-⟩ | ⟨e,b,hn,-⟩⟩ := findNodes_cases h1
    · obtain rfl := Except.ok.inj hn
      rcases terminateAll_cases h2 with ⟨hr,rfl⟩ | ⟨hr,hys,e,he,hf⟩
      · exact Or.inl ⟨nodes,xs,hperm,hquiet,hr,rfl⟩
      · refine Or.inr ⟨hr,?_,e,List.mem_append_right _ he,hf⟩
        intro f hf
        rcases List.mem_append.mp hf with hf | hf
        · exact Call.quiet_onlyRemoves (hquiet f hf)
        · exact hys f hf
    · cases hn
  · have hquiet := (findNodes_frugal _).quiet h1
    obtain ⟨-,-,⟨nodes',hn,-,-⟩ | ⟨e,b,-,rfl⟩⟩ := findNodes_cases h1
    · cases hn
    · exact Or.inr ⟨⟨x,hr⟩,fun f hf => Call.quiet_onlyRemoves (hquiet f hf),by simp [Event.succeeded]⟩

/-- Quiet calls before a run are part of it. -/
theorem DownRun.prepend (env : Env) {w : World} {r : Except Exn Response} {xs : List Event}
    (hxs : ∀ e ∈ xs, e.call.quiet = true) (h : DownRun rt (env.service.replay w xs) r es) :
    DownRun rt w r (xs ++ es) := by
  have hsame := replay_quiet env hxs w
  cases h with
  | failed hes hf =>
    refine .failed ?_ ?_
    · intro e he
      rcases List.mem_append.mp he with he | he
      · exact Call.quiet_onlyRemoves (hxs e he)
      · exact hes e he
    · rcases hf with hf | ⟨e,he,hf⟩
      · exact Or.inl fun e he => (List.mem_append.mp he).elim (hxs e) (hf e)
      · exact Or.inr ⟨e,List.mem_append_right _ he,hf⟩
  | emptied hr hys hperm hzs =>
    rw [← List.append_assoc]
    rw [hsame.nodesIn] at hperm
    rw [hsame.storedPointer] at hzs
    refine .emptied ?_ ?_ hperm hzs
    · rw [DownRegion,hsame.storedPointer,hsame.parameters] at hr
      exact hr
    · exact fun e he => (List.mem_append.mp he).elim (hxs e) (hys e)

/-- A region is emptied, and what follows may fail. -/
theorem emptied_cases (zs : List Event) {region : Text} {next : Program Exn Response} {r : Except Exn Response}
    (hregion : DownRegion rt s.world region)
    (hnext : ∀ {u v : State} {r : Except Exn Response} {ys : List Event}, Steps env.service next u r ys v →
      (r = .ok (respond 200 Statusdoc.absent) ∧ ys = zs) ∨
        (∃ x, r = .error x) ∧ (∀ e ∈ ys, e.call.onlyRemoves = true) ∧ ∃ e ∈ ys, e.succeeded = false)
    (hzs : zs = [] ∧ storedPointer rt s.world = .ok none ∨ zs = [⟨pointerWrite rt none,none,true⟩])
    (h : Steps env.service (terminateRegion region >>= fun _ => next) s r es t) : DownRun rt s.world r es := by
  rcases h.bind_cases with ⟨_,u,xs,ys,h1,h2,rfl⟩ | ⟨x,h1,rfl⟩
  · rcases terminateRegion_cases h1 with ⟨is,xs,hperm,hquiet,-,rfl⟩ | ⟨⟨x,hx⟩,-⟩
    · rcases hnext h2 with ⟨rfl,rfl⟩ | ⟨⟨x,rfl⟩,hys,e,he,hf⟩
      · rw [List.append_assoc]
        exact .emptied hregion hquiet hperm hzs
      · refine .failed ?_ (Or.inr ⟨e,List.mem_append_right _ he,hf⟩)
        intro f hf
        rcases List.mem_append.mp hf with hf | hf
        · rcases List.mem_append.mp hf with hf | hf
          · exact Call.quiet_onlyRemoves (hquiet f hf)
          · obtain ⟨i,-,rfl⟩ := List.mem_map.mp hf
            rfl
        · exact hys f hf
    · cases hx
  · rcases terminateRegion_cases h1 with ⟨is,xs,-,-,hx,-⟩ | ⟨-,hes,hf⟩
    · cases hx
    · exact .failed hes (Or.inr hf)

/-- A quiet part either ends the run or leaves it to the rest. -/
theorem DownRun.bind_quiet {α : Type} {m : Program Exn α} {f : α → Program Exn Response} (hm : Quiet m)
    {r : Except Exn Response} (h : Steps env.service (m >>= f) s r es t)
    (hf : ∀ a u xs ys, Steps env.service m s (.ok a) xs u → Steps env.service (f a) u r ys t →
      DownRun rt u.world r ys) : DownRun rt s.world r es := by
  rcases h.bind_cases with ⟨a,u,xs,ys,h1,h2,rfl⟩ | ⟨x,h1,rfl⟩
  · refine .prepend env (hm h1) ?_
    rw [← h1.world]
    exact hf a u xs ys h1 h2
  · exact .failed (fun e he => Call.quiet_onlyRemoves (hm h1 e he)) (Or.inl (hm h1))

theorem down_cases {r : Except Exn Response} (h : Steps env.service (down rt) s r es t) :
    DownRun rt s.world r es := by
  refine DownRun.bind_quiet (readPointer_frugal _ _).quiet h fun pointer s₁ _ _ k₁ h => ?_
  obtain ⟨hw,-,hstored | ⟨x,hx⟩⟩ := readPointer_cases k₁
  · rw [← hw] at hstored
    cases pointer with
    | none =>
      have hquiet : Quiet (defaultClient rt) := defaultClient_only rfl
      refine DownRun.bind_quiet hquiet h fun region s₂ _ _ k₂ h => ?_
      have hsame := Quiet.same hquiet k₂
      refine emptied_cases [] (Or.inl ?_) ?_ (Or.inl ⟨rfl,?_⟩) h
      · rw [hsame.storedPointer,hsame.parameters]
        exact ⟨hstored.symm,defaultClient_cases k₂⟩
      · intro u v r ys hpure
        obtain ⟨rfl,rfl,-⟩ := Steps.pure_iff.mp hpure
        exact Or.inl ⟨rfl,rfl⟩
      · rw [hsame.storedPointer]
        exact hstored.symm
    | some p =>
      refine DownRun.bind_quiet (ofExcept_only _) h fun region s₂ _ _ k₂ h₂ => ?_
      obtain ⟨hregion,-,rfl⟩ := ofExcept_cases k₂
      refine emptied_cases _ (Or.inr ⟨p,hstored.symm,hregion.symm⟩) ?_ (Or.inr rfl) h₂
      intro u v r ys hwrite
      rcases hwrite.bind_cases with ⟨_,w,xs,zs,h1,h2,rfl⟩ | ⟨x,h1,rfl⟩
      · obtain ⟨rfl,rfl,-⟩ := Steps.pure_iff.mp h2
        rcases writePointer_cases h1 with ⟨-,rfl⟩ | ⟨e,b,hr,-⟩
        · exact Or.inl ⟨rfl,rfl⟩
        · cases hr
      · rcases writePointer_cases h1 with ⟨hr,-⟩ | ⟨e,b,-,rfl⟩
        · cases hr
        · exact Or.inr ⟨⟨x,rfl⟩,by simp [pointerWrite,Call.onlyRemoves],by simp [Event.succeeded]⟩
  · cases hx

/-! ## What a success leaves -/

theorem removed_terminateEvents (region : Text) (is : List Instance) :
    removed (is.map (terminateEvent region)) = is.map (fun i => (region,i.instanceId)) := by
  rw [removed,List.filter_eq_self.mpr ?_,attempted,List.filterMap_map]
  · change List.filterMap (some ∘ fun i : Instance => (region,i.instanceId)) is = _
    rw [List.filterMap_eq_map]
  · intro e he
    obtain ⟨i,-,rfl⟩ := List.mem_map.mp he
    rfl

/-- A success has emptied its region, and no pointer is left. -/
theorem DownRun.effects {w : World} {response : Response} (h : DownRun rt w (.ok response) es) (env : Env) :
    ∃ region, DownRegion rt w region ∧
      (env.service.replay w es).nodes = w.nodes.filter (fun n => decide (n.1 ≠ region)) ∧
      (env.service.replay w es).parameters rt.controlRegion ParamName.defaultRegion.path =
        w.parameters rt.controlRegion ParamName.defaultRegion.path ∧
      storedPointer rt (env.service.replay w es) = .ok none := by
  cases h with
  | @emptied region is xs zs hregion hquiet hperm hzs =>
    have hsame := replay_quiet env hquiet w
    have hterminates : ∀ e ∈ is.map (terminateEvent region), e.call.onlyRemoves = true ∧
        e.call.keepsParameters = true := by
      intro e he
      obtain ⟨i,-,rfl⟩ := List.mem_map.mp he
      exact ⟨rfl,rfl⟩
    have hnodes : (env.service.replay w (xs ++ is.map (terminateEvent region))).nodes =
        w.nodes.filter (fun n => decide (n.1 ≠ region)) := by
      rw [Service.replay_append,replay_nodes env fun e he => (hterminates e he).1,hsame.nodes,
        removed_terminateEvents]
      refine List.filter_congr ?_
      intro n hn
      rw [Bool.eq_iff_iff]
      simp only [Bool.not_eq_true',decide_eq_false_iff_not,decide_eq_true_eq,ne_eq,List.mem_map,not_exists,not_and]
      constructor
      · intro hk hr
        exact hk n.2 (hperm.mem_iff.mpr (mem_nodesIn.mpr (hr ▸ hn))) (by rw [Node.key,hr])
      · rintro hr i - hk
        exact hr (congrArg Prod.fst hk).symm
    have hparameters : (env.service.replay w (xs ++ is.map (terminateEvent region))).parameters = w.parameters := by
      rw [Service.replay_append,replay_parameters env fun e he => (hterminates e he).2,hsame.parameters]
    refine ⟨region,hregion,?_⟩
    rw [← List.append_assoc,Service.replay_append]
    rcases hzs with ⟨rfl,hstored⟩ | rfl
    · refine ⟨hnodes,congrFun (congrFun hparameters _) _,?_⟩
      rw [Service.replay_nil,storedPointer,hparameters]
      exact hstored
    · have hpath : ParamName.defaultRegion.path ≠ ParamName.currentNode.path := by decide
      refine ⟨hnodes,?_,storedPointer_write env rt none _⟩
      rw [← hparameters]
      simp [Env.service,Env.effect,pointerWrite,World.setParameter,hpath]

end

end ShardVPN.Handler
