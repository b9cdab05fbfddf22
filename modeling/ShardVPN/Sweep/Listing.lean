import ShardVPN.Sweep.Isolation
import ShardVPN.Sweep.Repair

/-! # Sweeps and the order of listings

Regions, reservations and instances are listed in any order. Launch times are read in
whole seconds and the sort is stable, so of several nodes launched last in one second
the one listed first is kept. Where there is no such tie, what is terminated and what
the pointer becomes do not depend on the listing.
-/
namespace ShardVPN.Watchdog
open Effect Ec2ops Settings Time

def LaunchedBefore (m n : Node) : Prop :=
  ∃ a b, launchTime m = some a ∧ launchTime n = some b ∧ a.instant < b.instant

/-- Some node has no launch time that can be read, or at most one was launched last. -/
def Decided (nodes : List Node) : Prop := (∃ n ∈ nodes, launchTime n = none) ∨
  ∀ m ∈ nodes, ∀ n ∈ nodes, Newest nodes m → Newest nodes n → m = n

/-! ## Survivors in another order -/

section
variable {l l' : List Node} {m n : Node}

theorem Newest.perm (h : Newest l n) (hperm : l'.Perm l) : Newest l' n :=
  fun m hm => h m (hperm.mem_iff.mp hm)

theorem Decided.perm (h : Decided l) (hperm : l'.Perm l) : Decided l' := by
  rcases h with ⟨n,hn,hnone⟩ | h
  · exact .inl ⟨n,hperm.mem_iff.mpr hn,hnone⟩
  · refine .inr fun m hm n hn hm' hn' => ?_
    exact h m (hperm.mem_iff.mp hm) n (hperm.mem_iff.mp hn) (hm'.perm hperm.symm) (hn'.perm hperm.symm)

theorem ordered_perm (hperm : l'.Perm l) : (orderSurvivors l').2 = (orderSurvivors l).2 := by
  have hiff : (orderSurvivors l').2 = false ↔ (orderSurvivors l).2 = false := by
    rw [orderSurvivors_unordered,orderSurvivors_unordered,hperm.length_eq]
    simp only [hperm.mem_iff]
  exact Bool.eq_iff_iff.mpr (by simpa using not_congr hiff)

/-- An order is its first node and the surplus. -/
theorem ordered_surplus (ho : (orderSurvivors l).2 = true) :
    l = [] ∧ keptNode l = none ∧ surplus l = [] ∨
      ∃ kept, keptNode l = some kept ∧ l.Perm (kept :: surplus l) ∧ Newest l kept := by
  obtain ⟨hperm,hnewest⟩ := orderSurvivors_ordered ho
  unfold keptNode surplus
  rw [if_pos ho,if_pos ho]
  cases hs : (orderSurvivors l).1 with
  | nil =>
    rw [hs] at hperm
    exact .inl ⟨hperm.symm.eq_nil,rfl,rfl⟩
  | cons kept rest =>
    rw [hs] at hperm hnewest
    exact .inr ⟨kept,rfl,hperm.symm,hnewest kept rfl⟩

theorem unordered_surplus (ho : (orderSurvivors l).2 = false) : keptNode l = none ∧ surplus l = [] := by
  unfold keptNode surplus
  rw [ho]
  exact ⟨rfl,rfl⟩

/-- Several survivors in order have launch times. -/
theorem launches_of_ordered (ho : (orderSurvivors l).2 = true) (hlen : 2 ≤ l.length) :
    ∀ n ∈ l, launchTime n ≠ none := by
  intro n hn hnone
  rw [orderSurvivors_unordered.mpr ⟨hlen,n,hn,hnone⟩] at ho
  cases ho

theorem Decided.newest_unique (h : Decided l) (ho : (orderSurvivors l).2 = true) (hm : m ∈ l) (hn : n ∈ l)
    (hm' : Newest l m) (hn' : Newest l n) : m = n := by
  by_cases hlen : 2 ≤ l.length
  · rcases h with ⟨k,hk,hnone⟩ | h
    · exact absurd hnone (launches_of_ordered ho hlen k hk)
    · exact h m hm n hn hm' hn'
  · have hpos := List.length_pos_of_mem hm
    obtain ⟨k,rfl⟩ := List.length_eq_one_iff.mp (show l.length = 1 by omega)
    rw [List.mem_singleton.mp hm,List.mem_singleton.mp hn]

/-- Where at most one node was launched last, the order in which survivors are found is of no account. -/
theorem Decided.congr (h : Decided l) (hperm : l'.Perm l) :
    keptNode l' = keptNode l ∧ (surplus l').Perm (surplus l) := by
  have hordered := ordered_perm hperm
  cases ho : (orderSurvivors l).2 with
  | false =>
    rw [ho] at hordered
    rw [(unordered_surplus ho).1,(unordered_surplus ho).2,(unordered_surplus hordered).1,
      (unordered_surplus hordered).2]
    exact ⟨rfl,.refl _⟩
  | true =>
    rw [ho] at hordered
    rcases ordered_surplus ho with ⟨rfl,-⟩ | ⟨kept,hkept,hsplit,hnewest⟩
    · rw [hperm.eq_nil]
      exact ⟨rfl,.refl _⟩
    · rcases ordered_surplus hordered with ⟨rfl,-⟩ | ⟨kept',hkept',hsplit',hnewest'⟩
      · rw [hperm.symm.eq_nil] at hsplit
        cases hsplit.symm.eq_nil
      · have hmem : kept ∈ l := hsplit.mem_iff.mpr List.mem_cons_self
        have hmem' : kept' ∈ l := hperm.mem_iff.mp (hsplit'.mem_iff.mpr List.mem_cons_self)
        obtain rfl := h.newest_unique ho hmem hmem' hnewest (hnewest'.perm hperm.symm)
        exact ⟨hkept'.trans hkept.symm,(hsplit'.symm.trans (hperm.trans hsplit)).cons_inv⟩

/-- A node launched last that is found first is kept. -/
theorem keptNode_first (ho : (orderSurvivors (m :: l)).2 = true) (hnewest : Newest (m :: l) m) :
    keptNode (m :: l) = some m := by
  unfold keptNode
  rw [if_pos ho]
  unfold orderSurvivors at ho ⊢
  by_cases hlen : (m :: l).length ≤ 1
  · rw [if_pos hlen]
    rfl
  · rw [if_neg hlen] at ho ⊢
    cases hp : parseLaunches (m :: l) with
    | none =>
      rw [hp] at ho
      cases ho
    | some parsed =>
      dsimp only
      obtain ⟨hmap,hall⟩ := parseLaunches_some hp
      cases parsed with
      | nil => cases hmap
      | cons p rest =>
        obtain rfl := (List.cons.inj hmap).1
        have hfirst : ∀ q ∈ rest, newerFirst p q := by
          intro q hq
          have hmem : q.2 ∈ p.2 :: l := by
            rw [← hmap]
            exact List.mem_map.mpr ⟨q,List.mem_cons_of_mem _ hq,rfl⟩
          exact hnewest q.2 hmem q.1 p.1 (hall q (List.mem_cons_of_mem _ hq)) (hall p List.mem_cons_self)
        rw [List.insertionSort_cons_of_forall_rel newerFirst hfirst]
        rfl

end

/-! ## What is found when every call succeeds -/

/-- The nodes of the regions that are listed. -/
def visible (w : World) : List Node := w.nodes.filter (fun n => decide (n.1 ∈ w.regions))

/-- Those of them that have not expired. -/
def contenders (now : DateTime) (w : World) : List Node := (visible w).filter (fun n => !overdue now n)

section
variable {rt : Runtime} {env env' : Env} {before : List Event} {w : World} {now : DateTime} {s : State}

theorem reply_clean (h : env.Clean) (c : Call) :
    env.service.reply before w c = env.answer c (Action.occurrences c before) w := by
  have hf : env.service.fault c (Action.occurrences c before) = .none := h c _
  unfold Service.reply
  rw [hf]
  rfl

theorem scanSeen_clean (before : List Event) (w : World) (h : env.Clean) (region : Text) :
    ∃ nodes, nodes.Perm (w.nodesIn region) ∧ scanSeen env before w region = ⟨region,nodes,none⟩ := by
  unfold scanSeen
  rw [reply_clean h]
  refine ⟨_,?_,rfl⟩
  refine (env.reservations_perm _ _ _).trans (List.Perm.of_eq ?_)
  simp only [matchesAll_nodeFilters]
  rfl

theorem scansSeen_clean (rt : Runtime) (before : List Event) (w : World) (h : env.Clean) :
    ∃ regions, regionsSeen rt env before w = .ok regions ∧ regions.Perm w.regions ∧
      scansSeen rt env before w = regions.map (scanSeen env before w) := by
  have hseen : regionsSeen rt env before w = .ok (env.regionOrder _ w.regions) := reply_clean h _
  refine ⟨_,hseen,regionsSeen_perm hseen,?_⟩
  unfold scansSeen
  rw [hseen]

theorem nodesIn_nodup (w : World) (region : Text) : (w.nodesIn region).Nodup := by
  rw [nodesIn_eq]
  refine ((nodes_nodup w).of_map.filter _).map_on ?_
  intro m hm n hn hid
  exact node_unique (List.mem_filter.mp hm).1 (List.mem_filter.mp hn).1 (congrArg Instance.instanceId hid)

/-- A sweep finds what is visible, in the order of the listings. -/
theorem found_clean (rt : Runtime) (before : List Event) (w : World) (h : env.Clean) :
    (foundNodes (scansSeen rt env before w)).Perm (visible w) := by
  obtain ⟨regions,-,hregions,hscans⟩ := scansSeen_clean rt before w h
  have hvisible : (visible w).Nodup := (nodes_nodup w).of_map.filter _
  refine (List.perm_ext_iff_of_nodup ?_ hvisible).mpr ?_
  · rw [hscans,foundNodes,List.flatMap_map,List.nodup_flatMap]
    constructor
    · intro region _
      obtain ⟨nodes,hnodes,hscan⟩ := scanSeen_clean before w h region
      rw [hscan]
      exact (hnodes.nodup_iff.mpr (nodesIn_nodup w region)).map fun i j hij => (Prod.mk.inj hij).2
    · refine (hregions.nodup_iff.mpr w.regions_nodup).imp ?_
      intro r q hrq n hr hq
      obtain ⟨i,-,rfl⟩ := List.mem_map.mp hr
      obtain ⟨j,-,hj⟩ := List.mem_map.mp hq
      have hregion := congrArg Prod.fst hj
      rw [scanSeen_region,scanSeen_region] at hregion
      exact hrq hregion.symm
  · intro n
    rw [hscans,foundNodes,List.flatMap_map,List.mem_flatMap,visible,List.mem_filter,decide_eq_true_iff]
    constructor
    · rintro ⟨region,hregion,hn⟩
      obtain ⟨nodes,hnodes,hscan⟩ := scanSeen_clean before w h region
      rw [hscan] at hn
      obtain ⟨i,hi,rfl⟩ := List.mem_map.mp hn
      exact ⟨mem_nodesIn.mp (hnodes.mem_iff.mp hi),hregions.mem_iff.mp hregion⟩
    · rintro ⟨hn,hregion⟩
      obtain ⟨nodes,hnodes,hscan⟩ := scanSeen_clean before w h n.1
      refine ⟨n.1,hregions.mem_iff.mpr hregion,?_⟩
      rw [hscan]
      exact List.mem_map.mpr ⟨n.2,hnodes.mem_iff.mpr (mem_nodesIn.mpr hn),rfl⟩

theorem remaining_clean (rt : Runtime) (before : List Event) (w : World) (now : DateTime) (h : env.Clean) :
    (remaining now (scansSeen rt env before w)).Perm (contenders now w) := by
  unfold remaining contenders
  simp only [expired_eq_overdue]
  exact (found_clean rt before w h).filter _

theorem doomed_clean (rt : Runtime) (before : List Event) (w : World) (now : DateTime) (h : env.Clean)
    (hdecided : Decided (contenders now w)) : (doomed now (scansSeen rt env before w)).Perm
      ((visible w).filter (overdue now) ++ surplus (contenders now w)) := by
  have hexpired : expired now = overdue now := funext (expired_eq_overdue now)
  unfold doomed
  rw [hexpired]
  exact ((found_clean rt before w h).filter _).append (hdecided.congr (remaining_clean rt before w now h)).2

/-! ## What a sweep does when every call succeeds -/

/-- A terminate succeeds. -/
def Served (e : Event) : Prop := e.call.terminates = true → e.succeeded = true

theorem served_of_other {X α : Type} {m : Program X α} (hm : Only (fun c => c.terminates = false) m) :
    Emits env.service Served m :=
  hm.emits fun _ hother hterminates => absurd (hother.symm.trans hterminates) Bool.false_ne_true

theorem terminateNode_served (h : env.Clean) (reason : Reason) (n : Node) (summary : Summary) :
    Emits env.service Served (terminateNode rt reason n summary) := by
  have hcall : ∀ before w, Served (env.service.event before w (terminateCall n)) := by
    intro before w _
    rw [Service.event_succeeded,reply_clean h]
    rfl
  refine .bind (.bind (.attempt (.call hcall)) fun r => ?_) fun r => ?_
  · cases r <;> exact .pure _
  · split
    split
    · exact .bind (served_of_other ((publish_only rt _).mono fun c hc =>
        Call.quiet_terminates (Call.notifies_quiet hc))) fun _ => .pure _
    · exact .pure _

theorem reap_served (h : env.Clean) (nodes : List Node) (summary : Summary) :
    Emits env.service Served (reap rt now nodes summary) := by
  induction nodes generalizing summary with
  | nil => exact .pure _
  | cons n rest ih =>
    unfold reap
    split
    · exact .bind (terminateNode_served h _ _ _) fun _ => ih _
    · exact .bind (ih _) fun r => .pure _

theorem terminateDuplicates_served (h : env.Clean) (nodes : List Node) (summary : Summary) :
    Emits env.service Served (terminateDuplicates rt nodes summary) := by
  induction nodes generalizing summary with
  | nil => exact .pure _
  | cons n rest ih => exact .bind (terminateNode_served h _ _ _) fun _ => ih _

theorem deduplicate_served (h : env.Clean) (survivors : List Node) (summary : Summary) :
    Emits env.service Served (deduplicate rt survivors summary) := by
  unfold deduplicate
  split
  · exact .bind (served_of_other ((publish_only rt _).mono fun c hc =>
      Call.quiet_terminates (Call.notifies_quiet hc))) fun _ => .pure _
  · exact .bind (terminateDuplicates_served h _ _) fun _ => .pure _

theorem sweep_served (h : env.Clean) : Emits env.service Served (sweep rt now) := by
  have hreads : ∀ c : Call, c.reads = true → c.terminates = false := by
    intro c hc
    cases c <;> first | rfl | cases hc
  have hnotify : ∀ summary, Emits env.service Served (notifyFailures rt summary) := fun summary =>
    served_of_other ((notifyFailures_only rt summary).mono fun c hc => Call.quiet_terminates (Call.notifies_quiet hc))
  refine .bind (served_of_other (readThreshold_only hreads rt _)) fun threshold => ?_
  refine .bind (.attempt (served_of_other (readPointer_only _ _ (hreads _ rfl)))) fun pointer => ?_
  refine .bind (.attempt (served_of_other (.call rfl))) fun regions => ?_
  split
  · exact .bind (hnotify _) fun _ => .pure _
  · refine .bind (served_of_other (scanAll_only hreads _)) fun scanned => ?_
    refine .bind (reap_served h _ _) fun reaped => ?_
    refine .bind (deduplicate_served h _ _) fun kept => ?_
    refine .bind (served_of_other ((checkCandidate_only rt _ _ _ _ _ _).mono fun c hc =>
      terminates_of_inspects hc)) fun summary => ?_
    refine .bind (served_of_other (reconcileStep_only (fun _ => rfl) _ _ _ _ _ _)) fun summary => ?_
    exact .bind (hnotify _) fun _ => .pure _

theorem terminated_eq_attempted {es : List Event} (h : ∀ e ∈ es, Served e) : terminated es = attempted es := by
  induction es with
  | nil => rfl
  | cons e es ih =>
    have hrest := ih fun e he => h e (List.mem_cons_of_mem _ he)
    rw [← List.singleton_append,terminated_append,attempted_append,hrest]
    congr 1
    cases hc : e.call.terminates with
    | false =>
      have hnone : ∀ e' ∈ [e], e'.call.terminates = false := by simpa using hc
      rw [terminated_eq_nil hnone,attempted_eq_nil hnone]
    | true => rw [terminated,List.filter_cons_of_pos (h e List.mem_cons_self hc),List.filter_nil]

/-- The nodes a sweep terminates when every call succeeds. -/
theorem terminated_clean (rt : Runtime) (now : DateTime) (s : State) (h : env.Clean) :
    terminated (sweepEvents rt now env s) = (doomed now (scansSeen rt env s.trace s.world)).map Node.key := by
  rw [terminated_eq_attempted (sweep_served h (sweepEvents_steps rt now env s)),attempted_sweep]

/-- Only the writes of parameters matter for the parameters. -/
theorem replay_puts (env env' : Env) (es : List Event) {v w : World} (h : v.parameters = w.parameters) :
    (env.service.replay v es).parameters = (env'.service.replay w (puts es)).parameters := by
  induction es generalizing v w with
  | nil => exact h
  | cons e es ih =>
    unfold puts
    rw [Service.replay_cons]
    cases hc : e.call.keepsParameters with
    | true =>
      rw [List.filter_cons_of_neg (by simp [hc])]
      apply ih
      split
      · exact (env.effect_parameters hc v).trans h
      · exact h
    | false =>
      rw [List.filter_cons_of_pos (by simp [hc]),Service.replay_cons]
      apply ih
      split
      · cases hcall : e.call with
        | putParameter region name value type overwrite =>
          change (v.setParameter region name value).parameters = (w.setParameter region name value).parameters
          unfold World.setParameter
          rw [h]
        | _ =>
          rw [hcall] at hc
          cases hc
      · exact h

theorem event_clean (h : env.Clean) (value : Option Pointer) :
    env.service.event before w (pointerWrite rt value) = ⟨pointerWrite rt value,none,true⟩ := by
  have hf : env.service.fault (pointerWrite rt value) (Action.occurrences (pointerWrite rt value) before) = .none :=
    h _ _
  unfold Service.event
  rw [hf]
  rfl

/-- The parameters after a sweep, from what it decided. -/
theorem parameters_clean (rt : Runtime) (now : DateTime) (s : State) (h : env.Clean) (h' : env'.Clean)
    (hdecision : decisionSeen rt env' s.trace s.world now = decisionSeen rt env s.trace s.world now) :
    ((sweep rt now).exec env'.service s).2.world.parameters =
      ((sweep rt now).exec env.service s).2.world.parameters := by
  have hputs : puts (sweepEvents rt now env' s) = puts (sweepEvents rt now env s) := by
    rw [puts_sweep,puts_sweep,hdecision]
    simp only [event_clean h,event_clean h']
  rw [(sweepEvents_steps rt now env s).world,(sweepEvents_steps rt now env' s).world,
    replay_puts env' env' _ rfl,replay_puts env env' _ rfl,hputs]

theorem scanFailedRegions_clean (rt : Runtime) (before : List Event) (w : World) (h : env.Clean) :
    scanFailedRegions (scansSeen rt env before w) = [] := by
  obtain ⟨regions,-,-,hscans⟩ := scansSeen_clean rt before w h
  unfold scanFailedRegions
  rw [hscans,List.map_eq_nil_iff,List.filter_eq_nil_iff]
  intro x hx
  obtain ⟨region,-,rfl⟩ := List.mem_map.mp hx
  obtain ⟨nodes,-,hscan⟩ := scanSeen_clean before w h region
  rw [hscan]
  exact Bool.false_ne_true

/-- Without a tie the decision about the pointer does not depend on the listing. -/
theorem decisionSeen_clean (before : List Event) (hdecided : Decided (contenders now w)) (h : env.Clean)
    (h' : env'.Clean) : decisionSeen rt env' before w now = decisionSeen rt env before w now := by
  obtain ⟨regions,hregions,-,-⟩ := scansSeen_clean rt before w h
  obtain ⟨regions',hregions',-,-⟩ := scansSeen_clean rt before w h'
  have hpointer : pointerSeen rt env' before w = pointerSeen rt env before w :=
    pointerSeen_congr (funext fun n => (h' _ n).trans (h _ n).symm)
  have hperm := remaining_clean rt before w now h
  have hperm' := remaining_clean rt before w now h'
  unfold decisionSeen decision
  rw [hregions,hregions',hpointer,scanFailedRegions_clean rt before w h,scanFailedRegions_clean rt before w h',
    ordered_perm hperm,ordered_perm hperm',(hdecided.congr hperm).1,(hdecided.congr hperm').1]

theorem mem_contenders {n : Node} : n ∈ contenders now w ↔ n ∈ visible w ∧ overdue now n = false := by
  simp [contenders]

theorem mem_of_key {m n : Node} (hm : m ∈ visible w) (hn : n ∈ visible w) (hkey : m.key = n.key) : m = n :=
  node_unique (List.mem_filter.mp hm).1 (List.mem_filter.mp hn).1 (congrArg Prod.snd hkey)

/-- Of the nodes that have not expired, the surplus is terminated. -/
theorem contender_terminated (h : env.Clean) {n : Node} (hn : n ∈ contenders now s.world) :
    n.key ∈ terminated (sweepEvents rt now env s) ↔ n ∈ surplus (remaining now (scansSeen rt env s.trace s.world)) := by
  obtain ⟨hvisible,hoverdue⟩ := mem_contenders.mp hn
  have hfound := found_clean rt s.trace s.world h
  have hperm := remaining_clean rt s.trace s.world now h
  rw [terminated_clean rt now s h,doomed]
  constructor
  · intro hkey
    obtain ⟨m,hm,hkey⟩ := List.mem_map.mp hkey
    rcases List.mem_append.mp hm with hm | hm
    · obtain ⟨hm,hexpired⟩ := List.mem_filter.mp hm
      obtain rfl := mem_of_key (hfound.mem_iff.mp hm) hvisible hkey
      rw [expired_eq_overdue,hoverdue] at hexpired
      cases hexpired
    · obtain ⟨hmv,-⟩ := mem_contenders.mp (hperm.mem_iff.mp (surplus_subset m hm))
      obtain rfl := mem_of_key hmv hvisible hkey
      exact hm
  · intro hsurplus
    exact List.mem_map.mpr ⟨n,List.mem_append_right _ hsurplus,rfl⟩

/-- When the survivors have an order, all of them but the kept one are terminated. -/
theorem contender_survives (h : env.Clean) {kept n : Node}
    (hkept : keptNode (remaining now (scansSeen rt env s.trace s.world)) = some kept)
    (hn : n ∈ contenders now s.world) : n.key ∈ terminated (sweepEvents rt now env s) ↔ n ≠ kept := by
  have hperm := remaining_clean rt s.trace s.world now h
  have hnodup : (remaining now (scansSeen rt env s.trace s.world)).Nodup :=
    hperm.nodup_iff.mpr (((nodes_nodup s.world).of_map.filter _).filter _)
  rw [contender_terminated h hn]
  cases ho : (orderSurvivors (remaining now (scansSeen rt env s.trace s.world))).2 with
  | false => cases (unordered_surplus ho).1.symm.trans hkept
  | true =>
    rcases ordered_surplus ho with ⟨-,hnone,-⟩ | ⟨kept',hkept',hsplit,-⟩
    · cases hnone.symm.trans hkept
    · obtain rfl := Option.some.inj (hkept'.symm.trans hkept)
      have hcons := hsplit.nodup_iff.mp hnodup
      constructor
      · rintro hmem rfl
        exact (List.nodup_cons.mp hcons).1 hmem
      · intro hne
        have hmem := hsplit.mem_iff.mp (hperm.mem_iff.mpr hn)
        exact (List.mem_cons.mp hmem).resolve_left hne

end

end ShardVPN.Watchdog
