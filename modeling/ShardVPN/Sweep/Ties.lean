import ShardVPN.Sweep.Listing

/-! # Nodes launched in one second

A tie among the nodes launched last is broken by the order of the listing: whichever of
them is listed first is kept. So sweeps of one world agree, and a duplicate is given up
for a newer node only, exactly where there is no such tie.
-/
namespace ShardVPN.Watchdog
open Effect Ec2ops Settings Time

/-- Two environments that differ in the order of their listings at most. -/
structure Relisted (env env' : Env) : Prop where
  fault : env'.fault = env.fault
  instanceId : env'.instanceId = env.instanceId
  groupId : env'.groupId = env.groupId
  http : env'.http = env.http

/-- Sweeps that differ in their listings terminate the same nodes and leave the same pointer. -/
def ListingFree (rt : Runtime) (now : DateTime) (s : State) : Prop :=
  ∀ env env' : Env, env.Clean → Relisted env env' →
    (∀ k, k ∈ terminated (sweepEvents rt now env' s) ↔ k ∈ terminated (sweepEvents rt now env s)) ∧
      ((sweep rt now).exec env'.service s).2.world.parameters rt.controlRegion ParamName.currentNode.path =
        ((sweep rt now).exec env.service s).2.world.parameters rt.controlRegion ParamName.currentNode.path

/-- A node that has not expired is terminated only when a newer one is kept. -/
def GivenUpForNewer (rt : Runtime) (now : DateTime) (s : State) : Prop :=
  ∀ env : Env, env.Clean → ∀ n ∈ contenders now s.world, n.key ∈ terminated (sweepEvents rt now env s) →
    ∃ kept ∈ contenders now s.world, kept.key ∉ terminated (sweepEvents rt now env s) ∧ LaunchedBefore n kept

theorem Relisted.clean {env env' : Env} (h : Relisted env env') (hclean : env.Clean) : env'.Clean := by
  intro c n
  rw [h.fault]
  exact hclean c n

/-! ## Listing a node first -/

/-- The elements with a property before the others. -/
def inFront {α : Type} (p : α → Bool) (l : List α) : List α := l.filter p ++ l.filter (fun a => !p a)

theorem inFront_cons {α : Type} {p : α → Bool} {l : List α} {a : α} (ha : a ∈ l) (hp : p a = true)
    (hunique : ∀ b ∈ l, p b = true → b = a) : ∃ rest, inFront p l = a :: rest := by
  unfold inFront
  cases hfilter : l.filter p with
  | nil => exact absurd hp (List.filter_eq_nil_iff.mp hfilter a ha)
  | cons b rest =>
    obtain ⟨hb,hpb⟩ := List.mem_filter.mp (hfilter ▸ List.mem_cons_self : b ∈ l.filter p)
    rw [hunique b hb hpb]
    exact ⟨_,rfl⟩

/-- The plain environment, with one node listed first. -/
def favouring (n : Node) : Env :=
  { Plain.clean with
    regionOrder := fun _ rs => inFront (fun r => decide (r = n.1)) rs
    reservations := fun _ _ is => [inFront (fun i => decide (i.instanceId = n.2.instanceId)) is]
    regionOrder_perm := fun _ rs => List.filter_append_perm _ rs
    reservations_perm := fun _ _ is => by
      rw [List.flatten_singleton]
      exact List.filter_append_perm _ is }

variable {rt : Runtime} {now : DateTime} {s : State} {n m : Node}

theorem favouring_clean (n : Node) : (favouring n).Clean := fun _ _ => rfl

theorem favouring_relisted (m n : Node) : Relisted (favouring m) (favouring n) := ⟨rfl,rfl,rfl,rfl⟩

theorem favouring_found (before : List Event) {w : World} (hn : n ∈ visible w) :
    ∃ rest, foundNodes (scansSeen rt (favouring n) before w) = n :: rest := by
  obtain ⟨hnode,hregion⟩ := List.mem_filter.mp hn
  obtain ⟨regions,hregions⟩ : ∃ rest, inFront (fun r => decide (r = n.1)) w.regions = n.1 :: rest :=
    inFront_cons (of_decide_eq_true hregion) (decide_eq_true rfl) fun r _ hr => of_decide_eq_true hr
  obtain ⟨instances,hinstances⟩ : ∃ rest, inFront (fun i : Instance => decide (i.instanceId = n.2.instanceId))
      (w.nodesIn n.1) = n.2 :: rest := by
    refine inFront_cons (mem_nodesIn.mpr hnode) (decide_eq_true rfl) fun i hi hid => ?_
    exact congrArg Prod.snd (node_unique (mem_nodesIn.mp hi) hnode (of_decide_eq_true hid))
  have hscan : scanSeen (favouring n) before w n.1 = ⟨n.1,n.2 :: instances,none⟩ := by
    unfold scanSeen
    rw [reply_clean (favouring_clean n)]
    change (⟨n.1,(inFront _ ((w.instancesIn n.1).filter fun i => matchesAll i.filterValues nodeFilters)) ++ [],none⟩ :
      Scan) = _
    simp only [matchesAll_nodeFilters,List.append_nil]
    exact congrArg (fun nodes => (⟨n.1,nodes,none⟩ : Scan)) hinstances
  have hseen : regionsSeen rt (favouring n) before w = .ok (n.1 :: regions) :=
    (reply_clean (favouring_clean n) _).trans (congrArg Except.ok hregions)
  unfold scansSeen
  rw [hseen]
  dsimp only
  rw [List.map_cons,foundNodes,List.flatMap_cons,hscan]
  exact ⟨_,rfl⟩

/-- Of the nodes launched last, the one listed first is kept. -/
theorem favouring_kept (hn : n ∈ contenders now s.world) (hnewest : Newest (contenders now s.world) n)
    (hlaunches : ∀ k ∈ contenders now s.world, launchTime k ≠ none) :
    keptNode (remaining now (scansSeen rt (favouring n) s.trace s.world)) = some n := by
  obtain ⟨hvisible,hoverdue⟩ := mem_contenders.mp hn
  have hperm := remaining_clean rt s.trace s.world now (favouring_clean n)
  obtain ⟨found,hfound⟩ : ∃ rest, foundNodes (scansSeen rt (favouring n) s.trace s.world) = n :: rest :=
    favouring_found s.trace hvisible
  unfold remaining at hperm ⊢
  rw [hfound,List.filter_cons_of_pos (by simp [expired_eq_overdue,hoverdue])] at hperm ⊢
  refine keptNode_first ?_ (hnewest.perm hperm)
  by_contra hunordered
  obtain ⟨-,k,hk,hnone⟩ := orderSurvivors_unordered.mp (Bool.not_eq_true _ ▸ hunordered)
  exact hlaunches k (hperm.mem_iff.mp hk) hnone

/-! ## Both properties and the tie -/

theorem Decided.listingFree (h : Decided (contenders now s.world)) : ListingFree rt now s := by
  intro env env' hclean hrelisted
  have hclean' := hrelisted.clean hclean
  have hdoomed := doomed_clean rt s.trace s.world now hclean h
  have hdoomed' := doomed_clean rt s.trace s.world now hclean' h
  constructor
  · intro k
    rw [terminated_clean rt now s hclean,terminated_clean rt now s hclean']
    exact ((hdoomed'.trans hdoomed.symm).map Node.key).mem_iff
  · rw [parameters_clean rt now s hclean hclean' (decisionSeen_clean s.trace h hclean hclean')]

theorem Decided.givenUpForNewer (h : Decided (contenders now s.world)) : GivenUpForNewer rt now s := by
  intro env hclean n hn hterminated
  have hperm := remaining_clean rt s.trace s.world now hclean
  have hsurplus := (contender_terminated hclean hn).mp hterminated
  cases ho : (orderSurvivors (remaining now (scansSeen rt env s.trace s.world))).2 with
  | false =>
    rw [(unordered_surplus ho).2] at hsurplus
    cases hsurplus
  | true =>
    rcases ordered_surplus ho with ⟨-,-,hnil⟩ | ⟨kept,hkept,hsplit,hnewest⟩
    · rw [hnil] at hsurplus
      cases hsurplus
    · have hremaining : kept ∈ remaining now (scansSeen rt env s.trace s.world) :=
        hsplit.mem_iff.mpr List.mem_cons_self
      have hcontender := hperm.mem_iff.mp hremaining
      have hlen : 2 ≤ (remaining now (scansSeen rt env s.trace s.world)).length := by
        have hpos := List.length_pos_of_mem hsurplus
        rw [hsplit.length_eq,List.length_cons]
        omega
      have hlaunches := launches_of_ordered ho hlen
      obtain ⟨a,ha⟩ := Option.ne_none_iff_exists'.mp (hlaunches n (hperm.mem_iff.mpr hn))
      obtain ⟨b,hb⟩ := Option.ne_none_iff_exists'.mp (hlaunches kept hremaining)
      refine ⟨kept,hcontender,?_,a,b,ha,hb,?_⟩
      · rw [contender_survives hclean hkept hcontender]
        exact fun hne => hne rfl
      · refine lt_of_le_of_ne (hnewest n (hperm.mem_iff.mpr hn) a b ha hb) fun heq => ?_
        have hnewest' : Newest (remaining now (scansSeen rt env s.trace s.world)) n := by
          intro k hk c d hc hd
          obtain rfl := Option.some.inj (ha.symm.trans hd)
          rw [heq]
          exact hnewest k hk c b hc hb
        obtain rfl := (h.perm hperm).newest_unique ho (hperm.mem_iff.mpr hn) hremaining hnewest' hnewest
        exact (contender_survives hclean hkept hn).mp hterminated rfl

/-- A tie: two nodes launched last, and every launch time is known. -/
theorem tie_of_undecided (h : ¬Decided (contenders now s.world)) :
    (∀ k ∈ contenders now s.world, launchTime k ≠ none) ∧ ∃ m ∈ contenders now s.world,
      ∃ n ∈ contenders now s.world, Newest (contenders now s.world) m ∧ Newest (contenders now s.world) n ∧ m ≠ n := by
  unfold Decided at h
  push Not at h
  obtain ⟨hlaunches,m,hm,n,hn,hm',hn',hne⟩ := h
  exact ⟨hlaunches,m,hm,n,hn,hm',hn',hne⟩

theorem decided_of_listingFree (h : ListingFree rt now s) : Decided (contenders now s.world) := by
  by_contra hundecided
  obtain ⟨hlaunches,m,hm,n,hn,hm',hn',hne⟩ := tie_of_undecided hundecided
  have hkept : keptNode (remaining now (scansSeen rt (favouring m) s.trace s.world)) = some m :=
    favouring_kept hm hm' hlaunches
  have hkept' : keptNode (remaining now (scansSeen rt (favouring n) s.trace s.world)) = some n :=
    favouring_kept hn hn' hlaunches
  have hsame := (h (favouring m) (favouring n) (favouring_clean m) (favouring_relisted m n)).1 m.key
  rw [contender_survives (favouring_clean m) hkept hm,contender_survives (favouring_clean n) hkept' hm] at hsame
  exact hsame.mp hne rfl

theorem decided_of_givenUpForNewer (h : GivenUpForNewer rt now s) : Decided (contenders now s.world) := by
  by_contra hundecided
  obtain ⟨hlaunches,m,hm,n,hn,hm',hn',hne⟩ := tie_of_undecided hundecided
  have hkept : keptNode (remaining now (scansSeen rt (favouring n) s.trace s.world)) = some n :=
    favouring_kept hn hn' hlaunches
  obtain ⟨kept,hmem,-,a,b,ha,hb,hlt⟩ := h (favouring n) (favouring_clean n) m hm
    ((contender_survives (favouring_clean n) hkept hm).mpr hne)
  exact absurd (hm' kept hmem b a hb ha) (Int.not_le.mpr hlt)

/-- The listing is of no account, and a node is given up for a newer one only, exactly when there is no
tie among the nodes launched last. -/
theorem listing_free_iff (rt : Runtime) (now : DateTime) (s : State) :
    (ListingFree rt now s ↔ Decided (contenders now s.world)) ∧
      (GivenUpForNewer rt now s ↔ Decided (contenders now s.world)) :=
  ⟨⟨decided_of_listingFree,Decided.listingFree⟩,⟨decided_of_givenUpForNewer,Decided.givenUpForNewer⟩⟩

def twin0 : Node := Plain.node Plain.region0 Plain.instance0 Plain.newYearsEve Ttl.never
def twin1 : Node := Plain.node Plain.region1 Plain.instance1 Plain.newYearsEve Ttl.never

/-- Two nodes launched in the same second. -/
def twins : World := Plain.world Settings.empty [twin0,twin1] (by decide) (by decide) (by decide)

theorem launchTime_node (region instanceId launchedAt expiresAt : Text) :
    launchTime (Plain.node region instanceId launchedAt expiresAt) = parseRfc3339 launchedAt := by
  have htag : tagValue (Plain.node region instanceId launchedAt expiresAt).2 tagLaunched = some launchedAt := rfl
  unfold launchTime
  rw [htag]
  rfl

theorem twins_launched {kept : Node} (h : kept ∈ contenders now twins) : launchTime kept = launchTime twin1 := by
  have hmem : kept ∈ [twin0,twin1] := (List.mem_filter.mp (List.mem_filter.mp (mem_contenders.mp h).1).1).1
  rcases List.mem_cons.mp hmem with rfl | hmem
  · exact (launchTime_node _ _ _ _).trans (launchTime_node _ _ _ _).symm
  · rw [List.mem_singleton.mp hmem]

/-- Listed in the other order, the other of two twins is terminated. -/
theorem twins_listed : ¬ListingFree Plain.runtime Plain.midnight.toDateTime (Plain.state twins) ∧
    ¬GivenUpForNewer Plain.runtime Plain.midnight.toDateTime (Plain.state twins) := by
  have hkeeps0 : terminated (sweepEvents Plain.runtime Plain.midnight.toDateTime (favouring twin0)
      (Plain.state twins)) = [twin1.key] := by decide +kernel
  have hkeeps1 : terminated (sweepEvents Plain.runtime Plain.midnight.toDateTime (favouring twin1)
      (Plain.state twins)) = [twin0.key] := by decide +kernel
  constructor
  · intro h
    have hne : twin0.key ≠ twin1.key := by decide +kernel
    have hsame := (h (favouring twin0) (favouring twin1) (favouring_clean twin0)
      (favouring_relisted twin0 twin1)).1 twin0.key
    rw [hkeeps0,hkeeps1,List.mem_singleton,List.mem_singleton] at hsame
    exact hne (hsame.mp rfl)
  · intro h
    have hmem : twin1 ∈ contenders Plain.midnight.toDateTime twins := by decide +kernel
    obtain ⟨kept,hkept,-,a,b,ha,hb,hlt⟩ := h (favouring twin0) (favouring_clean twin0) twin1 hmem
      (hkeeps0 ▸ List.mem_singleton.mpr rfl)
    rw [twins_launched hkept,ha] at hb
    rw [Option.some.inj hb] at hlt
    exact lt_irrefl _ hlt

end ShardVPN.Watchdog
