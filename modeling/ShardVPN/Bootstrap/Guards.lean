import ShardVPN.Bootstrap.Script

/-! # What the whole script guards

No program advertises the node before the machine is prepared, joined and known to
forward, and whenever the script ends it is either ready or shuts the machine down,
unless the join itself fails or a line that nothing guards does.
-/
namespace ShardVPN.Bootstrap
open Shell

/-! ## Programs of one part are not those of another -/

/-- The programs of the preparation. -/
def preparing : List (List Str) := preparation.map Simple.argv

theorem preparing_apart : ∀ a ∈ preparing,
    a.take 2 ≠ [bytes "tailscale",bytes "up"] ∧ a ≠ grant ∧ a ≠ ready ∧ a ≠ shutdown ∧ a ∉ afterJoin.programs ∧
      a ∉ onError.programs ∧ a ≠ echo "shardvpn: joining tailnet" := by
  simp only [preparing,preparation,announce,simple,Bootstrap.document,forwardingConf,groScript,groUnit,logoutUnit,
    List.map_cons,List.map_nil,onError,afterJoin,verifyForwarding,advertise,verifyAdvertisement,verifySelf,
    failUnadvertised,leaveTailnet,bestEffort,say,grant,withdraw,status,check,logout,readForwarding,rounds,pause,ready,
    shutdown,advertised,echo,words,bytes]
  repeat rw [text_ofList]
  decide +kernel

/-- What the script does when it cannot advertise. -/
def refusal : Cmd := .block (say "shardvpn: FATAL could not advertise as exit node" :: leaveTailnet)

/-- What comes after the advertisement. -/
def confirmation : Cmd :=
  .block [say "shardvpn: verifying exit node advertisement",.assign advertised (bytes "0"),verifyAdvertisement,
    failUnadvertised,.call ready]

/-- No other part of the script joins or advertises. -/
theorem others_apart : ∀ c ∈ [onError,say "shardvpn: verifying forwarding",verifyForwarding,
    say "shardvpn: advertising as exit node",refusal,confirmation], ∀ a ∈ c.programs,
      a.take 2 ≠ [bytes "tailscale",bytes "up"] ∧ a ≠ grant := by
  simp only [onError,refusal,confirmation,verifyForwarding,verifyAdvertisement,verifySelf,failUnadvertised,leaveTailnet,
    bestEffort,say,grant,withdraw,status,check,logout,readForwarding,rounds,pause,ready,shutdown,advertised,echo,words,
    bytes]
  repeat rw [text_ofList]
  decide +kernel

section
variable {host : Host} {s t : State} {authkey hostname : Str}

theorem ne_join {a : List Str} (h : a.take 2 ≠ [bytes "tailscale",bytes "up"]) : a ≠ join authkey hostname := by
  rintro rfl
  exact h rfl

theorem join_ne {a : List Str} (h : a.take 2 ≠ [bytes "tailscale",bytes "up"]) : join authkey hostname ≠ a :=
  (ne_join h).symm

/-! ## The order -/

/-- The whole preparation has succeeded, before anything else. -/
def Prepared (ran : List Ran) : Prop := ∃ es rest, ran = es ++ rest ∧ Performed preparation es

def Joined (authkey hostname : Str) (ran : List Ran) : Prop :=
  Seen ran (fun e => e.argv = join authkey hostname ∧ e.status = 0)

/-- The node may be advertised. -/
def Late (authkey hostname : Str) (ran : List Ran) : Prop :=
  Prepared ran ∧ Joined authkey hostname ran ∧ Forwards ran

/-- It joined when it was prepared, and it was advertised when it might be. -/
def Ordered (authkey hostname : Str) (ran : List Ran) : Prop :=
  Preceded (fun e => e.argv = join authkey hostname) Prepared ran ∧
    Preceded (fun e => e.argv = grant) (Late authkey hostname) ran

theorem Prepared.append {ran : List Ran} (h : Prepared ran) (es : List Ran) : Prepared (ran ++ es) := by
  obtain ⟨done,rest,rfl,hdone⟩ := h
  exact ⟨done,rest ++ es,List.append_assoc _ _ _,hdone⟩

theorem Seen.append {ran : List Ran} {p : Ran → Prop} (h : Seen ran p) (es : List Ran) : Seen (ran ++ es) p := by
  obtain ⟨e,he,hp⟩ := h
  exact ⟨e,List.mem_append_left _ he,hp⟩

theorem Ordered.append {ran es : List Ran} (h : Ordered authkey hostname ran)
    (hes : ∀ e ∈ es, e.argv ≠ join authkey hostname ∧ e.argv ≠ grant) : Ordered authkey hostname (ran ++ es) :=
  ⟨h.1.append fun e he => (hes e he).1,h.2.append fun e he => (hes e he).2⟩

/-- Past the join. -/
def Past (authkey hostname : Str) (s : State) : Prop :=
  Prepared s.ran ∧ Joined authkey hostname s.ran ∧ Ordered authkey hostname s.ran

theorem Past.grows {ps : List (List Str)} (h : Past authkey hostname s) (hgrows : Grows ps s t)
    (hps : ∀ a ∈ ps, a.take 2 ≠ [bytes "tailscale",bytes "up"] ∧ a ≠ grant) : Past authkey hostname t := by
  obtain ⟨es,hes,he⟩ := hgrows
  obtain ⟨hprepared,hjoined,hordered⟩ := h
  unfold Past
  rw [hes]
  exact ⟨hprepared.append es,hjoined.append es,
    hordered.append fun e hmem => ⟨ne_join (hps _ (he e hmem)).1,(hps _ (he e hmem)).2⟩⟩

/-- A command that neither joins nor advertises. -/
theorem past_triple {c : Cmd} {plain : Bool}
    (h : ∀ a ∈ c.programs, a.take 2 ≠ [bytes "tailscale",bytes "up"] ∧ a ≠ grant) :
    Triple host (Past authkey hostname) c plain
      { done := fun _ => Past authkey hostname, left := Past authkey hostname, ended := Past authkey hostname } :=
  .grows fun _ _ hs hgrows => hs.grows hgrows h

theorem advertise_past : Triple host (fun s => Forwards s.ran ∧ Past authkey hostname s) advertise true
    { done := fun _ => Past authkey hostname, left := Past authkey hostname, ended := Past authkey hostname } := by
  refine .ifThen (R := Past authkey hostname) (.not (.call (fun s hs _ => ?_) fun s hs hplain _ => by cases hplain))
    (past_triple (others_apart refusal (by simp)))
  obtain ⟨hforwards,hprepared,hjoined,hordered⟩ := hs
  have hgrant : grant ≠ join authkey hostname := ne_join (by decide)
  have hpast : Past authkey hostname (s.push host grant [] false) :=
    ⟨hprepared.append _,hjoined.append _,
      hordered.1.append fun e he => by rwa [List.mem_singleton.mp he],
      hordered.2.concat fun _ => ⟨hprepared,hjoined,hforwards⟩⟩
  dsimp only
  split <;> exact hpast

theorem afterJoin_past : Triple host (fun s => Ungranted s ∧ Past authkey hostname s) afterJoin true
    { done := fun _ => Past authkey hostname, left := Past authkey hostname, ended := Past authkey hostname } := by
  refine .seq (R := fun s => Ungranted s ∧ Past authkey hostname s) ?_
    (.seq (R := fun s => Verified s ∧ Past authkey hostname s) ?_ (.seq (R := fun s => Verified s ∧ Past authkey hostname s) ?_ (.seq (R := Past authkey hostname) ?_ ?_)))
  · have hsaid := others_apart (say "shardvpn: verifying forwarding") (by simp)
    exact (((ungranted_stage host).call (harmless_programs _ (by simp))).and (past_triple hsaid)).mono (fun _ h => h)
      (fun _ _ h => h) (fun _ h => h.2) fun _ h => h.2
  · exact (verifyForwarding_triple.and (past_triple (others_apart _ (by simp)))).mono (fun _ h => h)
      (fun _ _ h => h) (fun _ h => h.2) fun _ h => h.2
  · have hsaid := others_apart (say "shardvpn: advertising as exit node") (by simp)
    exact (((verified_stage host).call (harmless_programs _ (by simp))).and (past_triple hsaid)).mono (fun _ h => h)
      (fun _ _ h => h) (fun _ h => h.2) fun _ h => h.2
  · exact advertise_past.pre fun s hs => ⟨hs.1.2,hs.2⟩
  · exact past_triple (others_apart confirmation (by simp))

theorem harmless_join (authkey hostname : Str) : Harmless (join authkey hostname) :=
  ⟨join_ne (by decide),join_ne (by decide),join_ne (by decide)⟩

/-- Prepared, and nothing else has run. -/
def Joining (s : State) : Prop := Performed preparation s.ran

theorem Joining.ungranted (h : Joining s) : Ungranted s := by
  have hran := h.succeeded
  refine ⟨⟨fun e he _ _ => (hran e he).2,fun e he => ?_⟩,?_⟩
  · have hapart := preparing_apart _ (hran e he).1
    exact ⟨hapart.2.2.1,hapart.2.2.2.1⟩
  · rintro ⟨e,he,hgrant,-⟩
    exact (preparing_apart _ (hran e he).1).2.1 hgrant

/-- Everything that ran is of the preparation or of what the trap runs. -/
theorem ordered_of_programs {ran : List Ran} {ps : List (List Str)} (hran : ∀ e ∈ ran, e.argv ∈ ps)
    (hps : ∀ a ∈ ps, a.take 2 ≠ [bytes "tailscale",bytes "up"] ∧ a ≠ grant) : Ordered authkey hostname ran := by
  have hempty : Ordered authkey hostname [] := ⟨preceded_nil,preceded_nil⟩
  exact hempty.append fun e he => ⟨ne_join (hps _ (hran e he)).1,(hps _ (hran e he)).2⟩

/-- After the preparation everything goes in order. -/
theorem fromJoin_ordered : Triple host Joining (fromJoin authkey hostname) true
    { done := fun _ s => Ordered authkey hostname s.ran, left := fun s => Ordered authkey hostname s.ran
      ended := fun s => Ordered authkey hostname s.ran } := by
  have hpreparing : ∀ a ∈ preparing, a.take 2 ≠ [bytes "tailscale",bytes "up"] ∧ a ≠ grant := fun a ha =>
    ⟨(preparing_apart a ha).1,(preparing_apart a ha).2.1⟩
  have hecho : (echo "shardvpn: joining tailnet").take 2 ≠ [bytes "tailscale",bytes "up"] ∧
      echo "shardvpn: joining tailnet" ≠ grant := by decide
  have hsaid : ∀ s : State, Joining s → Prepared (s.push host (echo "shardvpn: joining tailnet") [] true).ran ∧
      Ordered authkey hostname (s.push host (echo "shardvpn: joining tailnet") [] true).ran := by
    intro s hs
    have hordered : Ordered authkey hostname s.ran := ordered_of_programs (fun e he => (hs.succeeded e he).1) hpreparing
    refine ⟨⟨s.ran,_,rfl,hs⟩,hordered.append fun e he => ?_⟩
    rw [List.mem_singleton.mp he]
    exact ⟨ne_join hecho.1,hecho.2⟩
  have hjoined : ∀ s : State, Prepared s.ran ∧ Ordered authkey hostname s.ran →
      Ordered authkey hostname (s.push host (join authkey hostname) [] true).ran := by
    rintro s ⟨hprepared,hjoin,hgrant⟩
    refine ⟨hjoin.concat fun _ => hprepared,hgrant.append fun e he => ?_⟩
    rw [List.mem_singleton.mp he]
    exact (harmless_join authkey hostname).2.2
  refine .seq (R := fun s => Ungranted s ∧ Prepared s.ran ∧ Ordered authkey hostname s.ran) ?_
    (.seq (R := fun s => Ungranted s ∧ Past authkey hostname s) ?_ ?_)
  · refine .call (fun s hs hok => ⟨?_,hsaid s hs⟩) fun s hs _ _ => (hsaid s hs).2
    exact (ungranted_stage host).push s _ [] true hs.ungranted (by decide) hok
  · refine .call (fun s hs hok => ⟨?_,hs.2.1.append _,?_,hjoined s hs.2⟩) fun s hs _ _ => hjoined s hs.2
    · exact (ungranted_stage host).push s _ [] true hs.1 (harmless_join authkey hostname) hok
    · exact seen_push.mpr (Or.inr ⟨rfl,hok rfl⟩)
  · exact afterJoin_past.mono (fun _ h => h) (fun _ _ h => h.2.2) (fun _ h => h.2.2) fun _ h => h.2.2

/-- The part from the join on is entered when all of the preparation has succeeded; else the trap has run. -/
theorem booted_cases (m : Machine) (vars : Str → Option Str) (authkey hostname : Str) :
    (∃ t, Joining t ∧ booted m vars authkey hostname = (exec m.host (fromJoin authkey hostname) true t).2) ∨
      ∃ es e t, t.ran = es ++ [e] ∧ (∀ f ∈ es, f.argv ∈ preparing ∧ f.status = 0) ∧ e.argv ∈ preparing ∧ e.status ≠ 0 ∧
        booted m vars authkey hostname = (exec m.host onError true t).2 := by
  have hcases := guarded_cases m.host onError preparation (joined vars)
  unfold booted userdata
  generalize guarded m.host onError preparation (joined vars) = r at hcases
  generalize hcs : preparation = cs at hcases
  cases hcases with
  | all hran hes =>
    refine Or.inl ⟨_,?_,rfl⟩
    rw [Joining,hran,hcs]
    exact hes
  | trapped before after c status hran hes he hfails =>
    have hin : ∀ d ∈ before ++ c :: after, d.argv ∈ preparing := fun d hd =>
      List.mem_map_of_mem (hcs ▸ hd)
    refine Or.inr ⟨_,_,_,hran,fun f hf => ?_,?_,hfails,rfl⟩
    · obtain ⟨hargv,hstatus⟩ := hes.succeeded f hf
      obtain ⟨d,hd,hdf⟩ := List.mem_map.mp hargv
      exact ⟨hdf ▸ hin d (List.mem_append_left _ hd),hstatus⟩
    · rw [he]
      exact hin c (List.mem_append_right _ List.mem_cons_self)

end

/-- Whatever the programs answer, the node joins only when it is prepared, and it is advertised only after it
has joined and forwarding has been seen. -/
theorem never_advertised_early (m : Machine) (vars : Str → Option Str) (authkey hostname : Str) :
    Ordered authkey hostname (booted m vars authkey hostname).ran := by
  rcases booted_cases m vars authkey hostname with ⟨t,ht,hbooted⟩ | ⟨es,e,t,ht,hes,he,-,hbooted⟩
  · rw [hbooted]
    exact fromJoin_ordered.final ht
  · rw [hbooted]
    obtain ⟨fs,hfs,hf⟩ := exec_grows m.host onError true t
    have hran : ∀ f ∈ (exec m.host onError true t).2.ran, f.argv ∈ preparing ++ onError.programs := by
      intro f hmem
      rw [hfs,ht,List.mem_append,List.mem_append,List.mem_singleton] at hmem
      rcases hmem with (hmem | rfl) | hmem
      · exact List.mem_append_left _ (hes f hmem).1
      · exact List.mem_append_left _ he
      · exact List.mem_append_right _ (hf f hmem)
    refine ordered_of_programs hran fun a ha => ?_
    rcases List.mem_append.mp ha with ha | ha
    · exact ⟨(preparing_apart a ha).1,(preparing_apart a ha).2.1⟩
    · exact others_apart onError (by simp) a ha

/-! ## The end -/

/-- Every plain failure is one of the preparation, where the trap is set, or comes with the end of the script. -/
def Covered (ran : List Ran) : Prop := ∀ e ∈ ran, e.plain = true → e.status ≠ 0 →
  e.argv ∈ preparing ∨ e.argv = ready ∨ e.argv = shutdown

theorem Smooth.covered {ran : List Ran} (h : Smooth ran) : Covered ran := fun e he hplain hfails =>
  Or.inr (Or.inl (by_contra fun hne => hfails (h e he hplain hne)))

theorem covered_push {host : Host} {s : State} {argv : List Str} {stdin : Str} {plain : Bool} :
    Covered (s.push host argv stdin plain).ran ↔ Covered s.ran ∧ (plain = true → (s.answer host argv stdin).1 ≠ 0 →
      argv ∈ preparing ∨ argv = ready ∨ argv = shutdown) := by
  simp [Covered,State.push,or_imp,forall_and]

theorem Early.not_closed {ran : List Ran} {decode : Str → Option Text} (h : Early ran) :
    ¬(Ready ran decode ∨ Attempted ran [shutdown]) := by
  have hreached : ∀ argv, Attempted ran [argv] → argv ≠ ready ∧ argv ≠ shutdown := by
    intro argv hargv
    obtain ⟨e,he,rfl⟩ := List.mem_map.mp (List.singleton_sublist.mp hargv)
    exact h e he
  rintro (hready | hshutdown)
  · exact (hreached ready hready.1).1 rfl
  · exact (hreached shutdown hshutdown).2 rfl

/-- How the part from the join on may end. -/
def Outcome (decode : Str → Option Text) (s : State) : Prop :=
  Smooth s.ran ∧ (Ready s.ran decode ∨ Closed s.ran) ∨ Stopped s

theorem fromJoin_triple {m : Machine} {authkey hostname : Str} : Triple m.host Ungranted (fromJoin authkey hostname) true
    { done := fun _ => Outcome m.decode, left := Outcome m.decode, ended := Outcome m.decode } := by
  have hended : ∀ s, Ended s → Outcome m.decode s := by
    rintro s (⟨hsmooth,hclosed⟩ | hstopped)
    · exact Or.inl ⟨hsmooth,Or.inr hclosed⟩
    · exact Or.inr hstopped
  have hcall : ∀ {argv}, Harmless argv → Triple m.host Ungranted (.call argv) true
      { done := fun _ => Ungranted, left := Outcome m.decode, ended := Outcome m.decode } := fun hargv =>
    ((ungranted_stage m.host).call hargv).mono (fun _ h => h) (fun _ _ h => h) (fun _ h => h.elim) hended
  refine .seq (hcall (by decide)) (.seq (hcall (harmless_join authkey hostname)) ?_)
  refine afterJoin_triple.mono (fun _ h => h) (fun _ _ h => Or.inl ⟨h.1,Or.inl h.2⟩) (fun _ h => h.elim) ?_
  rintro s (⟨hsmooth,hready⟩ | hs)
  · exact Or.inl ⟨hsmooth,Or.inl hready⟩
  · exact hended s hs

/-- The part from the join on has no program in common with the preparation. -/
theorem fromJoin_apart {authkey hostname : Str} {a : List Str} (h : a ∈ (fromJoin authkey hostname).programs) :
    a ∉ preparing := by
  intro ha
  have hapart := preparing_apart a ha
  rcases List.mem_cons.mp h with rfl | h
  · exact hapart.2.2.2.2.2.2 rfl
  rcases List.mem_cons.mp h with rfl | h
  · exact hapart.1 rfl
  · exact hapart.2.2.2.2.1 h

/-- A failure that stops the script after the preparation is not covered. -/
theorem Stopped.not_covered {authkey hostname : Str} {s t : State} (hs : Joining s)
    (hgrows : Grows (fromJoin authkey hostname).programs s t) (h : Stopped t) : ¬Covered t.ran := by
  obtain ⟨hrough,hearly⟩ := h
  obtain ⟨es,hes,he⟩ := hgrows
  intro hcovered
  refine hrough fun e hmem hplain _ => by_contra fun hfails => ?_
  rcases hcovered e hmem hplain hfails with hargv | hargv | hargv
  · rw [hes] at hmem
    rcases List.mem_append.mp hmem with hmem | hmem
    · exact hfails (hs.succeeded e hmem).2
    · exact fromJoin_apart (he e hmem) hargv
  · exact (hearly e hmem).1 hargv
  · exact (hearly e hmem).2 hargv

/-- The trap shuts the machine down, unless the line before that fails. -/
theorem onError_closes (host : Host) {t : State} {es : List Ran} {e : Ran} (ht : t.ran = es ++ [e])
    (hes : ∀ f ∈ es, f.argv ∈ preparing ∧ f.status = 0) (he : e.argv ∈ preparing) :
    Attempted (exec host onError true t).2.ran [shutdown] ∧ Covered (exec host onError true t).2.ran ∨
      Early (exec host onError true t).2.ran ∧ ¬Covered (exec host onError true t).2.ran := by
  have hran : ∀ f ∈ t.ran, f.argv ∈ preparing := by
    intro f hf
    rw [ht] at hf
    rcases List.mem_append.mp hf with hf | hf
    · exact (hes f hf).1
    · rwa [List.mem_singleton.mp hf]
  have hearly : Early t.ran := fun f hf => by
    obtain ⟨-,-,hready,hshutdown,-⟩ := preparing_apart _ (hran f hf)
    exact ⟨hready,hshutdown⟩
  have hcovered : Covered t.ran := fun f hf _ _ => Or.inl (hran f hf)
  unfold onError say exec exec finish
  by_cases hok : (t.answer host (echo "shardvpn: FATAL bootstrap failed before tailnet join") []).1 = 0
  · left
    rw [if_neg (fun h => h.2 hok)]
    have hnone : Attempted (t.push host (echo "shardvpn: FATAL bootstrap failed before tailnet join") [] true).ran [] :=
      List.nil_sublist _
    refine ⟨hnone.next,covered_push.mpr ⟨?_,fun _ _ => Or.inr (Or.inr rfl)⟩⟩
    exact covered_push.mpr ⟨hcovered,fun _ h => absurd hok h⟩
  · right
    rw [if_pos ⟨rfl,hok⟩]
    have hecho : echo "shardvpn: FATAL bootstrap failed before tailnet join" ≠ ready ∧
        echo "shardvpn: FATAL bootstrap failed before tailnet join" ≠ shutdown := by decide
    refine ⟨early_push.mpr ⟨hearly,hecho⟩,fun h => ?_⟩
    rcases (covered_push.mp h).2 rfl hok with h | h | h
    · exact (preparing_apart _ h).2.2.2.2.2.1 List.mem_cons_self
    · exact hecho.1 h
    · exact hecho.2 h

/-- Whatever the programs answer, the script ends ready or shuts the machine down exactly when all plain failures are
covered: only the join, a line around it that nothing guards, and the echo of the trap can leave the machine as it
is. -/
theorem boots_or_shuts_down_iff (m : Machine) (vars : Str → Option Str) (authkey hostname : Str) :
    Ready (booted m vars authkey hostname).ran m.decode ∨ Attempted (booted m vars authkey hostname).ran [shutdown] ↔
      Covered (booted m vars authkey hostname).ran := by
  rcases booted_cases m vars authkey hostname with ⟨t,ht,hbooted⟩ | ⟨es,e,t,ht,hes,he,-,hbooted⟩
  · rw [hbooted]
    rcases fromJoin_triple.final ht.ungranted with ⟨hsmooth,hend⟩ | hstopped
    · have hdone : Ready _ m.decode ∨ Attempted (exec m.host (fromJoin authkey hostname) true t).2.ran [shutdown] :=
        hend.imp_right fun h => ((List.Sublist.refl [shutdown]).cons logout).trans h.1
      exact iff_of_true hdone hsmooth.covered
    · exact iff_of_false hstopped.2.not_closed (hstopped.not_covered ht (exec_grows m.host _ true t))
  · rw [hbooted]
    rcases onError_closes m.host ht hes he with ⟨hshutdown,hcovered⟩ | ⟨hearly,hcovered⟩
    · exact iff_of_true (Or.inr hshutdown) hcovered
    · exact iff_of_false hearly.not_closed hcovered

end ShardVPN.Bootstrap
