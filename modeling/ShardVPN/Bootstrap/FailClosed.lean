import ShardVPN.Bootstrap.Userdata
import ShardVPN.Shell.Rules

/-! # Failing closed after the join

Either the script comes to its last line with everything verified, or it leaves the
tailnet and shuts the machine down. It does so as long as the commands it runs plainly
succeed: a diagnostic that fails ends the script before the cleanup.
-/
namespace ShardVPN.Bootstrap
open Shell

section
variable (ran : List Ran)

/-- Some program ran and answered in a certain way. -/
def Seen (p : Ran → Prop) : Prop := ∃ e ∈ ran, p e

def Forwards : Prop := Seen ran (fun e => e.argv = readForwarding ∧ trim e.output = bytes "1")

def Granted : Prop := Seen ran (fun e => e.argv = grant ∧ e.status = 0)

/-- The node's own status showed that it is an exit node. -/
def Confirmed (decode : Str → Option Text) : Prop :=
  Seen ran (fun e => e.argv = status ∧ e.status = 0 ∧ selfCheck decode e.output = 0)

/-- The programs were attempted in this order. -/
def Attempted (argvs : List (List Str)) : Prop := argvs.Sublist (ran.map Ran.argv)

/-- The last line was reached with all that it takes. -/
def Ready (decode : Str → Option Text) : Prop :=
  Attempted ran [ready] ∧ Forwards ran ∧ Granted ran ∧ Confirmed ran decode

/-- The cleanup was attempted, beginning with the withdrawal of what had been granted. -/
def Closed : Prop := Attempted ran [logout,shutdown] ∧ (Granted ran → Attempted ran [withdraw,logout,shutdown])

/-- Every plain program but the last line succeeded. -/
def Smooth : Prop := ∀ e ∈ ran, e.plain = true → e.argv ≠ ready → e.status = 0

/-- Neither the last line nor the shutdown was reached. -/
def Early : Prop := ∀ e ∈ ran, e.argv ≠ ready ∧ e.argv ≠ shutdown

end

/-- The script was ended by a plain failure before either end. -/
def Stopped (s : State) : Prop := ¬Smooth s.ran ∧ Early s.ran

/-- How the script may end. -/
def Ended (s : State) : Prop := Smooth s.ran ∧ Closed s.ran ∨ Stopped s

section
variable {host : Host} {s : State} {argv : List Str} {stdin : Str} {plain : Bool}

/-! ## One more program -/

theorem seen_push {p : Ran → Prop} : Seen (s.push host argv stdin plain).ran p ↔ Seen s.ran p ∨
    p ⟨argv,stdin,(s.answer host argv stdin).1,(s.answer host argv stdin).2,plain⟩ := by
  simp [Seen,State.push,or_and_right,exists_or]

theorem Seen.later {p : Ran → Prop} (h : Seen s.ran p) : Seen (s.push host argv stdin plain).ran p :=
  seen_push.mpr (Or.inl h)

theorem Attempted.next {argvs : List (List Str)} (h : Attempted s.ran argvs) :
    Attempted (s.push host argv stdin plain).ran (argvs ++ [argv]) := by
  unfold Attempted State.push
  rw [List.map_append]
  exact h.append (List.Sublist.refl _)

theorem smooth_push : Smooth (s.push host argv stdin plain).ran ↔
    Smooth s.ran ∧ (plain = true → argv ≠ ready → (s.answer host argv stdin).1 = 0) := by
  simp [Smooth,State.push,or_imp,forall_and]

theorem early_push : Early (s.push host argv stdin plain).ran ↔
    Early s.ran ∧ argv ≠ ready ∧ argv ≠ shutdown := by
  unfold Early State.push
  rw [List.forall_mem_append,List.forall_mem_singleton]

theorem granted_push (h : argv ≠ grant) : Granted (s.push host argv stdin plain).ran ↔ Granted s.ran := by
  unfold Granted
  rw [seen_push]
  simp [h]

/-! ## Stages -/

/-- The programs that neither grant nor end anything. -/
def Harmless (argv : List Str) : Prop := argv ≠ ready ∧ argv ≠ shutdown ∧ argv ≠ grant

instance harmlessDecidable (argv : List Str) : Decidable (Harmless argv) :=
  inferInstanceAs (Decidable (argv ≠ ready ∧ argv ≠ shutdown ∧ argv ≠ grant))

/-- So far every plain program succeeded, and neither end was reached. -/
structure Underway (s : State) : Prop where
  smooth : Smooth s.ran
  early : Early s.ran

theorem Underway.push (h : Underway s) (hargv : argv ≠ ready ∧ argv ≠ shutdown)
    (hok : plain = true → (s.answer host argv stdin).1 = 0) : Underway (s.push host argv stdin plain) :=
  ⟨smooth_push.mpr ⟨h.smooth,fun hplain _ => hok hplain⟩,early_push.mpr ⟨h.early,hargv⟩⟩

theorem Underway.stop (h : Underway s) (hargv : argv ≠ ready ∧ argv ≠ shutdown) (hplain : plain = true)
    (hfails : (s.answer host argv stdin).1 ≠ 0) : Stopped (s.push host argv stdin plain) :=
  ⟨fun hsmooth => hfails ((smooth_push.mp hsmooth).2 hplain hargv.1),early_push.mpr ⟨h.early,hargv⟩⟩

/-- A stage of the script that harmless programs do not leave. -/
structure Stage (host : Host) (P : State → Prop) : Prop where
  underway : ∀ s, P s → Underway s
  push : ∀ s argv stdin plain, P s → Harmless argv → (plain = true → (s.answer host argv stdin).1 = 0) →
    P (s.push host argv stdin plain)

/-- Nothing has been granted. -/
def Ungranted (s : State) : Prop := Underway s ∧ ¬Granted s.ran

def Verified (s : State) : Prop := Ungranted s ∧ Forwards s.ran

def Advertising (s : State) : Prop := Underway s ∧ Forwards s.ran ∧ Granted s.ran

theorem ungranted_stage (host : Host) : Stage host Ungranted := by
  refine ⟨fun _ h => h.1,fun s argv stdin plain h hargv hok => ⟨h.1.push ⟨hargv.1,hargv.2.1⟩ hok,?_⟩⟩
  rw [granted_push hargv.2.2]
  exact h.2

theorem verified_stage (host : Host) : Stage host Verified :=
  ⟨fun _ h => h.1.1,fun s argv stdin plain h hargv hok =>
    ⟨(ungranted_stage host).push s argv stdin plain h.1 hargv hok,h.2.later⟩⟩

theorem advertising_stage (host : Host) : Stage host Advertising :=
  ⟨fun _ h => h.1,fun _ _ _ _ h hargv hok => ⟨h.1.push ⟨hargv.1,hargv.2.1⟩ hok,h.2.1.later,h.2.2.later⟩⟩

/-! ## The commands of the script -/

/-- A stage is left by a harmless plain program only if it fails. -/
theorem Stage.call {P : State → Prop} (h : Stage host P) (hargv : Harmless argv) :
    Triple host P (.call argv) true { done := fun _ => P, left := fun _ => False, ended := Ended } :=
  .call (fun s hs hok => h.push s argv [] true hs hargv hok) fun s hs hplain hfails =>
    Or.inr ((h.underway s hs).stop ⟨hargv.1,hargv.2.1⟩ hplain hfails)

/-- A best effort is attempted and goes on. -/
theorem bestEffort_triple {P R : State → Prop} {E : State → Prop}
    (h : ∀ s, P s → R (s.push host argv [] false)) :
    Triple host P (bestEffort argv) true { done := fun _ => R, left := fun _ => False, ended := E } := by
  refine .or (.call (fun s hs _ => ?_) fun s hs hplain _ => by cases hplain) (.skip fun _ hs => hs)
  dsimp only
  split
  · exact h s hs
  · exact h s hs

/-- The cleanup closes what was granted, once the withdrawal has been attempted. -/
theorem leaveTailnet_triple : Triple host (fun s => Smooth s.ran ∧ (Granted s.ran → Attempted s.ran [withdraw]))
    (.block leaveTailnet) true { done := fun _ _ => False, left := fun _ => False, ended := Ended } := by
  have hlogout : logout ≠ grant := by decide
  have hshutdown : shutdown ≠ grant := by decide
  refine .seq (bestEffort_triple (R := fun s => Smooth s.ran ∧ Attempted s.ran [logout] ∧
    (Granted s.ran → Attempted s.ran [withdraw,logout])) ?_) (.seq (bestEffort_triple
    (R := fun s => Smooth s.ran ∧ Closed s.ran) ?_) (.exit fun s hs => Or.inl hs))
  · rintro s ⟨hsmooth,hwithdrawn⟩
    refine ⟨smooth_push.mpr ⟨hsmooth,fun hplain => by cases hplain⟩,?_,fun hgranted => ?_⟩
    · have hnone : Attempted s.ran [] := List.nil_sublist _
      exact hnone.next
    · exact (hwithdrawn ((granted_push hlogout).mp hgranted)).next
  · rintro s ⟨hsmooth,hattempted,hwithdrawn⟩
    refine ⟨smooth_push.mpr ⟨hsmooth,fun hplain => by cases hplain⟩,hattempted.next,fun hgranted => ?_⟩
    exact (hwithdrawn ((granted_push hshutdown).mp hgranted)).next

theorem harmless_programs : ∀ argv ∈ [readForwarding,status,pause,rounds,echo "shardvpn: verifying forwarding",
    echo "shardvpn: advertising as exit node",echo "shardvpn: verifying exit node advertisement",
    echo "shardvpn: FATAL ipv4 forwarding is not enabled",echo "shardvpn: FATAL could not advertise as exit node",
    echo "shardvpn: FATAL node is not advertising as an exit node"], Harmless argv := by
  simp only [Harmless,readForwarding,status,pause,rounds,grant,ready,shutdown,echo,words,bytes]
  repeat rw [text_ofList]
  decide +kernel

/-- A failure before the grant. -/
theorem failUngranted_triple {message : String} (hmessage : Harmless (echo message)) :
    Triple host Ungranted (.block (say message :: leaveTailnet)) true
      { done := fun _ _ => False, left := fun _ => False, ended := Ended } :=
  .seq ((ungranted_stage host).call hmessage)
    (leaveTailnet_triple.pre fun _ hs => ⟨hs.1.smooth,fun hgranted => absurd hgranted hs.2⟩)

theorem verifyForwarding_triple : Triple host Ungranted verifyForwarding true
    { done := fun _ => Verified, left := fun _ => False, ended := Ended } := by
  have hread : Harmless readForwarding := harmless_programs _ (by simp)
  refine .ifThen (R := Ungranted) (.differ fun s hs => ?_)
    ((failUngranted_triple (harmless_programs _ (by simp))).mono (fun _ h => h) (fun _ _ h => h.elim) (fun _ h => h) fun _ h => h)
  have hnext := (ungranted_stage host).push s readForwarding [] false hs hread fun hplain => by cases hplain
  refine ⟨_,_,_,_,rfl,rfl,?_⟩
  dsimp only
  by_cases hone : trim (s.answer host readForwarding []).2 = bytes "1"
  · rw [if_pos hone,if_neg (by decide)]
    exact ⟨hnext,seen_push.mpr (Or.inr ⟨rfl,hone⟩)⟩
  · rw [if_neg hone,if_pos rfl]
    exact hnext

theorem advertise_triple : Triple host Verified advertise true
    { done := fun _ => Advertising, left := fun _ => False, ended := Ended } := by
  have hgrant : grant ≠ ready ∧ grant ≠ shutdown := by decide
  refine .ifThen (R := Ungranted) (.not (.call (fun s hs _ => ?_) fun s hs hplain _ => by cases hplain))
    ((failUngranted_triple (harmless_programs _ (by simp))).mono (fun _ h => h) (fun _ _ h => h.elim) (fun _ h => h) fun _ h => h)
  have hnext : Underway (s.push host grant [] false) := hs.1.1.push hgrant fun hplain => by cases hplain
  dsimp only
  by_cases hzero : (s.answer host grant []).1 = 0
  · rw [if_neg (by rw [if_pos hzero]; decide)]
    exact ⟨hnext,hs.2.later,seen_push.mpr (Or.inr ⟨rfl,hzero⟩)⟩
  · rw [if_pos (if_neg hzero)]
    refine ⟨hnext,fun hgranted => ?_⟩
    rcases seen_push.mp hgranted with hgranted | ⟨-,hstatus⟩
    · exact hs.1.2 hgranted
    · exact hzero hstatus

/-- The variable says whether the node's own status has shown the advertisement. -/
def Waiting (m : Machine) (s : State) : Prop :=
  Advertising s ∧ ∃ v, s.vars advertised = some v ∧ (v = bytes "1" → Confirmed s.ran m.decode)

variable {m : Machine}

theorem waiting_stage (m : Machine) : Stage m.host (Waiting m) := by
  refine ⟨fun _ h => h.1.1,fun s argv stdin plain h hargv hok => ?_⟩
  obtain ⟨hadvertising,v,hv,hconfirmed⟩ := h
  exact ⟨(advertising_stage m.host).push s argv stdin plain hadvertising hargv hok,v,hv,
    fun hone => (hconfirmed hone).later⟩

theorem Advertising.set (h : Advertising s) (name value : Str) : Advertising (s.set name value) :=
  ⟨⟨h.1.smooth,h.1.early⟩,h.2⟩

theorem Waiting.set {name value : Str} (h : Waiting m s) (hname : name ≠ advertised) :
    Waiting m (s.set name value) := by
  obtain ⟨hadvertising,v,hv,hconfirmed⟩ := h
  refine ⟨hadvertising.set name value,v,?_,hconfirmed⟩
  rw [State.set_of_ne s value (Ne.symm hname)]
  exact hv

/-- The check succeeds only on a status that shows the node as an exit node. -/
theorem selfCheck_of_success (hargv : argv = check) (h : (s.answer m.host argv stdin).1 = 0) :
    selfCheck m.decode stdin = 0 := by
  unfold State.answer Machine.host at h
  dsimp only at h
  by_cases hran : (m.outcome s.ran argv stdin).1 = 0
  · rw [if_pos ⟨hargv,hran⟩] at h
    exact h
  · rw [if_neg fun hboth => hran hboth.2] at h
    exact absurd h hran

theorem verifySelf_triple : Triple m.host (Waiting m) verifySelf true
    { done := fun _ => Waiting m, left := Waiting m, ended := Ended } := by
  have hstatus : Harmless status := harmless_programs _ (by simp)
  have hcheck : Harmless check := by
    have hhead : ∀ argv, argv.head? ≠ some (bytes "python3") → check ≠ argv := by
      rintro argv hne rfl
      exact hne rfl
    exact ⟨hhead _ (by decide),hhead _ (by decide),hhead _ (by decide)⟩
  have hpause : Harmless pause := harmless_programs _ (by simp)
  have hstage := waiting_stage m
  have hboth : ∀ s, Waiting m s → Waiting m
      ((s.push m.host status [] false).push m.host check (s.answer m.host status []).2 false) := by
    intro s hs
    have hfirst := hstage.push s status [] false hs hstatus fun h => by cases h
    exact hstage.push _ check (s.answer m.host status []).2 false hfirst hcheck fun h => by cases h
  refine .seq (R := Waiting m) (.ifThen (R := fun s => Waiting m s ∧ Confirmed s.ran m.decode) (.pipe ?_ ?_) ?_)
    ((hstage.call hpause).mono (fun _ h => h) (fun _ _ h => h) (fun _ h => h.elim) fun _ h => h)
  · intro s hs hzero hchecked
    have hseen : Confirmed (s.push m.host status [] false).ran m.decode :=
      seen_push.mpr (Or.inr ⟨rfl,hzero,selfCheck_of_success rfl hchecked⟩)
    exact And.intro (hboth s hs) hseen.later
  · exact fun s hs n hn => (if_neg hn).mpr (hboth s hs)
  · refine .seq (R := Waiting m) (.assign fun s hs => ?_) (.leave fun s hs => hs)
    obtain ⟨⟨hadvertising,-⟩,hconfirmed⟩ := hs
    exact ⟨hadvertising.set _ _,bytes "1",State.set_self _ _ _,fun _ => hconfirmed⟩

theorem verifyAdvertisement_triple : Triple m.host (Waiting m) verifyAdvertisement true
    { done := fun _ => Waiting m, left := fun _ => False, ended := Ended } := by
  have hrounds : Harmless rounds := harmless_programs _ (by simp)
  refine Triple.forIn (I := Waiting m) ?_ (verifySelf_triple.pre ?_) fun _ _ h => h
  · exact fun s hs => (waiting_stage m).push s rounds [] false hs hrounds fun h => by cases h
  · rintro s ⟨t,word,ht,rfl⟩
    exact ht.set (by decide)

theorem failUnadvertised_triple : Triple m.host (Waiting m) failUnadvertised true
    { done := fun _ s => Advertising s ∧ Confirmed s.ran m.decode, left := fun _ => False, ended := Ended } := by
  have hstage := advertising_stage m.host
  have hwithdraw : withdraw ≠ grant := by decide
  have hstatus : Harmless status := harmless_programs _ (by simp)
  refine .ifThen (R := Advertising) (.differ ?_) (.seq (hstage.call (harmless_programs _ (by simp)))
    (.seq (hstage.call hstatus) (.seq (bestEffort_triple (R := fun s => Smooth s.ran ∧ (Granted s.ran → Attempted s.ran [withdraw])) ?_)
      (leaveTailnet_triple.mono (fun _ h => h) (fun _ _ h => h.elim) (fun _ h => h) fun _ h => h))))
  · rintro s ⟨hadvertising,v,hv,hconfirmed⟩
    refine ⟨v,bytes "1",s,s,congrArg (·,s) hv,rfl,?_⟩
    dsimp only
    by_cases hone : v = bytes "1"
    · rw [if_pos hone,if_neg (by decide)]
      exact ⟨hadvertising,hconfirmed hone⟩
    · rw [if_neg hone,if_pos rfl]
      exact hadvertising
  · intro s hs
    refine ⟨smooth_push.mpr ⟨hs.1.smooth,fun hplain => by cases hplain⟩,fun _ => ?_⟩
    have hnone : Attempted s.ran [] := List.nil_sublist _
    exact hnone.next

/-- The last line is reached by a node that is verified. -/
theorem ready_triple {decode : Str → Option Text} :
    Triple host (fun s => Advertising s ∧ Confirmed s.ran decode) (.call ready) true
      { done := fun _ s => Smooth s.ran ∧ Ready s.ran decode, left := fun _ => False
        ended := fun s => Smooth s.ran ∧ Ready s.ran decode } := by
  have hready : ∀ s, Advertising s ∧ Confirmed s.ran decode →
      Smooth (s.push host ready [] true).ran ∧ Ready (s.push host ready [] true).ran decode := by
    rintro s ⟨⟨hunderway,hforwards,hgranted⟩,hconfirmed⟩
    have hnone : Attempted s.ran [] := List.nil_sublist _
    exact ⟨smooth_push.mpr ⟨hunderway.smooth,fun _ h => absurd rfl h⟩,hnone.next,hforwards.later,hgranted.later,
      hconfirmed.later⟩
  exact .call (fun s hs _ => hready s hs) fun s hs _ _ => hready s hs

/-- The whole script: ready, closed, or stopped by a plain failure. -/
theorem afterJoin_triple : Triple m.host Ungranted afterJoin true
    { done := fun _ s => Smooth s.ran ∧ Ready s.ran m.decode, left := fun _ => False
      ended := fun s => Smooth s.ran ∧ Ready s.ran m.decode ∨ Ended s } := by
  have hlift : ∀ {P R : State → Prop} {c : Cmd},
      Triple m.host P c true { done := fun _ => R, left := fun _ => False, ended := Ended } →
      Triple m.host P c true
        { done := fun _ => R, left := fun _ => False
          ended := fun s => Smooth s.ran ∧ Ready s.ran m.decode ∨ Ended s } := fun h =>
    h.mono (fun _ h => h) (fun _ _ h => h) (fun _ h => h) fun _ h => Or.inr h
  refine .seq (hlift ((ungranted_stage m.host).call (harmless_programs _ (by simp))))
    (.seq (hlift verifyForwarding_triple)
    (.seq (hlift ((verified_stage m.host).call (harmless_programs _ (by simp)))) (.seq (hlift advertise_triple)
    (.seq (hlift ((advertising_stage m.host).call (harmless_programs _ (by simp)))) (.seq (.assign ?_)
    (.seq (hlift verifyAdvertisement_triple) (.seq (hlift failUnadvertised_triple) (ready_triple.mono
      (fun _ h => h) (fun _ _ h => h) (fun _ h => h) fun _ h => Or.inl h))))))))
  intro s hs
  exact ⟨hs.set _ _,bytes "0",State.set_self _ _ _,fun hone => absurd hone (by decide)⟩

/-! ## The claim of the script -/

/-- The shell when the script has ended. -/
def bootstrapped (m : Machine) (vars : Str → Option Str) : State := (exec m.host afterJoin true (joined vars)).2

theorem bootstrapped_cases (m : Machine) (vars : Str → Option Str) :
    (Smooth (bootstrapped m vars).ran ∧
        (Ready (bootstrapped m vars).ran m.decode ∨ Closed (bootstrapped m vars).ran)) ∨
      Stopped (bootstrapped m vars) := by
  have hstart : Ungranted (joined vars) := by
    refine ⟨⟨fun _ he => absurd he List.not_mem_nil,fun _ he => absurd he List.not_mem_nil⟩,?_⟩
    rintro ⟨_,he,-⟩
    exact absurd he List.not_mem_nil
  have h := (afterJoin_triple (m := m)).holds (joined vars) hstart
  unfold bootstrapped
  cases hr : exec m.host afterJoin true (joined vars) with
  | mk flow t =>
    rw [hr] at h
    cases flow with
    | done status => exact Or.inl ⟨h.1,Or.inl h.2⟩
    | left => exact h.elim
    | ended status =>
      rcases h with ⟨hsmooth,hready⟩ | ⟨hsmooth,hclosed⟩ | hstopped
      · exact Or.inl ⟨hsmooth,Or.inl hready⟩
      · exact Or.inl ⟨hsmooth,Or.inr hclosed⟩
      · exact Or.inr hstopped

/-- After the join the script ends ready or closed exactly when no program it runs plainly fails. -/
theorem bootstrap_fails_closed_iff (m : Machine) (vars : Str → Option Str) :
    Ready (bootstrapped m vars).ran m.decode ∨ Closed (bootstrapped m vars).ran ↔
      Smooth (bootstrapped m vars).ran := by
  constructor
  · intro h
    rcases bootstrapped_cases m vars with ⟨hsmooth,-⟩ | ⟨-,hearly⟩
    · exact hsmooth
    · have hreached : ∀ argv, Attempted (bootstrapped m vars).ran [argv] → argv ≠ ready ∧ argv ≠ shutdown := by
        intro argv hargv
        obtain ⟨e,he,rfl⟩ := List.mem_map.mp (List.singleton_sublist.mp hargv)
        exact hearly e he
      rcases h with hready | hclosed
      · exact absurd rfl (hreached ready hready.1).1
      · have hshutdown : Attempted (bootstrapped m vars).ran [shutdown] :=
          ((List.Sublist.refl [shutdown]).cons logout).trans hclosed.1
        exact absurd rfl (hreached shutdown hshutdown).2
  · intro hsmooth
    rcases bootstrapped_cases m vars with ⟨-,h⟩ | ⟨hrough,-⟩
    · exact h
    · exact absurd hsmooth hrough

end

/-! ## A daemon that dies -/

/-- The words between newlines. -/
def splitLines (output : Str) : List Str := (output.splitOn 10).filter (· ≠ [])

/-- Every program succeeds, but the daemon no longer answers `tailscale status`. -/
def deadDaemon : Machine where
  outcome _ argv _ :=
    if argv = status then (1,[])
    else if argv = readForwarding then (0,bytes "1\n")
    else if argv = rounds then (0,bytes "1\n2\n3\n4\n5\n6\n7\n8\n9\n10\n11\n12\n13\n14\n15\n")
    else (0,[])
  expand := splitLines
  decode := decodeUtf8

/-- The advertised node is neither withdrawn nor shut down: the diagnostic fails first. -/
theorem bootstrap_left_advertised :
    ¬(Ready (bootstrapped deadDaemon (fun _ => none)).ran deadDaemon.decode ∨
      Closed (bootstrapped deadDaemon (fun _ => none)).ran) := by
  have hfacts : ∀ e ∈ (bootstrapped deadDaemon (fun _ => none)).ran, e.argv ≠ ready ∧ e.argv ≠ logout := by
    decide +kernel
  rintro (⟨hready,-⟩ | ⟨hclosed,-⟩)
  · obtain ⟨e,he,hargv⟩ := List.mem_map.mp (List.singleton_sublist.mp hready)
    exact (hfacts e he).1 hargv
  · obtain ⟨e,he,hargv⟩ := List.mem_map.mp (hclosed.subset List.mem_cons_self)
    exact (hfacts e he).2 hargv

end ShardVPN.Bootstrap
