import ShardVPN.Request.Entry
import ShardVPN.Sweep.Phases

/-! # Every call an invocation can make

Besides calls that change neither instances nor parameters an invocation writes the
pointer, terminates one instance at a time, stamps the time of an alert, and launches
a node under a hostname of its own.
-/
namespace ShardVPN.System
open Effect Time Ec2ops Settings Handler Watchdog

inductive ProgramCall (rt : Runtime) : Call → Prop
  | quiet {c : Call} : c.quiet = true → ProgramCall rt c
  | writePointer (value : Option Pointer) : ProgramCall rt (pointerWrite rt value)
  | terminate (region instanceId : Text) : ProgramCall rt (.terminateInstances region [instanceId])
  | stamp {region : Text} {instanceIds : List Text} {t : Tag} : t.key = tagAlerted →
      ProgramCall rt (.createTags region instanceIds [t])
  | launch {region hostname launchedAt expiresAt : Text} {request : RunInstances} : hostname ≠ [] →
      request.tags = launchTags hostname launchedAt expiresAt → ProgramCall rt (.runInstances region request)

variable {rt : Runtime}

/-- Every call the action can make is one of the program's. -/
abbrev Programmed (rt : Runtime) {X α : Type} (m : Program X α) : Prop := Only (ProgramCall rt) m

theorem programmed_of_quiet {X α : Type} {m : Program X α} (h : Quiet m) : Programmed rt m :=
  h.mono fun _ => .quiet

/-! ## Requests -/

theorem launchNode_programmed (region expiresAt : Text) (now : DateTime) :
    Programmed rt (launchNode rt region now expiresAt) := by
  refine .bind (programmed_of_quiet tokenHex_frugal.quiet) fun suffix => ?_
  refine .bind (programmed_of_quiet (prepareLaunch_frugal region).quiet) fun prepared => ?_
  refine .bind (programmed_of_quiet (mintKey_quiet _)) fun authkey => ?_
  refine .bind (ofExcept_only _) fun userData => .bind (ofExcept_only _) fun launchedAt => ?_
  refine .bind (.call (.launch (by simp [text]) rfl)) fun instanceId => ?_
  exact .bind (.call (.writePointer _)) fun _ => .pure _

theorem upRegion_programmed (region expiresAt : Text) (now : DateTime) :
    Programmed rt (upRegion rt region now expiresAt) := by
  refine .bind (programmed_of_quiet (findNodes_frugal region).quiet) fun found => ?_
  cases found with
  | nil => exact launchNode_programmed _ _ _
  | cons first rest =>
    refine .bind (.call (.writePointer _)) fun _ => ?_
    exact .bind (programmed_of_quiet (describe_frugal _).quiet) fun _ => .pure _

theorem upUntracked_programmed (body : Dict) : Programmed rt (upUntracked rt body) := by
  refine .bind (.call (.quiet rfl)) fun regions => ?_
  refine .bind (programmed_of_quiet (requested_frugal _ _ _).quiet) fun region => ?_
  split
  · exact .pure _
  · refine .bind now_only fun now => .bind (.attempt (programmed_of_quiet (requestedExpiry_quiet _ _))) fun r => ?_
    split
    · split
      · exact .pure _
      · exact .throw _
    · exact upRegion_programmed _ _ _

theorem up_programmed (body : Dict) : Programmed rt (up rt body) := by
  refine .bind (programmed_of_quiet (readPointer_frugal _ _).quiet) fun pointer => ?_
  cases pointer with
  | none => exact upUntracked_programmed body
  | some pointer =>
    refine .bind (programmed_of_quiet (describe_frugal _).quiet) fun existing => ?_
    split
    · exact .pure _
    · exact upUntracked_programmed body

theorem terminateAll_programmed (region : Text) (nodes : List Instance) :
    Programmed rt (terminateAll region nodes) := by
  induction nodes with
  | nil => exact .pure _
  | cons i rest ih => exact .bind (.call (.terminate _ _)) fun _ => ih

theorem down_programmed : Programmed rt (down rt) := by
  refine .bind (programmed_of_quiet (readPointer_frugal _ _).quiet) fun pointer => ?_
  have hregion : ∀ region, Programmed rt (terminateRegion region) := fun region =>
    .bind (programmed_of_quiet (findNodes_frugal region).quiet) fun nodes => terminateAll_programmed _ _
  cases pointer with
  | none => exact .bind (defaultClient_only (.quiet rfl)) fun region => .bind (hregion _) fun _ => .pure _
  | some pointer =>
    refine .bind (ofExcept_only _) fun region => .bind (hregion _) fun _ => ?_
    exact .bind (.call (.writePointer _)) fun _ => .pure _

theorem perform_programmed (body : Dict) : Programmed rt (perform rt body) := by
  unfold perform
  split
  · exact up_programmed body
  split
  · exact down_programmed
  split
  · exact programmed_of_quiet status_quiet
  · exact .pure _

theorem handleHttp_programmed (requestId : Text) (event : Dict) :
    Programmed rt (handleHttp rt requestId event) := by
  have hsecret : Programmed rt (signingSecret rt) := (signingSecret_only rt).mono fun c hc => by
    rw [hc]
    exact .quiet rfl
  refine .bind (.attempt hsecret) fun r => ?_
  split
  · exact .pure _
  split
  · exact .pure _
  refine .bind (.attempt (authenticate_only _)) fun r => ?_
  split
  · exact .pure _
  · exact .throw _
  · split
    · exact .pure _
    · refine .total (.bind (.attempt (perform_programmed _)) fun r => ?_)
      split
      · exact .pure _
      · exact .pure _
      · exact .pure _

/-! ## Sweeps -/

theorem programs_of_inspects {c : Call} (hc : inspects c = true) : ProgramCall rt c := by
  unfold inspects at hc
  split at hc
  · exact .quiet rfl
  · exact .quiet rfl
  · exact .stamp (of_decide_eq_true hc)
  · cases hc

theorem sweep_programmed (now : DateTime) : Programmed rt (sweep rt now) :=
  sweep_only (fun _ hc => .quiet (Call.quiet_of_reads hc)) (fun _ => programs_of_inspects) .terminate .writePointer now

/-- An invocation makes no other calls. -/
theorem lambdaHandler_programmed (requestId : Text) (event : Dict) :
    Programmed rt (lambdaHandler rt requestId event) := by
  unfold lambdaHandler
  split
  · exact .bind now_only fun _ => .bind (.total (sweep_programmed _)) fun _ => .pure _
  · exact .bind (handleHttp_programmed _ _) fun _ => .pure _

end ShardVPN.System
