import ShardVPN.Program.Ec2ops
import ShardVPN.Program.Settings
import ShardVPN.Program.Ttl

/-! # The hourly sweep

Scan every region, reap what has expired, terminate duplicates, look after the sole
remaining candidate, reconcile the pointer, and report the failures. The sweep
cannot raise: its type admits no exception.
-/
namespace ShardVPN.Watchdog
open Effect Time Ec2ops Settings

def idleWindowHours : ℕ := 24
def alertInterval : ℤ := 24 * 3600 * microsPerSecond

/-- Whether a launch stamp is well formed and younger than the alert interval. -/
def isYoung (launchedAt : Option Text) (now : DateTime) : Bool :=
  match launchedAt.bind parseRfc3339 with
  | some launch => now.instant - launch.instant < alertInterval
  | none => false

/-- Whether the last alert is long enough ago; a malformed stamp never silences it. -/
def isAlertDue (lastAlert : Option Text) (now : DateTime) : Bool :=
  match lastAlert.bind parseRfc3339 with
  | some alert => alertInterval ≤ now.instant - alert.instant
  | none => true

def shouldAlert (idleBytes threshold : ℤ) (lastAlert : Option Text) (now : DateTime)
    (launchedAt : Option Text) : Bool :=
  if threshold ≤ idleBytes then false
  else if isYoung launchedAt now then false
  else isAlertDue lastAlert now

def idleBucketFloorBytes : Rat := 1000000

/-- Seconds since the last datapoint above the floor, or since the first one. -/
def idleSeconds (points : List Datapoint) (now : DateTime) (floor : Rat) : Option ℤ :=
  let since (p : Datapoint) : ℤ :=
    max (wholeSeconds (now.instant - p.timestamp.instant)) 0
  match points with
  | [] => none
  | first :: _ => match points.reverse.find? (fun p => decide (floor < p.sum)) with
    | some p => some (since p)
    | none => some (since first)

/-- Survivors with their launch times, unless one has none that can be read. -/
def parseLaunches : List Node → Option (List (DateTime × Node))
  | [] => some []
  | n :: rest => do
    let raw ← tagValue n.2 tagLaunched
    let launch ← parseRfc3339 raw
    let rest ← parseLaunches rest
    some ((launch,n) :: rest)

def newerFirst (a b : DateTime × Node) : Prop := b.1.instant ≤ a.1.instant

instance : DecidableRel newerFirst := fun a b => inferInstanceAs (Decidable (b.1.instant ≤ a.1.instant))

/-- Survivors, newest first, or unchanged with the answer that they have no order. -/
def orderSurvivors (survivors : List Node) : List Node × Bool :=
  if survivors.length ≤ 1 then (survivors,true)
  else match parseLaunches survivors with
    | none => (survivors,false)
    | some parsed => ((parsed.insertionSort newerFirst).map (·.2),true)

structure Summary where
  regionsScanned : ℕ
  nodes : List Text
  reaped : List Text
  alerted : List Text
  orphans : List Text
  duplicates : List Text
  failures : List Text
deriving DecidableEq

def Summary.initial : Summary := ⟨0,[],[],[],[],[],[]⟩

def Summary.fail (summary : Summary) (failure : Text) : Summary :=
  { summary with failures := summary.failures ++ [failure] }

/-- Why a node is terminated. -/
inductive Reason
  | expired
  | duplicate
deriving DecidableEq

def Reason.name : Reason → Text
  | .expired => text "expired"
  | .duplicate => text "duplicate"

def Summary.record (summary : Summary) (instanceId : Text) : Reason → Summary
  | .expired => { summary with reaped := summary.reaped ++ [instanceId] }
  | .duplicate => { summary with duplicates := summary.duplicates ++ [instanceId] }

section
variable (rt : Runtime)

/-- Best-effort publish. -/
def publish (message : Text) : Program Empty Unit :=
  if rt.topicArn = [] then pure ()
  else do
    let _ ← (Program.call (.publish rt.controlRegion rt.topicArn (text "shardvpn") message)).attempt
    pure ()

def notifyFailures (summary : Summary) : Program Empty Unit :=
  if summary.failures = [] then pure ()
  else publish rt (text "shardvpn: sweep completed with failures: " ++
    (summary.failures.intersperse (text "; ")).flatten)

def terminateFailure (region instanceId : Text) (reason : Reason) (e : Exn) : Text :=
  text "terminate " ++ instanceId ++ text " in " ++ region ++ text " (" ++ reason.name ++ text "): " ++ rt.str e

/-- Terminate one instance; record a failure and go on. -/
def safeTerminate (region instanceId : Text) (reason : Reason) (summary : Summary) :
    Program Empty (Bool × Summary) := do
  match ← (terminate region instanceId).attempt with
  | .ok () => pure (true,summary)
  | .error e => pure (false,summary.fail (terminateFailure rt region instanceId reason e))

def readThreshold (summary : Summary) : Program Empty (Option ℤ × Summary) := do
  let failed (e : Exn) := (none,summary.fail (text "idle-threshold-bytes: " ++ rt.str e))
  match ← (getParameter rt.controlRegion .idleThresholdBytes false).attempt with
  | .error e => pure (failed e)
  | .ok raw => match int raw with
    | some threshold => pure (some threshold,summary)
    | none => pure (failed (.intError raw))

/-! ## Scanning -/

structure Scan where
  region : Text
  nodes : List Instance
  error : Option Exn

def scan (region : Text) : Program Empty Scan := do
  match ← (findNodes region).attempt with
  | .ok nodes => pure ⟨region,nodes,none⟩
  | .error e => pure ⟨region,[],some e⟩

def scanAll : List Text → Program Empty (List Scan)
  | [] => pure []
  | region :: rest => do
    let first ← scan region
    let others ← scanAll rest
    pure (first :: others)

def foundNodes (scanned : List Scan) : List Node :=
  scanned.flatMap (fun s => s.nodes.map (fun i => (s.region,i)))

def scanFailure (region : Text) (e : Exn) : Text :=
  text "region scan failed: " ++ region ++ text " (" ++ e.typeName ++ text ")"

def scanFailures (scanned : List Scan) : List Text :=
  scanned.filterMap (fun s => s.error.map (scanFailure s.region))

def scanFailedRegions (scanned : List Scan) : List Text :=
  (scanned.filter (fun s => s.error.isSome)).map Scan.region

def recordScan (regions : List Text) (scanned : List Scan) (summary : Summary) : Summary :=
  { summary with
    regionsScanned := regions.length
    nodes := (foundNodes scanned).map (·.2.instanceId)
    failures := summary.failures ++ scanFailures scanned }

/-! ## Step 1: reap -/

/-- `tag_value(instance, TAG_EXPIRES) or "never"`. -/
def expiry (i : Instance) : Text :=
  match tagValue i tagExpires with
  | some t => if t = [] then Ttl.never else t
  | none => Ttl.never

def expired (now : DateTime) (n : Node) : Bool := Ttl.isExpired (expiry n.2) now

def terminatedMessage (n : Node) : Reason → Text
  | .expired => text "shardvpn: reaped " ++ n.2.instanceId ++ text " in " ++ n.1 ++ text " (expired " ++
      expiry n.2 ++ text ")"
  | .duplicate => text "shardvpn: terminated duplicate " ++ n.2.instanceId ++ text " in " ++ n.1

/-- The body of the loops of steps 1 and 2, which differ in what they record and say. -/
def terminateNode (reason : Reason) (n : Node) (summary : Summary) : Program Empty Summary := do
  let (terminated,summary) ← safeTerminate rt n.1 n.2.instanceId reason summary
  if terminated then do
    publish rt (terminatedMessage n reason)
    pure (summary.record n.2.instanceId reason)
  else pure summary

/-- Terminate the expired nodes and return the survivors. -/
def reap (now : DateTime) : List Node → Summary → Program Empty (List Node × Summary)
  | [],summary => pure ([],summary)
  | n :: rest,summary =>
    if expired now n then do
      let summary ← terminateNode rt .expired n summary
      reap now rest summary
    else do
      let (survivors,summary) ← reap now rest summary
      pure (n :: survivors,summary)

/-! ## Step 2: duplicates -/

def terminateDuplicates : List Node → Summary → Program Empty Summary
  | [],summary => pure summary
  | n :: rest,summary => do
    let summary ← terminateNode rt .duplicate n summary
    terminateDuplicates rest summary

/-- The unresolved duplicates, spelled out. -/
def duplicateDetail (survivors : List Node) : Text :=
  ((survivors.map (fun n => n.2.instanceId ++ text " in " ++ n.1)).intersperse (text ", ")).flatten

def unorderedFailure (survivors : List Node) : Text :=
  text "unresolved duplicates (unordered launch tags): " ++ duplicateDetail survivors

def unorderedMessage (survivors : List Node) : Text :=
  text "shardvpn: found multiple exit nodes whose launch time could not be determined (" ++
    duplicateDetail survivors ++ text "). Terminating the wrong one could drop a live VPN session, so " ++
    text "none were touched — please resolve this manually."

/-- Keep the newest survivor, `ordered[:1]`, or none when they have no order. -/
def deduplicate (survivors : List Node) (summary : Summary) : Program Empty (Option Node × Summary) :=
  match orderSurvivors survivors with
  | (_,false) => do
    publish rt (unorderedMessage survivors)
    pure (none,summary.fail (unorderedFailure survivors))
  | (ordered,true) => do
    let summary ← terminateDuplicates rt ordered.tail summary
    pure (ordered.head?,summary)

/-! ## Step 3: the candidate -/

/-- `pointer is None or pointer.instance_id != instance_id`. -/
def untracked (pointer : Option Pointer) (instanceId : Text) : Bool :=
  match pointer with
  | none => true
  | some p => decide (p.instanceId ≠ .str instanceId)

def orphanMessage (readable : Bool) (n : Node) : Text :=
  if readable then
    text "shardvpn: found untracked node " ++ n.2.instanceId ++ text " in " ++ n.1 ++
      text ". If you did not launch this, rotate the signing secret."
  else
    text "shardvpn: node " ++ n.2.instanceId ++ text " in " ++ n.1 ++
      text " could not be checked against the pointer (SSM read failed). Not necessarily a problem."

def orphanCheck (readable : Bool) (pointer : Option Pointer) (n : Node) (summary : Summary) :
    Program Empty Summary :=
  if untracked pointer n.2.instanceId then do
    publish rt (orphanMessage readable n)
    pure { summary with orphans := summary.orphans ++ [n.2.instanceId] }
  else pure summary

/-- `int(sum(value for _, value in points))`. -/
def idleBytes (points : List Datapoint) : ℤ := Binary64.trunc (Binary64.sum (points.map Datapoint.sum))

/-- `launched_at or "unknown"`. -/
def launchedText (launchedAt : Option Text) : Text := (launchedAt.filter (· ≠ [])).getD (text "unknown")

def idleMessage (n : Node) (bytes : ℤ) : Text :=
  text "shardvpn: node " ++ n.2.instanceId ++ text " in " ++ n.1 ++ text " has been idle for " ++
    decimal idleWindowHours ++ text "h (launched " ++ launchedText (tagValue n.2 tagLaunched) ++
    text ", " ++ decimalInt bytes ++
    text " bytes out). Send \x7b\"action\":\"down\"\x7d if you are finished with it."

def idleCheck (now : DateTime) (threshold : ℤ) (n : Node) (summary : Summary) : Program Exn Summary := do
  let points ← networkOut n.1 n.2.instanceId idleWindowHours now
  if shouldAlert (idleBytes points) threshold (tagValue n.2 tagAlerted) now (tagValue n.2 tagLaunched) then do
    (publish rt (idleMessage n (idleBytes points))).total
    let stamp ← Program.ofExcept (Ttl.rfc3339 now)
    stampTag n.1 n.2.instanceId tagAlerted stamp
    pure { summary with alerted := summary.alerted ++ [n.2.instanceId] }
  else pure summary

def idleFailure (n : Node) (e : Exn) : Text :=
  text "idle check " ++ n.2.instanceId ++ text " in " ++ n.1 ++ text ": " ++ rt.str e

/-- The idle check of a running node, isolated from the rest of the sweep. -/
def idleStep (now : DateTime) (threshold : Option ℤ) (n : Node) (summary : Summary) : Program Empty Summary :=
  match threshold with
  | none => pure summary
  | some threshold =>
    if n.2.state ≠ .running then pure summary
    else do
      match ← (idleCheck rt now threshold n summary).attempt with
      | .ok summary => pure summary
      | .error e => pure (summary.fail (idleFailure rt n e))

def checkCandidate (now : DateTime) (threshold : Option ℤ) (readable : Bool) (pointer : Option Pointer)
    (candidate : Option Node) (summary : Summary) : Program Empty Summary :=
  match candidate with
  | none => pure summary
  | some n => do
    let summary ← orphanCheck rt readable pointer n summary
    idleStep rt now threshold n summary

/-! ## Step 4: the pointer -/

/-- What step 4 writes, if anything. -/
def reconciled (pointer : Option Pointer) (candidate : Option Node) (failedRegions : List Text) :
    Option (Option Pointer) :=
  match candidate with
  | some n =>
    if untracked pointer n.2.instanceId then some (some ⟨.str n.1,.str n.2.instanceId⟩) else none
  | none => match pointer with
    | none => none
    | some _ => if failedRegions = [] then some none else none

def reconcile (pointer : Option Pointer) (candidate : Option Node) (failedRegions : List Text)
    (summary : Summary) : Program Empty Summary :=
  match reconciled pointer candidate failedRegions with
  | none => pure summary
  | some value => do
    match ← (writePointer rt.controlRegion .currentNode value).attempt with
    | .ok () => pure summary
    | .error e => pure (summary.fail (text "pointer reconciliation: " ++ rt.str e))

/-- Step 4 is left out when the pointer could not be read or duplicates are unresolved. -/
def reconcileStep (readable orderable : Bool) (pointer : Option Pointer) (candidate : Option Node)
    (failedRegions : List Text) (summary : Summary) : Program Empty Summary :=
  if readable && orderable then reconcile rt pointer candidate failedRegions summary else pure summary

/-! ## The sweep -/

/-- Everything after the regions are known. -/
def sweepRegions (now : DateTime) (threshold : Option ℤ) (pointer : Except Exn (Option Pointer))
    (regions : List Text) (summary : Summary) : Program Empty Summary := do
  let readable := pointer.toBool
  let pointer := pointer.toOption.join
  let scanned ← scanAll regions
  let (survivors,summary) ← reap rt now (foundNodes scanned) (recordScan regions scanned summary)
  let (candidate,summary) ← deduplicate rt survivors summary
  let summary ← checkCandidate rt now threshold readable pointer candidate summary
  let summary ← reconcileStep rt readable (orderSurvivors survivors).2 pointer candidate
    (scanFailedRegions scanned) summary
  notifyFailures rt summary
  pure summary

def sweep (now : DateTime) : Program Empty Summary := do
  let (threshold,summary) ← readThreshold rt Summary.initial
  let pointer ← (readPointer rt.controlRegion .currentNode).attempt
  match ← (validRegions rt.controlRegion).attempt with
  | .error e => do
    let summary := summary.fail (text "valid_regions: " ++ rt.str e)
    notifyFailures rt summary
    pure summary
  | .ok regions => sweepRegions rt now threshold pointer regions summary

end

end ShardVPN.Watchdog
