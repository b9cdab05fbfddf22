import ShardVPN.Program.Auth
import ShardVPN.Program.Statusdoc
import ShardVPN.Program.Tailscale
import ShardVPN.Program.Watchdog

/-! # The Lambda entry point

Events are routed by shape, HTTP requests pass the authentication gate, and each
action runs to one response. Code that the source keeps in one function is split
where a later part reads the state anew.
-/
namespace ShardVPN.Handler
open Effect Time Ec2ops Settings

def keyExpirySeconds : ℕ := 600
def freshNodeSeconds : ℕ := 900

/-- Status and payload; every response has the same headers. -/
structure Response where
  statusCode : ℕ
  payload : Json
deriving DecidableEq

/-- The body of a response is the encoding of its payload. -/
def Response.body (r : Response) : Text := dumps r.payload

def forbidden : Response := ⟨403,.obj []⟩

def respond (code : ℕ) (payload : Dict) : Response := ⟨code,.obj payload⟩

def failure (code : ℕ) (message : Text) : Response := respond code [(text "error",.str message)]

/-- What an invocation returns. -/
inductive Reply
  | swept (summary : Watchdog.Summary)
  | http (response : Response)
deriving DecidableEq

/-- The region of a client built for a stored name: null falls back to the environment. A region that EC2
lists has a client, and needs no such check. -/
def clientRegion (rt : Runtime) : Json → Except Exn Text
  | .str region => match rt.clientError region with
    | none => .ok region
    | some e => .error (.service e)
  | .null => .ok rt.awsRegion
  | _ => .error .typeError

theorem clientRegion_str {rt : Runtime} {name region : Text} (h : clientRegion rt (.str name) = .ok region) :
    name = region := by
  unfold clientRegion at h
  dsimp only at h
  split at h
  · exact Except.ok.inj h
  · cases h

/-- `body.get(key) or get_parameter(…)`. -/
def requested (rt : Runtime) (body : Dict) (key : Text) (default : ParamName) : Program Exn Json :=
  match (body.get key).filter Json.truthy with
  | some value => pure value
  | none => do
    let value ← getParameter rt.controlRegion default false
    pure (.str value)

/-- `render_userdata`: the script is determined by the two values. -/
def renderUserdata (authkey : Json) (hostname : Text) : Except Exn UserData :=
  if authkey.truthy = false then .error (.valueError (text "authkey is required"))
  else if hostname = [] then .error (.valueError (text "hostname is required"))
  else .ok ⟨authkey,hostname⟩

section
variable (rt : Runtime)

def tailscaleToken : Program Exn Json := do
  let t ← Program.now
  let clientId ← cachedSecret rt.controlRegion .tsClientId t.time
  let t ← Program.now
  let clientSecret ← cachedSecret rt.controlRegion .tsClientSecret t.time
  Tailscale.getToken clientId clientSecret

/-! ## Describing a node -/

/-- The node the pointer names; the first one when there is no id or no match. -/
def selectInstance (first : Instance) (rest : List Instance) (instanceId : Json) : Instance :=
  if instanceId.truthy then
    ((first :: rest).find? (fun i => decide (Json.str i.instanceId = instanceId))).getD first
  else first

def lookupDevice (hostname : Option Text) : Program Exn (Option Json) := do
  let token ← tailscaleToken rt
  Tailscale.findDevice token rt.tsTag hostname

/-- The tailnet part of the document; only the client's own error is caught. -/
def tailnetOnline (i : Instance) : Program Exn (Option Bool) := do
  match ← (lookupDevice rt (tagValue i tagHostname)).attempt with
  | .ok device => pure (some device.isSome)
  | .error (.tailscaleError _) => pure none
  | .error e => Action.throw e

def isFresh (i : Instance) (now : DateTime) : Bool :=
  match (tagValue i tagLaunched).filter (· ≠ []) with
  | some launched => match parseRfc3339 launched with
    | some t => totalSeconds (now.instant - t.instant) < freshNodeSeconds
    | none => false
  | none => false

/-- The metric part of the document; every failure is caught. -/
def idleFor (region : Text) (i : Instance) (now : DateTime) : Program Exn (Option ℤ) :=
  if i.state = .running ∧ isFresh i now = false then do
    match ← (networkOut region i.instanceId 24 now).attempt with
    | .ok points => pure (Watchdog.idleSeconds points now Watchdog.idleBucketFloorBytes)
    | .error _ => pure none
  else pure none

/-- The document of one live node. -/
def document (pointer : Pointer) (region : Text) (i : Instance) : Program Exn Dict := do
  let now ← Program.now
  let online ← tailnetOnline rt i
  let idle ← idleFor region i now.toDateTime
  pure (Statusdoc.build (some i) pointer.region online idle now.toDateTime)

def describe (pointer : Option Pointer) : Program Exn Dict :=
  match pointer with
  | none => pure Statusdoc.absent
  | some pointer => do
    let region ← Program.ofExcept (clientRegion rt pointer.region)
    let nodes ← findNodes region
    match nodes with
    | [] => pure Statusdoc.absent
    | first :: rest => document rt pointer region (selectInstance first rest pointer.instanceId)

def status : Program Exn Response := do
  let pointer ← readPointer rt.controlRegion .currentNode
  let document ← describe rt pointer
  pure (respond 200 document)

/-! ## Down -/

def terminateAll (region : Text) : List Instance → Program Exn Unit
  | [] => pure ()
  | i :: rest => do
    terminate region i.instanceId
    terminateAll region rest

def terminateRegion (region : Text) : Program Exn Unit := do
  let nodes ← findNodes region
  terminateAll region nodes

/-- The region of a client built for the stored default. -/
def defaultClient : Program Exn Text := do
  let region ← getParameter rt.controlRegion .defaultRegion false
  Program.ofExcept (clientRegion rt (.str region))

def down : Program Exn Response := do
  let pointer ← readPointer rt.controlRegion .currentNode
  match pointer with
  | none => do
    let region ← defaultClient rt
    terminateRegion region
    pure (respond 200 Statusdoc.absent)
  | some pointer => do
    let region ← Program.ofExcept (clientRegion rt pointer.region)
    terminateRegion region
    writePointer rt.controlRegion .currentNode none
    pure (respond 200 Statusdoc.absent)

/-! ## Up -/

def launchTags (hostname launchedAt expiresAt : Text) : List Tag :=
  [⟨text "Name",hostname⟩,⟨tagRole,roleValue⟩,⟨tagLaunched,launchedAt⟩,⟨tagExpires,expiresAt⟩,
    ⟨tagHostname,hostname⟩]

/-- The document of a node that was just launched. -/
def launchDocument (region instanceId hostname expiresAt : Text) : Dict :=
  [(text "state",Json.str (text "pending")),(text "region",.str region),(text "instance_id",.str instanceId),
    (text "hostname",.str hostname),
    (text "expires_at",if expiresAt = Ttl.never then .null else .str expiresAt),
    (text "age",.str (text "0m"))].foldl (fun d p => Dict.set d p.1 p.2) Statusdoc.absent

/-- The fallible calls before a key is minted: image, instance type, security group. -/
def prepareLaunch (region : Text) : Program Exn (Text × Text × Text) := do
  let ami ← resolveAmi region
  let instanceType ← getParameter rt.controlRegion .instanceType false
  let sgId ← ensureSecurityGroup region
  pure (ami,instanceType,sgId)

def mintKey (hostname : Text) : Program Exn Json := do
  let token ← tailscaleToken rt
  Tailscale.mintAuthKey token rt.tsTag keyExpirySeconds (text "shardvpn " ++ hostname)

/-- Launch a node in a region without one, and point to it. -/
def launchNode (region : Text) (now : DateTime) (expiresAt : Text) : Program Exn Response := do
  let suffix ← Program.tokenHex
  let hostname := text "shardvpn-" ++ region ++ text "-" ++ suffix
  let (ami,instanceType,sgId) ← prepareLaunch rt region
  let authkey ← mintKey rt hostname
  let userData ← Program.ofExcept (renderUserdata authkey hostname)
  let launchedAt ← Program.ofExcept (Ttl.rfc3339 now)
  let instanceId ← launch region ami instanceType sgId userData (launchTags hostname launchedAt expiresAt)
    (text "shardvpn-" ++ hostname)
  writePointer rt.controlRegion .currentNode (some ⟨.str region,.str instanceId⟩)
  pure (respond 200 (launchDocument region instanceId hostname expiresAt))

/-- A node found in the target region: repair the pointer and describe it. -/
def recoverNode (region : Text) (found : Instance) : Program Exn Response := do
  let pointer : Option Pointer := some ⟨.str region,.str found.instanceId⟩
  writePointer rt.controlRegion .currentNode pointer
  let document ← describe rt pointer
  pure (respond 200 document)

/-- The request once its region and expiry are settled. -/
def upRegion (region : Text) (now : DateTime) (expiresAt : Text) : Program Exn Response := do
  let found ← findNodes region
  match found with
  | first :: _ => recoverNode rt region first
  | [] => launchNode rt region now expiresAt

def unknownRegion (regions : List Text) : Response :=
  respond 400 [(text "error",.str (text "unknown region")),(text "valid",.arr (regions.map Json.str))]

/-- `region in regions`. -/
def regionOf (region : Json) (regions : List Text) : Option Text :=
  match region with
  | .str r => if r ∈ regions then some r else none
  | _ => none

def requestedExpiry (body : Dict) (now : DateTime) : Program Exn Text := do
  let ttl ← requested rt body (text "ttl") .defaultTtl
  Program.ofExcept (Ttl.parseTtl ttl now)

/-- The request when no tracked node answers it. -/
def upUntracked (body : Dict) : Program Exn Response := do
  let regions ← validRegions rt.controlRegion
  let region ← requested rt body (text "region") .defaultRegion
  match regionOf region regions with
  | none => pure (unknownRegion regions)
  | some region => do
    let now ← Program.now
    match ← (requestedExpiry rt body now.toDateTime).attempt with
    | .error e => if e.isValueError then pure (failure 400 (text "malformed ttl")) else Action.throw e
    | .ok expiresAt => upRegion rt region now.toDateTime expiresAt

def up (body : Dict) : Program Exn Response := do
  let pointer ← readPointer rt.controlRegion .currentNode
  match pointer with
  | none => upUntracked rt body
  | some pointer => do
    let existing ← describe rt (some pointer)
    if existing.get (text "state") ≠ some (.str (text "absent")) then pure (respond 200 existing)
    else upUntracked rt body

/-! ## Routing -/

def perform (body : Dict) : Program Exn Response :=
  if body.get (text "action") = some (.str (text "up")) then up rt body
  else if body.get (text "action") = some (.str (text "down")) then down rt
  else if body.get (text "action") = some (.str (text "status")) then status rt
  else pure (failure 400 (text "unknown action"))

/-- The action of an authenticated request, with every exception answered. -/
def dispatch (requestId : Text) (body : Dict) : Program Empty Response := do
  match ← (perform rt body).attempt with
  | .ok response => pure response
  | .error (.pointerUnavailable _) => pure (failure 503 (text "cannot determine current state"))
  | .error _ => pure (respond 500 [(text "error",.str (text "internal")),(text "request_id",.str requestId)])

/-- The check of the signature, body first. -/
def authenticate (event : Dict) (secret : Text) : Program Exn Unit := do
  let body ← Program.ofExcept (Auth.extractBody event)
  let t ← Program.now
  Program.ofExcept (Auth.verify rt (event.getOr (text "headers") (.obj [])) body secret
    (t.time / microsPerSecond) Auth.maxSkewSeconds)

/-- `json.loads(extract_body(event) or b"{}")`, when it is an object. -/
def requestBody (event : Dict) : Option Dict :=
  match Auth.extractBody event with
  | .error _ => none
  | .ok raw => match loadsBytes (if raw = [] then [123,125] else raw) with
    | .ok (.obj body) => some body
    | _ => none

/-- An HTTP request whose signing secret is known. -/
def handleRequest (requestId : Text) (event : Dict) (secret : Text) : Program Exn Response := do
  match ← (authenticate rt event secret).attempt with
  | .error .authError => pure forbidden
  | .error e => Action.throw e
  | .ok () => match requestBody event with
    | none => pure (failure 400 (text "malformed json"))
    | some body => (dispatch rt requestId body).total

/-- The read of the signing secret, at the time of the clock. -/
def signingSecret : Program Exn Text := do
  let t ← Program.now
  cachedSecret rt.controlRegion .signingSecret t.time

def handleHttp (requestId : Text) (event : Dict) : Program Exn Response := do
  match ← (signingSecret rt).attempt with
  | .error _ => pure (failure 503 (text "cannot verify request"))
  | .ok secret =>
    if secret = placeholderSigningSecret then pure (failure 503 (text "signing secret not configured"))
    else handleRequest rt requestId event secret

def lambdaHandler (requestId : Text) (event : Dict) : Program Exn Reply :=
  match event.get (text "requestContext") with
  | none => do
    let now ← Program.now
    let summary ← (Watchdog.sweep rt now.toDateTime).total
    pure (.swept summary)
  | some _ => do
    let response ← handleHttp rt requestId event
    pure (.http response)

end

end ShardVPN.Handler
