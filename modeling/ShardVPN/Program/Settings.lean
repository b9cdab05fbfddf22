import ShardVPN.Program.Runtime

/-! # Parameters, the secret cache and the pointer to the current node

The pointer is stored as a JSON object. Reading it fails closed: only a missing
parameter, the empty text and `none` mean that there is no node.
-/
namespace ShardVPN.Settings
open Effect

inductive ParamName
  | signingSecret
  | tsClientId
  | tsClientSecret
  | defaultRegion
  | defaultTtl
  | instanceType
  | idleThresholdBytes
  | currentNode
deriving DecidableEq

def ParamName.path : ParamName → Text
  | .signingSecret => text "/shardvpn/signing-secret"
  | .tsClientId => text "/shardvpn/tailscale-client-id"
  | .tsClientSecret => text "/shardvpn/tailscale-client-secret"
  | .defaultRegion => text "/shardvpn/default-region"
  | .defaultTtl => text "/shardvpn/default-ttl"
  | .instanceType => text "/shardvpn/instance-type"
  | .idleThresholdBytes => text "/shardvpn/idle-threshold-bytes"
  | .currentNode => text "/shardvpn/current-node"

def empty : Text := text "none"
def secretTtlSeconds : ℕ := 300
def placeholderSigningSecret : Text := text "PLACEHOLDER-set-with-aws-ssm-put-parameter"

/-- The tracked node. The stored object may hold any value under either key. -/
structure Pointer where
  region : Json
  instanceId : Json
deriving DecidableEq

def getParameter (region : Text) (name : ParamName) (decrypt : Bool) : Program Exn Text :=
  Program.call (.getParameter region name.path decrypt)

/-- Read a secret, memoised for `secretTtlSeconds`; `now` is in microseconds. -/
def cachedSecret (region : Text) (name : ParamName) (now : ℤ) : Program Exn Text := do
  let p ← Action.getProc
  match (p.secretCache name.path).filter (fun c => now - c.1 < secretTtlSeconds * Time.microsPerSecond) with
  | some cached => pure cached.2
  | none =>
    let value ← getParameter region name true
    let p ← Action.getProc
    Action.setProc { p with
      secretCache := fun n => if n = name.path then some (now,value) else p.secretCache n }
    pure value

/-- `data[key]` on a decoded value. -/
def item (data : Json) (key : Text) : Except Exn Json :=
  match data with
  | .obj fields => match Dict.get fields key with
    | some v => .ok v
    | none => .error (.keyError key)
  | _ => .error .typeError

/-- The pointer a stored text stands for. -/
def decodePointer (raw : Text) : Except Exn (Option Pointer) :=
  if raw = [] ∨ raw = empty then .ok none
  else
    let malformed := Exn.pointerUnavailable (text "malformed pointer")
    match loads raw with
    | .error .decode => .error malformed
    | .error e => .error (.jsonError e)
    | .ok data => match item data (text "region"),item data (text "instance_id") with
      | .ok region,.ok instanceId => .ok (some ⟨region,instanceId⟩)
      | _,_ => .error malformed

def readPointer (region : Text) (name : ParamName) : Program Exn (Option Pointer) := do
  match ← (getParameter region name false).attempt with
  | .error (.service (.client code _)) =>
    if code = parameterNotFound then pure none else Action.throw (.pointerUnavailable code)
  | .error e => Action.throw e
  | .ok raw => Program.ofExcept (decodePointer raw)

def encodePointer : Option Pointer → Text
  | none => empty
  | some p => dumps (.obj [(text "region",p.region),(text "instance_id",p.instanceId)])

def writePointer (region : Text) (name : ParamName) (pointer : Option Pointer) : Program Exn Unit :=
  Program.call (.putParameter region name.path (encodePointer pointer) (text "String") true)

end ShardVPN.Settings
