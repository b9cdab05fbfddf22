import ShardVPN.Auth.Verify
import ShardVPN.Program.Handler

/-! # A plain account

An environment that lists in order and gives every HTTP request one answer, the
parameters as the infrastructure seeds them, and a runtime that agrees with the
real library functions on the texts used with it. General results are
instantiated here.
-/
namespace ShardVPN.Plain
open Effect Settings

/-! ## The environment -/

/-- An id longer than every id in use. -/
def longerId (w : World) : Text := List.replicate ((w.instanceIds.map List.length).foldr max 0 + 1) 105

theorem length_le_foldr_max {ts : List Text} {t : Text} (h : t ∈ ts) :
    t.length ≤ (ts.map List.length).foldr max 0 := by
  induction ts with
  | nil => cases h
  | cons u ts ih =>
    rw [List.map_cons,List.foldr_cons]
    rcases List.mem_cons.mp h with rfl | h
    · omega
    · have := ih h
      omega

/-- One answer that serves as token, key and device list. -/
def apiAnswer : Bytes := Auth.asciiBytes
  (text "\x7b\"access_token\": \"tskey-token\", \"key\": \"tskey-auth\", \"devices\": []\x7d")

def env (fault : Call → ℕ → Fault ServiceError) (honest : ∀ c n, Honest (fault c n)) : Env where
  fault := fault
  fault_honest := honest
  regionOrder _ rs := rs
  reservations _ _ is := is.map ([·])
  instanceId := longerId
  groupId _ := text "sg-0"
  http _ _ := .ok apiAnswer
  regionOrder_perm _ _ := List.Perm.refl _
  reservations_perm _ _ is := by
    rw [← List.flatMap_def,List.flatMap_singleton']
  instanceId_fresh w h := by
    have hle := length_le_foldr_max h
    rw [longerId,List.length_replicate] at hle
    omega
  instanceId_scalar w := by
    intro c hc
    rw [List.eq_of_mem_replicate hc]
    decide
  instanceId_ne_nil w := by
    rw [longerId,List.replicate_succ]
    exact List.cons_ne_nil _ _

def throttled : ServiceError := .client (text "Throttling") (text "Rate exceeded")

/-- Refuse the calls of a kind, serve all others. -/
def refuse (p : Call → Bool) : Env := env (fun c _ => if p c then .refused throttled else .none) (by
  intro c _
  split
  · exact (by decide : text "Throttling" ≠ parameterNotFound)
  · trivial)

/-- Serve every call. -/
def clean : Env := env (fun _ _ => .none) (fun _ _ => trivial)

/-! ## The world -/

def control : Text := text "us-west-2"
def region0 : Text := text "us-east-1"
def region1 : Text := text "us-east-2"
def secret : Text := text "correct horse"

def seeds (pointer defaultRegion : Text) : List ((Text × Text) × Text) :=
  [((control,ParamName.path .signingSecret),secret),((control,ParamName.path .tsClientId),text "id"),
    ((control,ParamName.path .tsClientSecret),text "secret"),
    ((control,ParamName.path .defaultRegion),defaultRegion),((control,ParamName.path .defaultTtl),text "none"),
    ((control,ParamName.path .instanceType),text "t4g.nano"),
    ((control,ParamName.path .idleThresholdBytes),text "1048576"),
    ((control,ParamName.path .currentNode),pointer),((region0,Ec2ops.amiParameter),text "ami-0"),
    ((region1,Ec2ops.amiParameter),text "ami-1")]

/-- Two regions, the given instances, and the seeded parameters. -/
def world (pointer : Text) (nodes : List Node) (hid : (nodes.map (·.2.instanceId)).Nodup)
    (hscalar : ∀ n ∈ nodes, Scalar n.2.instanceId) (hne : ∀ n ∈ nodes, n.2.instanceId ≠ []) : World where
  regions := [region0,region1]
  instances := nodes
  parameters r n := ((seeds pointer region0).find? (fun p => p.1 = (r,n))).map (·.2)
  vpcs _ := [⟨text "vpc-0",true⟩]
  groups _ := []
  metrics _ _ := []
  regions_nodup := by decide
  regions_scalar := by decide
  ids_nodup := hid
  ids_scalar := hscalar
  ids_ne_nil := hne

/-- The account before its first request. -/
def empty : World := world Settings.empty [] (by simp) (by simp) (by simp)

def instance0 : Text := text "i-0"
def instance1 : Text := text "i-1"
def instance2 : Text := text "i-2"
def newYearsEve : Text := text "2025-12-31T00:00:00Z"
def noonBefore : Text := text "2025-12-31T12:00:00Z"

/-- A running node with the given launch and expiry tags. -/
def node (region instanceId launchedAt expiresAt : Text) : Node :=
  (region,⟨instanceId,.running,none,[⟨Ec2ops.tagRole,Ec2ops.roleValue⟩,⟨Ec2ops.tagLaunched,launchedAt⟩,
    ⟨Ec2ops.tagExpires,expiresAt⟩]⟩)

/-- The stored form of a pointer. -/
def pointsTo (region instanceId : Text) : Text := encodePointer (some ⟨.str region,.str instanceId⟩)

/-- One expired node. -/
def lapsed (pointer : Text) : World := world pointer [node region0 instance0 newYearsEve noonBefore]
  (by decide) (by decide) (by decide)

/-- Two nodes in two regions. -/
def pair (pointer : Text) : World := world pointer [node region0 instance0 newYearsEve Ttl.never,
  node region1 instance1 noonBefore Ttl.never] (by decide) (by decide) (by decide)

/-- One expired node and two others. -/
def drift (pointer : Text) : World := world pointer [node region0 instance0 newYearsEve noonBefore,
  node region1 instance1 newYearsEve Ttl.never,node region1 instance2 noonBefore Ttl.never]
  (by decide) (by decide) (by decide)

/-! ## The process -/

def midnight : Time.WallClock := ⟨⟨63902822400000000,0,by decide,Time.DateTime.zero_utcoffset_lt⟩,rfl,by decide⟩

def proc : Proc where
  secretCache _ := none
  clock _ := midnight
  ticks := 0
  random _ := (18,52)
  draws := 0

def state (w : World) : State := ⟨w,proc,[]⟩

def upText : Text := text "\x7b\"action\": \"up\"\x7d"
def upEastText : Text := text "\x7b\"action\": \"up\", \"region\": \"us-east-2\"\x7d"
def downText : Text := text "\x7b\"action\": \"down\"\x7d"
def timestamp : Text := text "1767225600"

/-- The digests of the requests made at that time. -/
def digests : List (Text × Digest) :=
  [(upText,⟨[212,172,49,221,1,214,177,186,177,186,153,175,209,222,147,251,206,27,6,126,210,38,101,200,210,243,
      149,196,144,143,160,63],rfl⟩),
    (upEastText,⟨[227,174,107,154,178,37,16,134,47,231,140,98,95,49,145,209,131,141,110,147,204,226,132,168,165,
      148,159,69,36,43,173,206],rfl⟩),
    (downText,⟨[180,207,122,61,184,118,27,240,140,10,108,152,2,201,107,187,39,199,25,44,30,139,152,209,38,103,37,
      85,32,46,115,142],rfl⟩)]

def hmac (key message : Bytes) : Digest :=
  match digests.find? (fun p => decide (key = Auth.asciiBytes secret ∧
      message = Auth.message timestamp (Auth.asciiBytes p.1))) with
  | some p => p.2
  | none => ⟨List.replicate 32 0,rfl⟩

def runtime : Runtime where
  controlRegion := control
  awsRegion := control
  clientError region := if region = [] then some (.other (text "ValueError") (text "Invalid endpoint") true) else none
  tsTag := text "tag:shardvpn-exit"
  topicArn := text "arn:aws:sns:us-west-2:000000000000:shardvpn"
  lower t := t.map lowerAscii
  str
    | .service (.client code message) => text "An error occurred (" ++ code ++ text "): " ++ message
    | e => e.typeName
  hmacSha256 := hmac
  lower_ascii _ _ := rfl

/-- A request with a fresh signature over its body. -/
def request (body : Text) : Dict :=
  [(text "requestContext",.obj []),
    (text "headers",.obj [(Auth.timestampHeader,.str timestamp),
      (Auth.signatureHeader,.str (hex (hmac (Auth.asciiBytes secret)
        (Auth.message timestamp (Auth.asciiBytes body))).1))]),
    (text "body",.str body)]

end ShardVPN.Plain
