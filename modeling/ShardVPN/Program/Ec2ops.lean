import ShardVPN.Program.Runtime
import Mathlib.Data.List.Sort

/-! # EC2, SSM and CloudWatch operations for exit nodes -/
namespace ShardVPN.Ec2ops
open Effect Time

def tagRole : Text := text "shardvpn:role"
def roleValue : Text := text "exit-node"
def tagLaunched : Text := text "shardvpn:launched-at"
def tagExpires : Text := text "shardvpn:expires-at"
def tagAlerted : Text := text "shardvpn:last-idle-alert"
def tagHostname : Text := text "shardvpn:ts-hostname"

def sgName : Text := text "shardvpn-exit"
def sgDescription : Text := text "shardVPN exit node: no ingress rules, default egress only"

def amiParameter : Text := text "/aws/service/ami-amazon-linux-latest/al2023-ami-kernel-default-arm64"

def liveStates : List Text := [text "pending",text "running"]

def resolveAmi (region : Text) : Program Exn Text := Program.call (.getParameter region amiParameter false)

def validRegions (region : Text) : Program Exn (List Text) := Program.call (.describeRegions region)

def defaultVpcId (region : Text) : Program Exn Text := do
  let vpcs ← Program.call (.describeVpcs region [⟨text "isDefault",[text "true"]⟩])
  match vpcs with
  | [] => Action.throw (.runtimeError (text "no default VPC in this region"))
  | vpc :: _ => pure vpc.vpcId

/-- The group is reused only while it has no ingress rules. -/
def ensureSecurityGroup (region : Text) : Program Exn Text := do
  let vpcId ← defaultVpcId region
  let existing ← Program.call
    (.describeSecurityGroups region [⟨text "group-name",[sgName]⟩,⟨text "vpc-id",[vpcId]⟩])
  match existing with
  | group :: _ =>
    if group.ipPermissions ≠ 0 then
      Action.throw (.runtimeError (text "security group " ++ group.groupId ++ text " (" ++ sgName ++
        text ") has ingress rules; refusing to reuse it — shardVPN's zero-inbound guarantee only holds " ++
        text "for a group this code created itself"))
    else pure group.groupId
  | [] => Program.call (.createSecurityGroup region sgName sgDescription vpcId)

def nodeFilters : List Filter := [⟨text "tag:" ++ tagRole,[roleValue]⟩,⟨text "instance-state-name",liveStates⟩]

/-- Every live exit node of a region. -/
def findNodes (region : Text) : Program Exn (List Instance) := do
  let reservations ← Program.call (.describeInstances region nodeFilters)
  pure reservations.flatten

def launch (region ami instanceType sgId : Text) (userData : UserData) (tags : List Tag)
    (clientToken : Text) : Program Exn Text :=
  Program.call (.runInstances region
    { imageId := ami
      instanceType := instanceType
      minCount := 1
      maxCount := 1
      securityGroupIds := [sgId]
      userData := userData
      clientToken := clientToken
      shutdownBehavior := text "terminate"
      httpTokens := text "required"
      tags := tags })

def terminate (region instanceId : Text) : Program Exn Unit :=
  Program.call (.terminateInstances region [instanceId])

def stampTag (region instanceId key value : Text) : Program Exn Unit :=
  Program.call (.createTags region [instanceId] [⟨key,value⟩])

def tagValue (i : Instance) (key : Text) : Option Text :=
  (i.tags.find? (fun t => t.key = key)).map Tag.value

/-- The order of the pairs of time and sum. -/
def pointLe (p q : Datapoint) : Prop :=
  p.timestamp.instant < q.timestamp.instant ∨ p.timestamp.instant = q.timestamp.instant ∧ p.sum ≤ q.sum

instance : DecidableRel pointLe := fun p q => inferInstanceAs (Decidable
  (p.timestamp.instant < q.timestamp.instant ∨ p.timestamp.instant = q.timestamp.instant ∧ p.sum ≤ q.sum))

/-- `now - timedelta(hours=hours)`. -/
def windowStart (hours : ℕ) (now : DateTime) : Option DateTime :=
  now.add (-Int.ofNat (hours * 3600 * microsPerSecond))

def networkQuery (instanceId : Text) (start now : DateTime) : MetricQuery :=
  { nameSpace := text "AWS/EC2"
    metricName := text "NetworkOut"
    instanceId := instanceId
    startTime := start
    endTime := now
    period := 300
    statistics := [text "Sum"] }

/-- NetworkOut datapoints over the trailing window, oldest first. -/
def networkOut (region instanceId : Text) (hours : ℕ) (now : DateTime) : Program Exn (List Datapoint) := do
  let start ← Program.ofOption .overflowError (windowStart hours now)
  let datapoints ← Program.call (.getMetricStatistics region (networkQuery instanceId start now))
  pure (datapoints.insertionSort pointLe)

end ShardVPN.Ec2ops
