import ShardVPN.Cloud.World

/-! # The calls the program makes

Every call of the AWS SDK and of `urlopen`, with the arguments the program passes.
A client is bound to a region when it is built, so each SDK call carries the region
of its client.
-/
namespace ShardVPN

/-- How a call fails: a `ClientError` with its code, an `HTTPError` with its status,
or any other exception with its type and whether it is a `ValueError`. -/
inductive ServiceError
  | client (code message : Text)
  | http (code : ℕ) (reason : Text)
  | other (typeName message : Text) (isValueError : Bool)
deriving DecidableEq

/-- The bootstrap script, determined by what is substituted into it. -/
structure UserData where
  authkey : Json
  hostname : Text
deriving DecidableEq

/-- The arguments of a `run_instances` call. -/
structure RunInstances where
  imageId : Text
  instanceType : Text
  minCount : ℕ
  maxCount : ℕ
  securityGroupIds : List Text
  userData : UserData
  clientToken : Text
  shutdownBehavior : Text
  httpTokens : Text
  tags : List Tag
deriving DecidableEq

/-- An HTTP request; the token of the authorization header is any JSON value. -/
structure Request where
  url : Text
  method : Text
  data : Option Bytes
  bearer : Option Json
  contentType : Option Text
deriving DecidableEq

inductive Call
  | getParameter (region name : Text) (withDecryption : Bool)
  | putParameter (region name value type : Text) (overwrite : Bool)
  | describeRegions (region : Text)
  | describeInstances (region : Text) (filters : List Filter)
  | describeVpcs (region : Text) (filters : List Filter)
  | describeSecurityGroups (region : Text) (filters : List Filter)
  | createSecurityGroup (region groupName description vpcId : Text)
  | runInstances (region : Text) (request : RunInstances)
  | terminateInstances (region : Text) (instanceIds : List Text)
  | createTags (region : Text) (resources : List Text) (tags : List Tag)
  | getMetricStatistics (region : Text) (query : MetricQuery)
  | publish (region topicArn subject message : Text)
  | urlopen (request : Request) (timeout : ℕ)
deriving DecidableEq

/-- What an answered call returns; `describeInstances` returns reservations. -/
abbrev Resp : Call → Type
  | .getParameter .. => Text
  | .putParameter .. => Unit
  | .describeRegions _ => List Text
  | .describeInstances .. => List (List Instance)
  | .describeVpcs .. => List Vpc
  | .describeSecurityGroups .. => List SecurityGroup
  | .createSecurityGroup .. => Text
  | .runInstances .. => Text
  | .terminateInstances .. => Unit
  | .createTags .. => Unit
  | .getMetricStatistics .. => List Datapoint
  | .publish .. => Unit
  | .urlopen .. => Bytes

/-- Calls that change neither an instance nor a parameter. -/
def Call.quiet : Call → Bool
  | .putParameter .. => false
  | .runInstances .. => false
  | .terminateInstances .. => false
  | .createTags .. => false
  | _ => true

/-- Calls that change nothing and notify nobody. -/
def Call.reads : Call → Bool
  | .getParameter .. => true
  | .describeRegions _ => true
  | .describeInstances .. => true
  | .describeVpcs .. => true
  | .describeSecurityGroups .. => true
  | .getMetricStatistics .. => true
  | _ => false

theorem Call.quiet_of_reads {c : Call} (h : c.reads = true) : c.quiet = true := by
  cases c <;> first | rfl | cases h

end ShardVPN
