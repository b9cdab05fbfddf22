import ShardVPN.Program.Ec2ops
import ShardVPN.Program.Ttl

/-! # The status document -/
namespace ShardVPN.Statusdoc
open Ec2ops Time

def jsonText : Option Text → Json
  | none => .null
  | some t => .str t

def absent : Dict :=
  [(text "state",.str (text "absent")),(text "region",.null),(text "instance_id",.null),
    (text "public_ip",.null),(text "tailnet",.str (text "unknown")),(text "hostname",.null),
    (text "age",.null),(text "expires_at",.null),(text "idle_for",.null)]

def age (launched : Option Text) (now : DateTime) : Option Text :=
  match launched with
  | none => none
  | some launched =>
    if launched = [] then none
    else (parseRfc3339 launched).map (fun t => Ttl.formatDuration (wholeSeconds (now.instant - t.instant)))

def describeInstance (i : Instance) (region : Json) (online : Option Bool) (idleSeconds : Option ℤ)
    (now : DateTime) : Dict :=
  [(text "state",.str i.state.name),(text "region",region),(text "instance_id",.str i.instanceId),
    (text "public_ip",jsonText i.publicIpAddress),
    (text "tailnet",.str (match online with
      | none => text "unknown"
      | some true => text "online"
      | some false => text "absent")),
    (text "hostname",jsonText (tagValue i tagHostname)),
    (text "age",jsonText (age (tagValue i tagLaunched) now)),
    (text "expires_at",jsonText ((tagValue i tagExpires).filter (· ≠ Ttl.never))),
    (text "idle_for",jsonText (idleSeconds.map Ttl.formatDuration))]

/-- Describe the current node uniformly, whatever action produced it. -/
def build (i : Option Instance) (region : Json) (online : Option Bool) (idleSeconds : Option ℤ)
    (now : DateTime) : Dict :=
  match i with
  | none => absent
  | some i => describeInstance i region online idleSeconds now

end ShardVPN.Statusdoc
