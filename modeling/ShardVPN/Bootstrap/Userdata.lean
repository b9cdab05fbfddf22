import ShardVPN.Json.Codec
import ShardVPN.Shell.Semantics

/-! # The bootstrap script after the join

What `userdata.sh` does once `tailscale up` has returned: verify forwarding, advertise,
wait until the node's own status shows the advertisement, and fail closed otherwise.
-/
namespace ShardVPN.Bootstrap
open Shell

def bytes (s : String) : Str := (text s).map (fun c => byte c.val)

def words (s : String) : List Str := ((text s).splitOn 32).map (fun t => t.map (fun c => byte c.val))

/-! ## The programs it runs -/

def echo (message : String) : List Str := [bytes "echo",bytes message]

def readForwarding : List Str := words "cat /proc/sys/net/ipv4/ip_forward"
def grant : List Str := words "tailscale set --advertise-exit-node"
def withdraw : List Str := words "tailscale set --advertise-exit-node=false"
def status : List Str := words "tailscale status --json"
def logout : List Str := words "tailscale logout"
def shutdown : List Str := words "shutdown -h now"
def pause : List Str := words "sleep 2"
def rounds : List Str := words "seq 1 15"
def ready : List Str := echo "shardvpn: ready"

/-- The program that `python3 -c` is given. -/
def checkProgram : String :=
  "\nimport json\nimport sys\n\ntry:\n    self_status = json.load(sys.stdin)[\"Self\"]\n" ++
  "except (ValueError, KeyError):\n    sys.exit(1)\n\n" ++
  "sys.exit(0 if self_status.get(\"ExitNodeOption\") is True else 1)\n"

def check : List Str := [bytes "python3",bytes "-c",bytes checkProgram]

/-! ## The script -/

def say (message : String) : Cmd := .call (echo message)

/-- `argv || true`. -/
def bestEffort (argv : List Str) : Cmd := .or (.call argv) .skip

/-- The end of every failure branch. -/
def leaveTailnet : List Cmd := [bestEffort logout,bestEffort shutdown,.exit 1]

def verifyForwarding : Cmd :=
  .ifThen (.differ (.output readForwarding) (.lit (bytes "1")))
    (.block (say "shardvpn: FATAL ipv4 forwarding is not enabled" :: leaveTailnet))

def advertise : Cmd :=
  .ifThen (.not (.call grant))
    (.block (say "shardvpn: FATAL could not advertise as exit node" :: leaveTailnet))

def advertised : Str := bytes "advertised"

/-- One round of the wait for the node's own status. -/
def verifySelf : Cmd :=
  .block [.ifThen (.pipe status check) (.block [.assign advertised (bytes "1"),.leave]),.call pause]

def verifyAdvertisement : Cmd := .forIn (bytes "_") rounds verifySelf

def failUnadvertised : Cmd :=
  .ifThen (.differ (.var advertised) (.lit (bytes "1")))
    (.block (say "shardvpn: FATAL node is not advertising as an exit node" :: .call status ::
      bestEffort withdraw :: leaveTailnet))

def afterJoin : Cmd :=
  .block [say "shardvpn: verifying forwarding",verifyForwarding,
    say "shardvpn: advertising as exit node",advertise,
    say "shardvpn: verifying exit node advertisement",.assign advertised (bytes "0"),verifyAdvertisement,
    failUnadvertised,.call ready]

/-! ## The machine it runs on -/

/-- The exit status of the check: any exception ends it with 1, too. -/
def selfCheck (decode : Str → Option Text) (stdin : Str) : ℕ :=
  match (decode stdin).map loads with
  | some (.ok (.obj document)) => match Dict.get document (text "Self") with
    | some (.obj self) => if Dict.get self (text "ExitNodeOption") = some (.bool true) then 0 else 1
    | _ => 1
  | _ => 1

/-- Every program may answer anything at any time; a `python3` that comes to run its program
answers what the program does with the decoded input. -/
structure Machine where
  outcome : List Ran → List Str → Str → ℕ × Str
  expand : Str → List Str
  decode : Str → Option Text

def Machine.host (m : Machine) : Host where
  run ran argv stdin :=
    if argv = check ∧ (m.outcome ran argv stdin).1 = 0 then
      (selfCheck m.decode stdin,(m.outcome ran argv stdin).2)
    else m.outcome ran argv stdin
  expand := m.expand

/-- The shell right after the join, with any variables. -/
def joined (vars : Str → Option Str) : State := ⟨vars,[]⟩

end ShardVPN.Bootstrap
