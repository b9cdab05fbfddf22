import ShardVPN.Bootstrap.FailClosed
import ShardVPN.Shell.Traps

/-! # The whole bootstrap script

`userdata.sh` from its first command on: the machine is prepared while a trap shuts it
down on any error, then it joins the tailnet without any guard, and what comes after the
join looks after itself.
-/
namespace ShardVPN.Bootstrap
open Shell

/-! ## Before the join -/

/-- `argv` with nothing to read. -/
def simple (argv : String) : Simple := ⟨words argv,[]⟩

def announce (message : String) : Simple := ⟨echo message,[]⟩

/-- `cat > file` with the lines of a document; where the output goes is not followed. -/
def document (lines : List String) : Simple := ⟨[bytes "cat"],lines.flatMap fun line => bytes line ++ [10]⟩

def forwardingConf : Simple := document ["net.ipv4.ip_forward = 1","net.ipv6.conf.all.forwarding = 1"]

def groScript : Simple := document ["#!/bin/bash","set -euo pipefail",
  "NETDEV=$(ip -o route get 8.8.8.8 | cut -f 5 -d \" \")",
  "ethtool -K \"$\x7bNETDEV\x7d\" rx-udp-gro-forwarding on rx-gro-list off"]

def groUnit : Simple := document ["[Unit]","Description=shardVPN UDP GRO forwarding tuning","After=network-online.target",
  "Wants=network-online.target","Before=tailscaled.service","","[Service]","Type=oneshot","RemainAfterExit=yes",
  "ExecStart=/usr/local/sbin/shardvpn-gro","","[Install]","WantedBy=multi-user.target"]

def logoutUnit : Simple := document ["[Unit]","Description=shardVPN leave tailnet on shutdown",
  "After=network-online.target tailscaled.service","Wants=network-online.target","Requires=tailscaled.service","",
  "[Service]","Type=oneshot","RemainAfterExit=yes","TimeoutStopSec=20","ExecStart=/bin/true",
  "ExecStop=/usr/bin/tailscale logout","","[Install]","WantedBy=multi-user.target"]

/-- Everything that is guarded by the trap. -/
def preparation : List Simple :=
  [announce "shardvpn: enabling IP forwarding",forwardingConf,simple "sysctl --system",
    announce "shardvpn: installing prerequisites",simple "dnf install -y dnf-plugins-core ethtool",
    announce "shardvpn: installing UDP GRO forwarding unit",groScript,simple "chmod 0755 /usr/local/sbin/shardvpn-gro",groUnit,
    announce "shardvpn: installing tailscale",
    simple "dnf config-manager --add-repo https://pkgs.tailscale.com/stable/amazon-linux/2023/tailscale.repo",
    simple "dnf install -y tailscale",simple "systemctl daemon-reload",simple "systemctl enable --now shardvpn-gro.service",
    announce "shardvpn: installing logout-on-shutdown unit",logoutUnit,simple "systemctl daemon-reload",
    simple "systemctl enable --now tailscaled",simple "systemctl enable --now shardvpn-logout.service"]

/-- `trap … ERR`. -/
def onError : Cmd := .seq (say "shardvpn: FATAL bootstrap failed before tailnet join") (.call shutdown)

/-! ## The join -/

/-- `tailscale up` with the key and the name that the script was rendered with. -/
def join (authkey hostname : Str) : List Str :=
  [bytes "tailscale",bytes "up",bytes "--auth-key=" ++ authkey,bytes "--ssh",bytes "--hostname=" ++ hostname]

def fromJoin (authkey hostname : Str) : Cmd :=
  .seq (say "shardvpn: joining tailnet") (.seq (.call (join authkey hostname)) afterJoin)

/-- The script, from its first command on. -/
def userdata (host : Host) (authkey hostname : Str) (s : State) : Flow × State :=
  match guarded host onError preparation s with
  | (.done _,t) => exec host (fromJoin authkey hostname) true t
  | r => r

/-- The shell when the whole script has ended. -/
def booted (m : Machine) (vars : Str → Option Str) (authkey hostname : Str) : State :=
  (userdata m.host authkey hostname (joined vars)).2

end ShardVPN.Bootstrap
