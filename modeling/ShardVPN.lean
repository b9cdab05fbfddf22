import ShardVPN.Auth.Gate
import ShardVPN.Auth.Verify
import ShardVPN.Bootstrap.FailClosed
import ShardVPN.Bootstrap.Guards
import ShardVPN.Bootstrap.Render
import ShardVPN.Bootstrap.Script
import ShardVPN.Bootstrap.Userdata
import ShardVPN.Cache.Expiring
import ShardVPN.Cache.Secrets
import ShardVPN.Cloud.Call
import ShardVPN.Cloud.Events
import ShardVPN.Cloud.Nodes
import ShardVPN.Cloud.Service
import ShardVPN.Cloud.World
import ShardVPN.Ecma.Number
import ShardVPN.Effect.Action
import ShardVPN.Effect.Ensures
import ShardVPN.Effect.Permits
import ShardVPN.Effect.Runs
import ShardVPN.Effect.Steps
import ShardVPN.Float.Binary64
import ShardVPN.Hash.Sha256
import ShardVPN.Json.Ascii
import ShardVPN.Json.Codec
import ShardVPN.Json.Escapes
import ShardVPN.Json.Style
import ShardVPN.Json.Value
import ShardVPN.Json.Writers
import ShardVPN.Phone.Delivery
import ShardVPN.Phone.Digest
import ShardVPN.Phone.Lines
import ShardVPN.Phone.Signing
import ShardVPN.Pointer.Closed
import ShardVPN.Pointer.Codec
import ShardVPN.Program.Auth
import ShardVPN.Program.Ec2ops
import ShardVPN.Program.Handler
import ShardVPN.Program.Runtime
import ShardVPN.Program.Script
import ShardVPN.Program.Settings
import ShardVPN.Program.Specs
import ShardVPN.Program.Statusdoc
import ShardVPN.Program.Tailscale
import ShardVPN.Program.Tap
import ShardVPN.Program.Ttl
import ShardVPN.Program.Watchdog
import ShardVPN.Request.Activity
import ShardVPN.Request.Admission
import ShardVPN.Request.Answers
import ShardVPN.Request.Client
import ShardVPN.Request.Credentials
import ShardVPN.Request.Degrade
import ShardVPN.Request.Describe
import ShardVPN.Request.Documents
import ShardVPN.Request.Down
import ShardVPN.Request.Entry
import ShardVPN.Request.Launch
import ShardVPN.Request.Minting
import ShardVPN.Request.Parameters
import ShardVPN.Request.Spending
import ShardVPN.Request.Tailnet
import ShardVPN.Request.Track
import ShardVPN.Request.Up
import ShardVPN.Request.Warrants
import ShardVPN.Search.Latest
import ShardVPN.Shell.Rules
import ShardVPN.Shell.Semantics
import ShardVPN.Shell.Traps
import ShardVPN.Shell.Words
import ShardVPN.Sweep.Address
import ShardVPN.Sweep.Alerts
import ShardVPN.Sweep.Cull
import ShardVPN.Sweep.Idle
import ShardVPN.Sweep.Isolation
import ShardVPN.Sweep.Listing
import ShardVPN.Sweep.Order
import ShardVPN.Sweep.Phases
import ShardVPN.Sweep.Reconciliation
import ShardVPN.Sweep.Repair
import ShardVPN.Sweep.Reports
import ShardVPN.Sweep.Scan
import ShardVPN.Sweep.Sight
import ShardVPN.Sweep.Stamps
import ShardVPN.Sweep.Tags
import ShardVPN.Sweep.Terminations
import ShardVPN.Sweep.Ties
import ShardVPN.Sweep.Warrants
import ShardVPN.System.Answers
import ShardVPN.System.Boots
import ShardVPN.System.Calls
import ShardVPN.System.Debounce
import ShardVPN.System.Down
import ShardVPN.System.Evolution
import ShardVPN.System.Expiry
import ShardVPN.System.Lifetime
import ShardVPN.System.Locked
import ShardVPN.System.Notification
import ShardVPN.System.OneTap
import ShardVPN.System.Origin
import ShardVPN.System.Plain
import ShardVPN.System.Recovery
import ShardVPN.System.Retries
import ShardVPN.System.Runs
import ShardVPN.System.Slot
import ShardVPN.System.Tailnet
import ShardVPN.System.Tap
import ShardVPN.System.Ticks
import ShardVPN.System.Track
import ShardVPN.System.Up
import ShardVPN.System.Walls
import ShardVPN.Text.Base64
import ShardVPN.Text.Basic
import ShardVPN.Text.Codec
import ShardVPN.Text.Form
import ShardVPN.Text.Template
import ShardVPN.Text.Utf8
import ShardVPN.Time.Calendar
import ShardVPN.Time.DateTime
import ShardVPN.Time.Duration
import ShardVPN.Time.Expiry
import ShardVPN.Time.Grammar
import ShardVPN.Time.Meaning
import ShardVPN.Time.RoundTrip
import ShardVPN.Time.Seconds
import ShardVPN.Time.Timestamps
