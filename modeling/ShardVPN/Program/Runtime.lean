import ShardVPN.Cloud.Service
import ShardVPN.Json.Codec

/-! # What the program runs on

Exceptions, the environment variables and library functions the program uses, and
the memory of one process: the secret cache, the system clock and the random source.
-/
namespace ShardVPN
open Effect

/-- The exceptions that can be raised, the program's own among them. -/
inductive Exn
  | service (e : ServiceError)
  | pointerUnavailable (detail : Text)
  | tailscaleError (detail : Text)
  | authError
  | valueError (detail : Text)
  | intError (literal : Text)
  | jsonError (e : JsonError)
  | unicodeEncodeError
  | typeError
  | attributeError
  | keyError (key : Text)
  | runtimeError (detail : Text)
  | overflowError
deriving DecidableEq

/-- `isinstance(exc, ValueError)`. -/
def Exn.isValueError : Exn → Bool
  | .service (.other _ _ isValueError) => isValueError
  | .valueError _ => true
  | .intError _ => true
  | .jsonError _ => true
  | .unicodeEncodeError => true
  | _ => false

/-- `type(exc).__name__`. -/
def Exn.typeName : Exn → Text
  | .service (.client _ _) => text "ClientError"
  | .service (.http _ _) => text "HTTPError"
  | .service (.other typeName _ _) => typeName
  | .pointerUnavailable _ => text "PointerUnavailable"
  | .tailscaleError _ => text "TailscaleError"
  | .authError => text "AuthError"
  | .valueError _ => text "ValueError"
  | .intError _ => text "ValueError"
  | .jsonError .decode => text "JSONDecodeError"
  | .jsonError .intLimit => text "ValueError"
  | .jsonError .unicode => text "UnicodeDecodeError"
  | .unicodeEncodeError => text "UnicodeEncodeError"
  | .typeError => text "TypeError"
  | .attributeError => text "AttributeError"
  | .keyError _ => text "KeyError"
  | .runtimeError _ => text "RuntimeError"
  | .overflowError => text "OverflowError"

/-- A SHA-256 digest. -/
abbrev Digest := {d : Bytes // d.length = 32}

def isAsciiUpper (c : CodePoint) : Bool := inRange 65 90 c

def lowerAscii (c : CodePoint) : CodePoint :=
  if h : isAsciiUpper c = true then ⟨c.val + 32,by have := (inRange_iff.mp h).2; omega⟩ else c

/-- The variables and library functions the program depends on. `lower` is
`str.lower`, of which only the ASCII part is fixed; `str` is the message of an
exception; `hmacSha256 key message` is the digest; `clientError region` is what
`boto3.client` raises for the name of a region, if it does. -/
structure Runtime where
  controlRegion : Text
  awsRegion : Text
  clientError : Text → Option ServiceError
  tsTag : Text
  topicArn : Text
  lower : Text → Text
  str : Exn → Text
  hmacSha256 : Bytes → Bytes → Digest
  lower_ascii : ∀ t : Text, (∀ c ∈ t, isAscii c = true) → lower t = t.map lowerAscii

structure Proc where
  secretCache : Text → Option (ℤ × Text)
  clock : ℕ → Time.WallClock
  ticks : ℕ
  random : ℕ → UInt8 × UInt8
  draws : ℕ

abbrev Program (X α : Type) := Action Call Resp World Proc ServiceError X α
abbrev State := Effect.State Call World Proc ServiceError

namespace Program
variable {X α : Type}

/-- Make one call of a service. -/
def call (c : Call) : Program Exn (Resp c) := Action.call Exn.service c

/-- A value or an exception computed without calls. -/
def ofExcept : Except X α → Program X α
  | .ok a => pure a
  | .error x => Action.throw x

/-- A value computed without calls, or the exception that stands for its absence. -/
def ofOption (x : X) : Option α → Program X α
  | some a => pure a
  | none => Action.throw x

/-- The system clock: `datetime.now(UTC)` and `time.time()`. -/
def now : Program X Time.WallClock := do
  let p ← Action.getProc
  Action.setProc { p with ticks := p.ticks + 1 }
  pure (p.clock p.ticks)

/-- `secrets.token_hex(2)`. -/
def tokenHex : Program X Text := do
  let p ← Action.getProc
  Action.setProc { p with draws := p.draws + 1 }
  pure (hex [(p.random p.draws).1,(p.random p.draws).2])

end Program

end ShardVPN
