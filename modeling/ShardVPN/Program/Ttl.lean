import ShardVPN.Program.Runtime

/-! # TTL parsing and expiry

An expiry is a timestamp or `never`. A text that is neither never expires anything.
-/
namespace ShardVPN.Ttl
open Time

def never : Text := text "never"

/-- The spellings of no expiry. -/
def noExpiry : List Text := [never,text "none"]

def rfc3339 (dt : DateTime) : Except Exn Text :=
  match Time.rfc3339 dt with
  | some t => .ok t
  | none => .error .overflowError

def unitSeconds (unit : CodePoint) : Option ℕ :=
  if unit = 109 then some 60
  else if unit = 104 then some 3600
  else if unit = 100 then some 86400
  else none

def maxTtlSeconds : ℕ := 365 * 86400

/-- `\A([0-9]+)([mhd])\Z`: the digits and the seconds of the unit. -/
def ttlPattern (ttl : Text) : Option (Text × ℕ) :=
  match ttl.getLast? with
  | some unit =>
    if ttl.dropLast ≠ [] ∧ ttl.dropLast.all isAsciiDigit then (unitSeconds unit).map (ttl.dropLast,·) else none
  | none => none

def parseTtl (ttl : Json) (now : DateTime) : Except Exn Text :=
  match ttl with
  | .null => .ok never
  | .str ttl =>
    if ttl ∈ noExpiry then .ok never
    else match ttlPattern ttl with
      | none => .error (.valueError (text "malformed ttl"))
      | some (digits,unit) => match int digits with
        | none => .error (.intError digits)
        | some count =>
          let seconds := count * unit
          if seconds < 60 then .error (.valueError (text "ttl must be at least one minute"))
          else if maxTtlSeconds < seconds then .error (.valueError (text "ttl exceeds one year"))
          else match now.add (seconds * microsPerSecond) with
            | none => .error .overflowError
            | some expiry => rfc3339 expiry
  | _ => .error (.valueError (text "ttl must be a string"))

/-- Whether a well-formed expiry lies in the past. -/
def isExpired (expiresAt : Text) (now : DateTime) : Bool :=
  if expiresAt = never then false
  else match parseRfc3339 expiresAt with
    | some expiry => expiry.instant ≤ now.instant
    | none => false

def formatDuration (seconds : ℤ) : Text :=
  let total := seconds.toNat
  let days := total / 86400
  let hours := total % 86400 / 3600
  let minutes := total % 86400 % 3600 / 60
  if days ≠ 0 then decimal days ++ text "d" ++ decimal hours ++ text "h" ++ decimal minutes ++ text "m"
  else if hours ≠ 0 then decimal hours ++ text "h" ++ decimal minutes ++ text "m"
  else decimal minutes ++ text "m"

end ShardVPN.Ttl
