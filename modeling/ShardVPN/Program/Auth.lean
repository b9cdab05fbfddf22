import ShardVPN.Program.Runtime
import ShardVPN.Text.Codec

/-! # Request verification

Bodies, header values and the flag come from a decoded event, so each can be any
JSON value. Only what the source catches becomes the uniform refusal.
-/
namespace ShardVPN.Auth

def timestampHeader : Text := text "x-shardvpn-timestamp"
def signatureHeader : Text := text "x-shardvpn-signature"
def maxSkewSeconds : ℕ := 120

/-- `\A[0-9]{1,11}\Z`. -/
def isTimestamp (t : Text) : Bool := 1 ≤ t.length && t.length ≤ 11 && t.all isAsciiDigit

/-- `\A[0-9a-f]{64}\Z`. -/
def isSignature (t : Text) : Bool := t.length = 64 && t.all isLowerHex

/-- `event.get(key)` as a condition. -/
def flag (event : Dict) (key : Text) : Bool := (event.get key).any Json.truthy

/-- `event.get("body") or ""`. -/
def rawBody (event : Dict) : Json := event.getOr (text "body") (.str [])

/-- The request body as the bytes the client signed. -/
def extractBody (event : Dict) : Except Exn Bytes :=
  match rawBody event with
  | .str raw =>
    if flag event (text "isBase64Encoded") then
      if raw.all isAscii then match decodeBase64 raw with
        | some b => .ok b
        | none => .error .authError
      else .error .authError
    else match encodeUtf8 raw with
      | some b => .ok b
      | none => .error .unicodeEncodeError
  | _ => .error .authError

/-- `{k.lower(): v for k, v in headers.items()}`. -/
def loweredHeaders (lower : Text → Text) (headers : Dict) : Dict :=
  headers.foldl (fun d p => d.set (lower p.1) p.2) []

/-- The signed message. -/
def signedMessage (ts : Text) (body : Bytes) : Option Bytes := (encodeUtf8 (ts ++ [46])).map (· ++ body)

def checkSignature (rt : Runtime) (ts provided : Text) (body : Bytes) (secret : Text) : Except Exn Unit :=
  match encodeUtf8 secret,signedMessage ts body with
  | some key,some message =>
    if hex (rt.hmacSha256 key message).1 = provided then .ok () else .error .authError
  | _,_ => .error .unicodeEncodeError

def verify (rt : Runtime) (headers : Json) (body : Bytes) (secret : Text) (now maxSkew : ℤ) :
    Except Exn Unit :=
  match headers with
  | .obj headers =>
    let lowered := loweredHeaders rt.lower headers
    match (lowered.get timestampHeader).getD (.str []),(lowered.get signatureHeader).getD (.str []) with
    | .str ts,.str provided =>
      if isTimestamp ts && isSignature provided then
        match int ts with
        | none => .error (.intError ts)
        | some value =>
          if maxSkew < (now - value).natAbs then .error .authError
          else checkSignature rt ts provided body secret
      else .error .authError
    | _,_ => .error .authError
  | _ => .error .authError

end ShardVPN.Auth
