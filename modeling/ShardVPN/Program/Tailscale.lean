import ShardVPN.Program.Runtime
import ShardVPN.Text.Codec
import Mathlib.Data.List.Infix

/-! # The Tailscale API client

Responses are arbitrary JSON. Reading a field of one that is no object raises an
`AttributeError`, which is none of the client's own errors.
-/
namespace ShardVPN.Tailscale
open Effect

def api : Text := text "https://api.tailscale.com/api/v2"
def timeout : ℕ := 10

/-- `value.get(key)`. -/
def get (value : Json) (key : Text) : Except Exn (Option Json) :=
  match value with
  | .obj fields => .ok (Dict.get fields key)
  | _ => .error .attributeError

def callApi (request : Request) : Program Exn Json := do
  match ← (Program.call (.urlopen request timeout)).attempt with
  | .error (.service (.http code _)) =>
    Action.throw (.tailscaleError (text "tailscale api returned " ++ decimal code))
  | .error e => Action.throw (.tailscaleError (text "tailscale api call failed: " ++ e.typeName))
  | .ok body => match loadsBytes body with
    | .ok value => pure value
    | .error e =>
      Action.throw (.tailscaleError (text "tailscale api call failed: " ++ (Exn.jsonError e).typeName))

/-! ## Form encoding -/

def upperHexDigit (d : ℕ) : CodePoint :=
  if h : d % 16 < 10 then ⟨48 + d % 16,numeral_lt d⟩ else ⟨55 + d % 16,by omega⟩

/-- Letters, digits and `_.-~`. -/
def isUnreserved (n : ℕ) : Bool :=
  (65 ≤ n && n ≤ 90) || (97 ≤ n && n ≤ 122) || (48 ≤ n && n ≤ 57) || n = 95 || n = 46 || n = 45 || n = 126

def quoteByte (b : UInt8) : Bytes :=
  if isUnreserved b.toNat then [b]
  else if b = 32 then [43]
  else [37,byte (upperHexDigit (b.toNat / 16)).val,byte (upperHexDigit b.toNat).val]

/-- `quote_plus(value).encode()`; `none` stands for a `UnicodeEncodeError`. -/
def quotePlus (value : Text) : Option Bytes := (encodeUtf8 value).map (·.flatMap quoteByte)

/-- `urlencode({"client_id": …, "client_secret": …}).encode()`. -/
def credentialsForm (clientId clientSecret : Text) : Option Bytes := do
  let clientIdKey ← quotePlus (text "client_id")
  let clientId ← quotePlus clientId
  let secretKey ← quotePlus (text "client_secret")
  let clientSecret ← quotePlus clientSecret
  some (clientIdKey ++ 61 :: clientId ++ 38 :: secretKey ++ 61 :: clientSecret)

/-! ## The three calls -/

/-- The field of a response that must be there and truthy. -/
def required (response : Json) (key : Text) (message : Text) : Except Exn Json :=
  match get response key with
  | .error e => .error e
  | .ok none => .error (.tailscaleError message)
  | .ok (some value) => if value.truthy then .ok value else .error (.tailscaleError message)

def getToken (clientId clientSecret : Text) : Program Exn Json := do
  let data ← Program.ofOption .unicodeEncodeError (credentialsForm clientId clientSecret)
  let response ← callApi
    { url := api ++ text "/oauth/token"
      method := text "POST"
      data := some data
      bearer := none
      contentType := some (text "application/x-www-form-urlencoded") }
  Program.ofExcept (required response (text "access_token") (text "no access_token in oauth response"))

def keyRequest (tag : Text) (expirySeconds : ℕ) (description : Text) : Json :=
  .obj [(text "capabilities",.obj [(text "devices",.obj [(text "create",.obj
      [(text "reusable",.bool false),(text "ephemeral",.bool true),(text "preauthorized",.bool true),
        (text "tags",.arr [.str tag])])])]),
    (text "expirySeconds",.int expirySeconds),(text "description",.str description)]

def mintAuthKey (token : Json) (tag : Text) (expirySeconds : ℕ) (description : Text) : Program Exn Json := do
  let body ← Program.ofOption .unicodeEncodeError (encodeUtf8 (dumps (keyRequest tag expirySeconds description)))
  let response ← callApi
    { url := api ++ text "/tailnet/-/keys"
      method := text "POST"
      data := some body
      bearer := some token
      contentType := some (text "application/json") }
  Program.ofExcept (required response (text "key") (text "no key in auth key response"))

/-- Iterating over a decoded value. -/
def elements : Json → Except Exn (List Json)
  | .arr items => .ok items
  | .str s => .ok (s.map (fun c => .str [c]))
  | .obj fields => .ok (fields.map (fun p => .str p.1))
  | _ => .error .typeError

/-- `tag in value`. -/
def contains (value : Json) (tag : Text) : Except Exn Bool :=
  match value with
  | .arr items => .ok (items.any (fun x => decide (x = .str tag)))
  | .str s => .ok (decide (tag <:+: s))
  | .obj fields => .ok (fields.any (fun p => decide (p.1 = tag)))
  | _ => .error .typeError

def isTagged (tag : Text) (device : Json) : Except Exn Bool := do
  let tags ← get device (text "tags")
  match tags with
  | none => .ok false
  | some tags => if tags.truthy then contains tags tag else .ok false

/-- The devices that carry the tag, unless one of them cannot be examined. -/
def tagged (tag : Text) : List Json → Except Exn (List Json)
  | [] => .ok []
  | device :: rest => do
    let keep ← isTagged tag device
    let rest ← tagged tag rest
    .ok (if keep then device :: rest else rest)

def hasHostname (hostname : Text) (device : Json) : Bool :=
  match get device (text "hostname") with
  | .ok (some h) => decide (h = .str hostname)
  | _ => false

/-- Which of the tagged devices is ours. -/
def selectDevice (hostname : Option Text) : List Json → Option Json
  | [] => none
  | device :: rest =>
    if hostname.getD [] = [] then some device
    else match (device :: rest).find? (hasHostname (hostname.getD [])) with
      | some d => some d
      | none => if rest = [] then some device else none

def findDevice (token : Json) (tag : Text) (hostname : Option Text) : Program Exn (Option Json) := do
  let response ← callApi
    { url := api ++ text "/tailnet/-/devices"
      method := text "GET"
      data := none
      bearer := some token
      contentType := none }
  let devices ← Program.ofExcept (get response (text "devices"))
  let devices ← Program.ofExcept (elements (devices.getD (.arr [])))
  let tagged ← Program.ofExcept (tagged tag devices)
  pure (selectDevice hostname tagged)

end ShardVPN.Tailscale
