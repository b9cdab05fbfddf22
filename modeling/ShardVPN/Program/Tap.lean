import ShardVPN.Json.Writers

/-! # Sending and showing

The rest of the phone's script: how a parameter or the menu becomes a request, the loop
that sends it, and the line that shows the result. What differs from engine to engine,
such as the text of a number, is a parameter.
-/
namespace ShardVPN.Script

def maxAttempts : ℕ := 4

/-- `JSON.parse`, or the text of what it raises; `String(value)`; the text of the error that a property of
null raises; `text.trim()`. -/
structure Engine where
  parse : Text → Except Text Json
  string : Json → Text
  nullError : Text
  trim : Text → Text
  parse_loads : ∀ {t v}, loads t = .ok v → Worded v → parse t = .ok v
  string_str : ∀ t, string (.str t) = t

/-- `!!value`: unlike in Python, empty lists and objects count as true. -/
def truthy : Json → Bool
  | .null => false
  | .bool b => b
  | .int n => n ≠ 0
  | .float .nan => false
  | .float x => x.truthy
  | .str t => t ≠ []
  | .arr _ => true
  | .obj _ => true

section
variable (engine : Engine)

/-- `value.key`, where `none` is `undefined`. -/
def property (value : Json) (key : Text) : Except Text (Option Json) :=
  match value with
  | .null => .error engine.nullError
  | .obj fields => .ok (Dict.get fields key)
  | _ => .ok none

/-- The text of a value in a template. -/
def template : Option Json → Text
  | none => text "undefined"
  | some value => engine.string value

/-! ## The request -/

inductive Row
  | status
  | up
  | upElsewhere
  | down

/-- The row that is chosen and the region that is typed; `none` stands for cancel. -/
structure Menu where
  chosen : Option Row
  typed : Option Text

/-- `args.shortcutParameter || args.queryParameters?.action`. -/
def rawParameter (shortcutParameter query : Option Text) : Option Text :=
  (shortcutParameter.filter (· ≠ [])).or query

/-- The action and the region of a parameter: the first two pieces between its colons. -/
def splitParameter (raw : Option Text) : Option Text × Option Text :=
  match raw with
  | none => (none,none)
  | some raw =>
    if 58 ∈ raw then
      (some (raw.takeWhile (· ≠ 58)),some (((raw.dropWhile (· ≠ 58)).drop 1).takeWhile (· ≠ 58)))
    else (some raw,none)

/-- The action and the region to ask for; `none` when the menu is left. -/
def choose (raw : Option Text) (menu : Menu) : Option (Text × Option Text) :=
  match splitParameter raw with
  | (action,region) => match action.filter (· ≠ []) with
    | some action => some (action,region)
    | none => match menu.chosen with
      | none => none
      | some .upElsewhere =>
        ((menu.typed.map engine.trim).filter (· ≠ [])).map (fun region => (text "up",some region))
      | some .status => some (text "status",region)
      | some .up => some (text "up",region)
      | some .down => some (text "down",region)

/-! ## Sending -/

/-- What `request.loadJSON()` comes to: it raises, or there is a status and a value. -/
inductive Outcome
  | raised (error : Text)
  | loaded (statusCode : ℕ) (result : Json)

def httpError (statusCode : ℕ) : Text := text "http " ++ decimal statusCode

/-- The `try` block of an attempt: a result, or the next `lastError`. -/
def settle : Outcome → Except Text Json
  | .raised error => .error error
  | .loaded code result =>
    if code = 429 ∨ 500 ≤ code then .error (httpError code)
    else if 400 ≤ code then
      match property engine result (text "error") with
      | .error e => .error e
      | .ok error => .ok (.obj [(text "error",(error.filter truthy).getD (.str (httpError code)))])
    else .ok result

/-- What `send` returns when no attempt gave a result. -/
def unreachable (lastError : Option Text) : Json :=
  .obj [(text "error",.str ((lastError.filter (· ≠ [])).getD (text "unreachable")))]

/-- The loop of `send`, given what each attempt comes to. -/
def send (outcome : ℕ → Outcome) (attempt : ℕ) (lastError : Option Text) : Json :=
  if attempt < maxAttempts then
    match settle engine (outcome attempt) with
    | .ok result => result
    | .error e => send outcome (attempt + 1) (some e)
  else unreachable lastError
termination_by maxAttempts - attempt

/-! ## Showing -/

/-- The text that `describe` puts together from the properties it reads. -/
def line (error state region tailnet age idle : Option Json) : Text :=
  let place := template engine (some ((region.filter truthy).getD (.str [])))
  if error.any truthy then text "error: " ++ template engine error
  else if state = some (.str (text "absent")) then text "no node running"
  else if tailnet = some (.str (text "absent")) then
    place ++ text ": starting, not on tailnet yet (" ++
      template engine (some ((age.filter truthy).getD (.str (text "0m")))) ++ text ")"
  else if tailnet = some (.str (text "online")) then
    place ++ text ": ready" ++ if idle.any truthy then text ", idle " ++ template engine idle else []
  else place ++ text ": " ++ template engine state

/-- The line of the notification, or what describing the result raises. -/
def describe (result : Json) : Except Text Text := do
  let error ← property engine result (text "error")
  let state ← property engine result (text "state")
  let region ← property engine result (text "region")
  let tailnet ← property engine result (text "tailnet")
  let age ← property engine result (text "age")
  let idle ← property engine result (text "idle_for")
  pure (line engine error state region tailnet age idle)

end

end ShardVPN.Script
