import Verdict.Json.Encoding
import Verdict.Json.Reader
import Verdict.Rule
import Verdict.Service.Encoding
import Verdict.Service.Form
import Verdict.Service.Target
import Verdict.Settings

/-!
# The service

A request names a target and a method and may have a body. `Service.respond` answers it: a rule
is evaluated, parsed or cut into tokens, and the health of the service is told. A body that
does not have the form of the request, or has a value of a wrong kind in one of its fields, is
rejected before anything else is done. Rules that are too long, and programs whose conditions
have too many levels to be shown, are refused. A fault of the rule or of its assignments is
the body of the response. A response that cannot be given or written is a `Crash`.
-/

namespace Verdict.Service

open Text

/-- The body of a request: none, a text to be read, or a value. -/
inductive Body where
  | none
  | text (s : String)
  | value (j : Json)

/-- A request. -/
structure Request where
  method : String
  target : String
  body : Body

/-- A response. -/
inductive Response where
  /-- A status and a body. -/
  | reply (status : Nat) (body : Json)
  /-- The body of the request does not have the form it must have. -/
  | rejected (report : Report)
  /-- A status without a body. -/
  | empty (status : Nat)

namespace Response

/-- A response whose body is a single text. -/
def detail (status : Nat) (text : String) : Response :=
  .reply status (.object [("detail", .string text)])

/-- The status of a response. -/
def status : Response → Nat
  | .reply status _ => status
  | .rejected _ => 422
  | .empty status => status

end Response

/-- Why there is no response. -/
inductive Crash where
  /-- The service has no name. -/
  | untitled
  /-- The version of the service has no name. -/
  | unversioned
  /-- The request has no target. -/
  | target (f : Target.Fault)
  /-- A number that is to be written is not finite. -/
  | notFinite
  /-- A text that is to be written has surrogates in it. -/
  | surrogates (s : Utf8.Surrogates)
  /-- A condition that is to be written has too many levels. -/
  | deep
  /-- A rule or its assignments cannot be read. -/
  | failure (f : Failure)

/-- What is told about a crash. -/
def Crash.message : Crash → String
  | .untitled => "A title must be provided for OpenAPI, e.g.: 'My API'"
  | .unversioned => "A version must be provided for OpenAPI, e.g.: '2.1.0'"
  | .target f => f.message
  | .notFinite => "Out of range float values are not JSON compliant"
  | .surrogates s => s.message
  | .deep => "Error serializing to JSON: ValueError: Maximum serialization depth exceeded"
  | .failure (.fault f) => f.message
  | .failure (.integer f) => f.message
  | .failure .invalid => "invalid data"

/-- The settings of the service, which must have a name and a version. -/
def checked (settings : Settings) : Except Crash Settings :=
  if settings.title.isEmpty then .error .untitled
  else if settings.version.isEmpty then .error .unversioned
  else .ok settings

/-- What the service offers. -/
inductive Endpoint where
  | evaluate
  | parse
  | tokenize
  | health

namespace Endpoint

/-- The path of an endpoint. -/
def path : Endpoint → String
  | .evaluate => "/evaluate"
  | .parse => "/parse"
  | .tokenize => "/tokenize"
  | .health => "/health"

/-- The method of an endpoint. -/
def method : Endpoint → String
  | .health => "GET"
  | _ => "POST"

/-- The endpoint at a path. A line feed at the end of a path has no meaning. -/
def ofPath? (path : List UInt8) : Option Endpoint :=
  let path := if path.getLast? = some 0x0A then path.dropLast else path
  [Endpoint.evaluate, .parse, .tokenize, .health].find? fun e => e.path.toUTF8.toList == path

/-- There is an endpoint at a path without the slashes at its end, of which it has some. -/
def standsBeside (path : List UInt8) : Bool :=
  path.getLast? == some 0x2F &&
    (ofPath? (path.reverse.dropWhile (· == 0x2F)).reverse).isSome

end Endpoint

/-! ### Answers -/

/-- The response to a rule that is too long, if it is. -/
def refuseLength? (settings : Settings) (rule : String) : Option Response :=
  if settings.maxRuleLength < rule.length then
    some (.detail 413 ("Rule exceeds " ++ toString settings.maxRuleLength ++ " characters."))
  else
    none

/-- A value that is to be written: its numbers must be finite, and its strings texts. -/
def writable (j : Json) : Except Crash Json :=
  if !j.isFinite then
    .error .notFinite
  else
    match Utf8.firstSurrogates? 0 j.codes with
    | some s => .error (.surrogates s)
    | none => .ok j

/-- The response to a failure. An integer that cannot be read is not answered. -/
def refuse : Failure → Except Crash Response
  | .fault f => .ok (.reply 422 (.object f.fields))
  | .integer f => .error (.failure (.integer f))
  | .invalid => .error (.failure .invalid)

/-- The response that a value determines, or the response to a failure. -/
def answer {α : Type} (r : Except Failure α) (respond : α → Except Crash Response) :
    Except Crash Response :=
  match r with
  | .error f => refuse f
  | .ok a => respond a

/-- The response to a body that is rejected. Its report shows parts of that body. -/
def reject (report : Report) : Except Crash Response :=
  (writable report.toJson).map fun _ => .rejected report

/-- The variables in whose environment a rule is evaluated. Those of the request prevail over
those of its list of assignments. -/
def Evaluation.environment (e : Evaluation) (assignments : String) :
    Except Failure Environment :=
  if assignments.isEmpty then
    .ok e.bindings
  else
    (Environment.ofAssignments assignments).map fun env => env.merge e.bindings

/-- The lines of steps that a response shows. -/
def shownLines (settings : Settings) (e : Evaluation) (lines : List String) : List String :=
  if e.trace || settings.traceEvaluation then lines else []

/-- The response to a request to evaluate a rule, in the environment that its variables make. -/
def evaluateIn (settings : Settings) (e : Evaluation) (env : Environment) :
    Except Crash Response :=
  let run := Rule.evaluate e.rule env
  answer run.result fun d =>
    .ok (.reply 200 (.object
      [("result", .int d.value), ("selected", d.selectedJson),
       ("outcomes", .array (d.outcomes.map Outcome.toJson)),
       ("steps", .texts (shownLines settings e run.lines))]))

/-- The response to a request to evaluate a rule, with a list of assignments that is a text. -/
def evaluateWith (settings : Settings) (e : Evaluation) (assignments : String) :
    Except Crash Response :=
  match e.environment assignments with
  | .error f => refuse f
  | .ok env => evaluateIn settings e env

/-- The code point of a character without a visible form, which is no letter, no digit, no
blank and no sign, and as long as a surrogate when it is quoted; other code points are kept. -/
def standIn (n : Nat) : Nat :=
  if Utf8.isSurrogate n then n + 0x800 else n

/-- The fields of a fault of a list of assignments, with the piece at fault replaced. -/
def withLine (line : List Nat) (fields : List Json.Field) : List Json.Field :=
  fields.map fun f => if f.1 = .text "line" then (f.1, .string (.broken line)) else f

/-- The response to a list of assignments with surrogates in it. No piece with a surrogate is a
binding, so the first such piece is at fault if no piece before it is; and it cannot be
written. -/
def refuseBroken (codes : List Nat) : Except Crash Response :=
  let pieces := codes.splitOnP fun n => Environment.isSeparator (Char.ofNat n)
  let sound := pieces.takeWhile (!·.any Utf8.isSurrogate)
  let text := fun codes => String.ofList (codes.map Char.ofNat)
  match Environment.ofAssignments (text (List.intercalate [';'.toNat] sound)) with
  | .error f => refuse f
  | .ok _ =>
    let piece := (pieces.drop sound.length).headD []
    let isBlankCode := fun n => isBlank (Char.ofNat n)
    let line := ((piece.dropWhile isBlankCode).reverse.dropWhile isBlankCode).reverse
    match Environment.ofAssignments (text (piece.map standIn)) with
    | .error (.fault f) =>
      (writable (.object (withLine line f.fields))).map (Response.reply 422)
    | .error f => refuse f
    | .ok _ => .error (.failure .invalid)

/-- The response to a request to evaluate a rule. -/
def evaluate (settings : Settings) (e : Evaluation) : Except Crash Response :=
  match e.assignments with
  | .text s => evaluateWith settings e s
  | .broken codes => refuseBroken codes

/-- The number of levels from which on a condition cannot be written. No setting tells it: it is the
limit on recursion of the library that writes responses, which counts levels in one byte, and it has
been found by having conditions of more and more levels written. -/
def unwritableDepth : Nat := 255

/-- The response to a program that is to be shown. -/
def showProgram (settings : Settings) (p : Program) : Except Crash Response :=
  if settings.maxConditionDepth < p.depth then
    .ok (.detail 413 ("Condition tree is " ++ toString p.depth ++ " levels deep (limit " ++
      toString settings.maxConditionDepth ++ ")."))
  else if unwritableDepth ≤ p.depth then
    .error .deep
  else
    .ok (.reply 200 (.object [("program", p.toJson)]))

/-- The response to a request to parse a rule. -/
def parse (settings : Settings) (rule : String) : Except Crash Response :=
  answer (Rule.canonical rule) (showProgram settings)

/-- The response to a request to cut a rule into tokens. -/
def tokenize (rule : String) : Except Crash Response :=
  answer (Rule.tokens rule) fun ts =>
    .ok (.reply 200 (.object [("tokens", .array (ts.map Token.toJson))]))

/-- The response to a rule, unless it is too long. -/
def withinLength (settings : Settings) (rule : String) (respond : Except Crash Response) :
    Except Crash Response :=
  match refuseLength? settings rule with
  | some r => .ok r
  | none => respond

/-- The response to a body in the form of its request, or to one that is not. -/
def formed {α : Type} (form : Except Report α) (respond : α → Except Crash Response) :
    Except Crash Response :=
  match form with
  | .error report => reject report
  | .ok a => respond a

/-- The response of an endpoint to a body. -/
def respondTo (settings : Settings) (endpoint : Endpoint) (body : Json) :
    Except Crash Response :=
  match endpoint with
  | .health =>
    .ok (.reply 200 (.object [("status", .string "ok"), ("version", .string settings.version)]))
  | .evaluate =>
    formed ((Form.fields body).bind Form.evaluation) fun e =>
      withinLength settings e.rule (evaluate settings e)
  | .parse =>
    formed ((Form.fields body).bind Form.rule) fun rule =>
      withinLength settings rule (parse settings rule)
  | .tokenize =>
    formed ((Form.fields body).bind Form.rule) fun rule =>
      withinLength settings rule (tokenize rule)

/-! ### Requests -/

/-- The greatest number of levels of a body. No setting tells it: the library that reads JSON calls
itself for each level, and of the one thousand calls that may be open at once the service itself has
made the others when it reads a body. It has been found by having bodies of more and more levels
read. -/
def maxLevels : Nat := 971

/-- The response to a body that cannot be read. -/
def unreadable : Response := .detail 400 "There was an error parsing the body"

/-- The value of a body; one that is missing counts as `null`. A body that is not JSON is
rejected, and one whose characters, integers or levels cannot be read is refused. -/
def readBody : Body → Except Response Json
  | .none => .ok .null
  | .value j => if j.fits maxLevels && j.isLegible then .ok j else .error unreadable
  | .text text =>
    if text.isEmpty then
      .ok .null
    else
      match Json.Encoding.decode? text with
      | none => .error unreadable
      | some s =>
        match Json.readWithin maxLevels s with
        | .ok j => .ok j.settled
        | .error .malformed => .error (.rejected [⟨.noJson, [], .object []⟩])
        | .error (.integer _) => .error unreadable
        | .error .deep => .error unreadable

/-- The response to a method and a body at a path. -/
def respondAt (settings : Settings) (path : List UInt8) (method : String) (body : Body) :
    Except Crash Response :=
  match Endpoint.ofPath? path with
  | none => .ok (if Endpoint.standsBeside path then .empty 307 else .detail 404 "Not Found")
  | some endpoint =>
    if method != endpoint.method then
      .ok (.detail 405 "Method Not Allowed")
    else
      match endpoint, readBody body with
      | .health, _ => respondTo settings .health .null
      | _, .error response => .ok response
      | endpoint, .ok body => respondTo settings endpoint body

/-- The numbers of a body that is a value are finite, so it can be sent. -/
def Body.isFinite : Body → Bool
  | .value j => j.isFinite
  | _ => true

/-- The response to a request. One that asks for the head of a response gets no body. -/
def respond (settings : Settings) (r : Request) : Except Crash Response :=
  match Target.ofReference r.target with
  | .error f => .error (.target f)
  | .ok path =>
    let method := r.method.toUpper
    if !r.body.isFinite then .error .notFinite
    else if method = "HEAD" then
      (respondAt settings path method .none).map fun response => .empty response.status
    else
      respondAt settings path method r.body

end Verdict.Service
