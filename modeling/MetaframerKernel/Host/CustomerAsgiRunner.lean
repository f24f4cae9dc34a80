import MetaframerKernel.Codec.Base64
import MetaframerKernel.Delivery.AsgiApplication
import MetaframerKernel.Host.MintUlid
import MetaframerKernel.Host.ScopeEnvelope

/-!
# The JavaScript runner

One process of `create_customer_asgi_runner.mjs`: it reads its arguments and one envelope, gives the
composition collaborators of its own, runs the application once and prints what it sent.

## Main definitions

* `parseArgs`, `checkEnvelope`: what a process is given, or why it fails;
* `collaborators`: the functions the composition is given;
* `main`: a process.
-/

namespace MetaframerKernel.CreateCustomerAsgiRunner

open Js Async Program

/-! ## Arguments -/

/-- The value of `--policy`. -/
inductive Policy where
  | deny
  | allow
deriving DecidableEq

/-- What the arguments say. -/
structure Args where
  policy : Policy
  connectionString : Option JsString
  trustedTenantId : Option JsString
  trustedActorId : Option JsString
  /-- `audit === AUDIT_ON` -/
  audit : Bool
deriving DecidableEq

/-- The arguments of a process that is given none. -/
def defaultArgs : Args := ⟨.deny, none, none, none, false⟩

/-- `checkTrustedTenantId` -/
def checkTrustedTenantId (value : JsString) : Except JsString Unit := do
  throwIf (isUuid value = false)
    (lit "--trusted-tenant-id must be a canonical lowercase hyphenated UUID in 8-4-4-4-12 form")
  throwIf (value = nilUuid) (lit "--trusted-tenant-id must not be the nil UUID")

/-- `checkTrustedActorId` -/
def checkTrustedActorId (value : JsString) : Except JsString Unit := do
  throwIf (value = []) (lit "--trusted-actor-id must not be empty")
  throwIf (isActor value = false)
    (lit "--trusted-actor-id must be 1-128 visible ASCII characters")

/-- The flags that take a value. -/
def flags : List JsString :=
  [lit "--policy", lit "--connection-string", lit "--trusted-tenant-id", lit "--trusted-actor-id",
    lit "--audit"]

/-- `JSON.stringify(value)`, of a string. -/
def quoted (value : JsString) : JsString := ofText (Json.str value).stringify

/-- A flag with its value. -/
def setFlag (args : Args) (flag value : JsString) : Except JsString Args :=
  if flag = lit "--policy" then
    if value = lit "deny" then .ok { args with policy := .deny }
    else if value = lit "allow" then .ok { args with policy := .allow }
    else .error (lit "--policy must be \"deny\" or \"allow\", got " ++ quoted value)
  else if flag = lit "--connection-string" then do
    -- a flag given twice has the later value
    throwIf (value = []) (lit "--connection-string must not be empty")
    return { args with connectionString := some value }
  else if flag = lit "--trusted-tenant-id" then do
    checkTrustedTenantId value
    return { args with trustedTenantId := some value }
  else if flag = lit "--trusted-actor-id" then do
    checkTrustedActorId value
    return { args with trustedActorId := some value }
  else if flag = lit "--audit" then
    if value = lit "on" then .ok { args with audit := true }
    else if value = lit "off" then .ok { args with audit := false }
    else .error (lit "--audit must be \"on\" or \"off\", got " ++ quoted value)
  else .error (lit "unrecognized argument: " ++ flag)

/-- The loop of `parseArgs`: each flag takes the next argument, whatever it is. -/
def parseFlags (args : Args) : List JsString → Except JsString Args
  | [] => .ok args
  | [flag] =>
      if flag ∈ flags then .error (flag ++ lit " requires a value")
      else .error (lit "unrecognized argument: " ++ flag)
  | flag :: value :: argv => do
      let args ← setFlag args flag value
      parseFlags args argv

/-- `parseArgs` -/
def parseArgs (argv : List JsString) : Except JsString Args := do
  let args ← parseFlags defaultArgs argv
  throwIf (args.audit = true ∧ args.policy ≠ .allow) (lit "--audit on requires --policy allow")
  if args.policy = .allow then do
    throwIf (args.connectionString = none) (lit "--policy allow requires --connection-string")
    throwIf (args.trustedTenantId = none) (lit "--policy allow requires --trusted-tenant-id")
    throwIf (args.trustedActorId = none) (lit "--policy allow requires --trusted-actor-id")
    return args
  else return args

/-! ## The envelope -/

/-- `/^[A-Za-z0-9+/]*={0,2}$/` -/
def isBase64 (s : JsString) : Bool :=
  let rest := s.dropWhile fun u => u.inRange 'A' 'Z' || u.inRange 'a' 'z' || u.inRange '0' '9' ||
    u.isChar '+' || u.isChar '/'
  rest.length ≤ 2 && rest.all (·.isChar '=')

/-- What is read of the envelope: the scope as it was printed, and the body. -/
structure Envelope where
  scope : Json
  body : List UInt8

/-- `checkEnvelope`, with what is read of a valid envelope. -/
def checkEnvelope : Json → Except JsString Envelope
  | .obj members =>
      match members.lookup (lit "scope") with
      | some (.obj scope) =>
          match members.lookup (lit "bodyBase64") with
          | some (.str bodyBase64) =>
              if isBase64 bodyBase64 then
                -- what decodes is taken as `Buffer.from` takes it, without an error
                .ok ⟨.obj scope, Base64.decode (toScalars bodyBase64)⟩
              else .error (lit "envelope.bodyBase64 must be a base64 string")
          | _ => .error (lit "envelope.bodyBase64 must be a base64 string")
      | _ => .error (lit "envelope.scope must be a JSON object")
  | _ => .error (lit "envelope must be a JSON object")

/-- A name or value in a list of headers. -/
def headerPart : JsValue → HeaderPart
  | .string s => .string s
  | _ => .other

/-- The headers the profile adapter is given, when they are an array. -/
def headersOf : JsValue → Option (List (Option (List HeaderPart)))
  | .array _ pairs _ => some (pairs.map fun pair =>
      match pair.2 with
      | .array _ parts _ => some (parts.map fun part => headerPart part.2)
      | _ => none)
  | _ => none

/-- The scope the profile adapter is given: it reads nothing of one that is no ordinary object. -/
def scopeOf : JsValue → Scope
  | .object .objectPrototype props =>
      ⟨JsValue.get props (lit "type"), JsValue.get props (lit "method"),
        JsValue.get props (lit "path"), headersOf (JsValue.get props (lit "headers"))⟩
  | _ => ⟨.undefined, .undefined, .undefined, none⟩

/-! ## Identities -/

section Identities

variable (text : JsValue → Except NativeError JsString) (toLowerCase : JsString → JsString)

/-- `headerValue`, over the pairs of an array. -/
def headerValue (name : JsString) :
    List (Option Descriptor × JsValue) → Except NativeError (Option JsString)
  | [] => .ok none
  | (_, .array _ [(_, key), (_, value)] _) :: pairs => do
      -- the text of a key may throw, before a later pair is looked at
      let key ← text key
      if toLowerCase key = name then do
        let value ← text value
        return some value
      else headerValue name pairs
  | _ :: pairs => headerValue name pairs

/-- `scope.headers`, when it is an array. -/
def pairsOf : JsValue → List (Option Descriptor × JsValue)
  | .object _ props =>
      match JsValue.get props (lit "headers") with
      | .array _ pairs _ => pairs
      | _ => []
  | _ => []

/-- `headerValue(scope.headers, name) || fallback` -/
def headerOr (scope : JsValue) (name fallback : String) : Except NativeError JsString := do
  let value ← headerValue text toLowerCase (lit name) (pairsOf scope)
  match value with
  | some (u :: s) => return u :: s
  | _ => return lit fallback

/-- The tenant and the actor of the process: the trusted ones in allow mode, those of the request
otherwise. -/
def identityOf (args : Args) (scope : JsValue) : Except NativeError (JsString × JsString) :=
  match args.policy with
  | .allow => .ok (args.trustedTenantId.getD [], args.trustedActorId.getD [])
  | .deny => do
      let tenant ←
        headerOr text toLowerCase scope "x-tenant-id" "22222222-2222-4222-8222-222222222222"
      let actor ← headerOr text toLowerCase scope "x-actor-id" "js-boundary-runner"
      return (tenant, actor)

end Identities

/-- `new Principal(new TenantId(tenant), new ActorId(actor))` -/
def principalOf (identity : JsString × JsString) : Except NativeError Principal := do
  let tenantId ← TenantId.ofRaw (.string identity.1)
  let actorId ← ActorId.ofRaw (.string identity.2)
  return ⟨tenantId, actorId⟩

/-- `ALLOW_CANDIDATE` and `DENY_CANDIDATE` -/
def candidate : Policy → JsValue
  | .allow => CreateCustomerPipeline.literal
      [("policyId", .string (lit "allow.everything")), ("effect", .string (lit "allow")),
        ("applies", .boolean true)]
  | .deny => CreateCustomerPipeline.literal
      [("policyId", .string (lit "deny.everything")), ("effect", .string (lit "deny")),
        ("applies", .boolean true)]

/-! ## A process -/

/-- What a process calls beside the database. -/
inductive ProcessCall where
  /-- `Date.now()` -/
  | dateNow
  /-- `randomBytes(16)` -/
  | randomBytes
  /-- `new Date().toISOString()` -/
  | isoNow
  /-- `process.stdout.write(text)` -/
  | write (text : JsString)
  /-- `composition.close()` -/
  | close

/-- What a call of the process is fulfilled with. -/
@[reducible]
def ProcessCall.Answer : ProcessCall → Type
  | dateNow => ℕ
  | randomBytes => List UInt8
  | isoNow => JsString
  | _ => Unit

/-- What a process calls: the pools of its composition, and its own calls. -/
abbrev runner : Interface :=
  ⟨Call ⊕ ProcessCall, Sum.elim Call.Answer ProcessCall.Answer, Thrown⟩

/-- What the composition is given for each of its calls: collaborators of the process, the pools,
and a `send` that collects the events. -/
def collaborators (policy : Policy) (identity : JsString × JsString) :
    (c : asgi.Call) → Program runner (asgi.Answer c)
  | .inl .current => Program.sync (orThrow (some <$> principalOf identity))
  | .inl (.candidatesFor _) =>
      Program.sync (.ok (.array .arrayPrototype [(some .data, candidate policy)] 0))
  | .inl (.evaluateInvariants _) => Program.sync (.ok (.truthy (.boolean true)))
  | .inl .idGenerator => do
      let now : ℕ ← Program.ask (I := runner) (.inr .dateNow)
      let random : List UInt8 ← Program.ask (I := runner) (.inr .randomBytes)
      return .string (mintUlid now random)
  | .inl .now => do
      let instant : JsString ← Program.ask (I := runner) (.inr .isoNow)
      return .string instant
  -- the calls of the adapters are those of the process to the database
  | .inl (.chainHead tenantId) => Program.ask (I := runner) (.inl (.chainHead tenantId))
  | .inl (.append entry) => Program.ask (I := runner) (.inl (.append entry))
  | .inl .connect => Program.ask (I := runner) (.inl .connect)
  | .inl (.query client statement) => Program.ask (I := runner) (.inl (.query client statement))
  | .inl (.release client) => Program.ask (I := runner) (.inl (.release client))
  | .inr _ => Program.sync (.ok ())

/-- The base64 text of bytes, as a JSON value. -/
def base64Text (bytes : ByteArray) : Json := .str (ofText (Base64.encode bytes.toList))

/-- An event of `encodeEventsForStdout`. -/
def encodeEvent : SentEvent → Json
  | .start status headers => .obj
      [(lit "type", .str (lit "http.response.start")), (lit "status", .num (.ofInt status)),
        (lit "headersBase64", .arr (headers.map fun header =>
          .arr [base64Text header.1, base64Text header.2]))]
  | .body body moreBody => .obj
      [(lit "type", .str (lit "http.response.body")), (lit "bodyBase64", base64Text body),
        (lit "more_body", .bool moreBody)]

/-- `JSON.stringify(encodeEventsForStdout(events))` -/
def encodeEventsForStdout (events : List SentEvent) : JsString :=
  ofText (Json.arr (events.map encodeEvent)).stringify

/-- Why a process fails. -/
inductive Failure where
  | malformedArgs (reason : JsString)
  | malformedJson
  | envelope (reason : JsString)
  | unhandled (error : Thrown)

/-- How a process ends: with the exit code 0, or with 1 and a message. -/
inductive Exit where
  | success
  | failure (failure : Failure)

section Process

variable (sha256 : ByteArray → JsString) (text : JsValue → Except NativeError JsString)
  (toLowerCase : JsString → JsString)

/-- The ports of the composition the arguments select. -/
def portsOf (args : Args) : CreateCustomerPipeline.Ports :=
  if args.policy = .allow ∧ args.audit = true then auditedPorts else plainPorts

/-- The application on the envelope, with what it has sent. -/
def respond (args : Args) (identity : JsString × JsString) (scope : JsValue)
    (body : List UInt8) : Program runner (List SentEvent) :=
  (app sha256 (portsOf args) none (scopeOf scope) [.ordinary (.string (lit "http.request"))
    (.bytes body) (some (.boolean false))]).answeredBy (collaborators args.policy identity)

/-- `main` from the scope on. -/
def serve (args : Args) (envelope : Envelope) : Program runner Exit := do
  let scope := ScopeEnvelope.unwrapJsonSafe envelope.scope
  let identity ← Program.sync (orThrow (identityOf text toLowerCase args scope))
  Program.ensuring
    (do
      let sentEvents ← respond sha256 args identity scope envelope.body
      let _ : Unit ← Program.ask (I := runner) (.inr (.write (encodeEventsForStdout sentEvents)))
      return .success)
    (Program.ask (I := runner) (.inr .close))

/-- `main`, on the arguments and the bytes of the standard input. -/
def main (argv : List JsString) (stdin : List UInt8) : Program runner Exit :=
  match parseArgs argv with
  | .error reason => return .failure (.malformedArgs reason)
  | .ok args =>
      match jsonParse (utf8Decode stdin) with
      | none => return .failure .malformedJson
      | some envelope =>
          match checkEnvelope envelope with
          | .error reason => return .failure (.envelope reason)
          | .ok envelope =>
              -- `main().catch`: whatever is thrown ends the process with a code
              tryCatch (serve sha256 text toLowerCase args envelope) fun error =>
                return .failure (.unhandled error)

end Process

end MetaframerKernel.CreateCustomerAsgiRunner
