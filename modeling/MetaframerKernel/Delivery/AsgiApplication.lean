import MetaframerKernel.Async.Answers
import MetaframerKernel.Delivery.CreateCustomerRequestHandler
import MetaframerKernel.Js.Utf8

/-!
# The ASGI application

A request from the events of its scope and body to the events of its response: the profile adapter
decodes it, the router and the HTTP message adapter hand it to the request handler, and the response
goes back through the checks of the profile adapter.

## Main definitions

* `Scope`, `ReceiveEvent`, `SentEvent`: what the application is given and what it sends;
* `HttpMessageAdapter.handle`, `StandardRouter.handle`, `AsgiCoreProfile.handle`: the three layers
  around the request handler;
* `app`: the application of `composeAsgiOver`.
-/

namespace MetaframerKernel

open Js Async CreateCustomerPipeline

/-! ## Texts -/

/-- What `TextDecoder` leaves of a text: not its byte order mark. -/
def withoutByteOrderMark : List Char → List Char
  | c :: cs => if c = Char.ofNat 0xFEFF then cs else c :: cs
  | [] => []

/-- `new TextDecoder("utf-8", { fatal: false }).decode(bytes)` -/
def decodeText (bytes : List UInt8) : JsString := ofText (withoutByteOrderMark (utf8Decode bytes))

/-- The punctuation of an HTTP token. -/
def tokenPunctuation : JsString := lit "!#$%&'*+-.^_`|~"

/-- `/^[a-z0-9!#$%&'*+\-.^_`|~]+$/` -/
def isHeaderNameToken (s : JsString) : Bool :=
  !s.isEmpty && s.all fun u =>
    u.inRange 'a' 'z' || u.inRange '0' '9' || tokenPunctuation.contains u

/-- `/^[A-Z0-9!#$%&'*+\-.^_`|~]+$/` -/
def isHttpToken (s : JsString) : Bool :=
  !s.isEmpty && s.all fun u =>
    u.inRange 'A' 'Z' || u.inRange '0' '9' || tokenPunctuation.contains u

/-- `/^[\x20-\x7E]*$/` -/
def isPrintable (s : JsString) : Bool := s.all fun u => 0x20 ≤ u.val && u.val ≤ 0x7E

/-! ## Messages -/

/-- The decoded headers: the own properties of an ordinary object. -/
abbrev Headers := List (JsString × JsString)

/-- A message. -/
structure Message where
  method : JsString
  path : JsString
  headers : Headers
  body : JsValue

/-- A response on its way to the profile adapter. -/
structure HttpResponse where
  status : ℕ
  headers : Headers
  body : Json

/-- `headerValue`; a decoded header name is a lower-case token, which `toLowerCase` leaves. -/
def headerValue (headers : Headers) (name : String) : Option JsString := headers.lookup (lit name)

/-- A header value, or `undefined`. -/
def optionalString : Option JsString → JsValue
  | some s => .string s
  | none => .undefined

/-! ## The HTTP message adapter -/

/-- The JSON of an error envelope. -/
def CreateCustomerPipeline.ErrorEnvelope.toJson (e : ErrorEnvelope) : Json :=
  .obj [(lit "code", .str e.code), (lit "message", .str e.message),
    (lit "requestId", .str e.requestId), (lit "retryable", .bool e.retryable)]

/-- `toJSON` of a commit receipt. -/
def CommitReceipt.toJson (r : CommitReceipt) : Json :=
  .obj [(lit "requestId", .str r.requestId), (lit "tenantId", .str r.tenantId),
    (lit "resourceId", .str r.resourceId), (lit "outcome", .str r.outcome),
    (lit "committedAt", .str r.committedAt), (lit "auditId", .str r.auditId),
    (lit "outboxEventIds", .arr (r.outboxEventIds.map .str)),
    (lit "idempotencyKey", .str r.idempotencyKey)]

/-- The JSON of a response body. -/
def ResponseBody.toJson : ResponseBody → Json
  | .commitReceipt receipt => .obj [(lit "commitReceipt", receipt.toJson)]
  | .error e => .obj [(lit "error", e.toJson)]

namespace HttpMessageAdapter

/-- `isValidMessageShape` on a message of the profile adapter: its body is an ordinary object. -/
def isValidMessageShape (message : Message) : Bool :=
  match message.body with
  | .object .objectPrototype _ => true
  | _ => false

/-- `genericResponse`; a member that is `undefined` is not printed. -/
def genericResponse (status : ℕ) (requestId : Option JsString) : HttpResponse where
  status := status
  headers :=
    -- an empty request id is not repeated in a header
    match requestId with
    | some (u :: s) =>
        [(lit "content-type", lit "application/json"), (lit "x-request-id", u :: s)]
    | _ => [(lit "content-type", lit "application/json")]
  body := .obj [(lit "error", .obj (
    [(lit "code", .str (
        if status = 405 then lit "METHOD_NOT_ALLOWED"
        else if status = 404 then lit "NOT_FOUND"
        else lit "MESSAGE_SHAPE_INVALID")),
      (lit "message", .str (
        if status = 405 then lit "only POST is supported"
        else if status = 404 then lit "only /customers is supported"
        else lit "the message did not satisfy the framework-neutral HTTP message shape"))] ++
    (requestId.map fun s => (lit "requestId", Json.str s)).toList ++
    [(lit "retryable", .bool false)]))]

/-- `toDeliveryRequest` -/
def toDeliveryRequest (message : Message) : JsValue :=
  literal
    [("requestId", optionalString (headerValue message.headers "x-request-id")),
      ("actorId", optionalString (headerValue message.headers "x-actor-id")),
      ("tenantId", optionalString (headerValue message.headers "x-tenant-id")),
      ("payload", message.body),
      ("idempotencyKey", optionalString (headerValue message.headers "idempotency-key"))]

/-- `toHttpResponse` -/
def toHttpResponse (response : Response) : HttpResponse where
  status := response.status
  headers := [(lit "content-type", lit "application/json"), (lit "x-request-id", response.requestId)]
  body := response.body.toJson

/-- `handle` -/
def handle (sha256 : ByteArray → JsString) (ports : Ports) (message : Message) :
    Program kernel HttpResponse :=
  if !isValidMessageShape message then return genericResponse 400 none
  else if message.method ≠ lit "POST" then
    return genericResponse 405 (headerValue message.headers "x-request-id")
  else if message.path ≠ lit "/customers" then
    return genericResponse 404 (headerValue message.headers "x-request-id")
  else do
    let response ← MetaframerKernel.handle sha256 ports (toDeliveryRequest message)
    return toHttpResponse response

end HttpMessageAdapter

/-! ## The router -/

namespace StandardRouter

/-- A route. -/
structure Route where
  method : JsString
  path : JsString
  handler : Message → Program kernel HttpResponse

/-- `errorResponse` -/
def errorResponse (status : ℕ) (code : String) : HttpResponse where
  status := status
  headers := [(lit "content-type", lit "application/json")]
  body := .obj [(lit "error",
    .obj [(lit "code", .str (lit code)), (lit "retryable", .bool false)])]

/-- `handle` -/
def handle (routes : List Route) (message : Message) : Program kernel HttpResponse :=
  match routes.filter (·.path = message.path) with
  | [] => return errorResponse 404 "ROUTE_NOT_FOUND"
  | routesForPath =>
      match routesForPath.find? (·.method = message.method) with
      | none => return errorResponse 405 "METHOD_NOT_SUPPORTED"
      | some route => route.handler message

end StandardRouter

/-! ## The profile adapter -/

/-- A name or value of a header pair. -/
inductive HeaderPart where
  | string (s : JsString)
  | bytes (bytes : List UInt8)
  | other

/-- An ordinary scope object, by the members that are read: `headers` is an array of arrays, or of
other things, where it is one. -/
structure Scope where
  type : JsValue
  method : JsValue
  path : JsValue
  headers : Option (List (Option (List HeaderPart)))

/-- The `body` of a received event. -/
inductive ReceivedBody where
  | undefined
  | bytes (bytes : List UInt8)
  | other

/-- What `receive` gives: an ordinary object, by the members that are read, or anything else. -/
inductive ReceiveEvent where
  | ordinary (type : JsValue) (body : ReceivedBody) (moreBody : Option JsValue)
  | other

/-- What `send` is called with. -/
inductive SentEvent where
  | start (status : ℕ) (headers : List (ByteArray × ByteArray))
  | body (body : ByteArray) (moreBody : Bool)

/-- The calls of the application: those of the kernel, and `send`. -/
abbrev asgi : Interface := kernel.extend SentEvent

namespace AsgiCoreProfile

/-- `decodeHeaderPart` -/
def decodeHeaderPart : HeaderPart → Option JsString
  | .string s => some s
  | .bytes bytes => some (decodeText bytes)
  | .other => none

/-- One pair of `decodeHeaders`. -/
def decodePair : Option (List HeaderPart) → Option (JsString × JsString)
  | some [name, value] => do
      let name ← decodeHeaderPart name
      let value ← decodeHeaderPart value
      if isHeaderNameToken name then some (name, value) else none
  | _ => none

/-- `decodeHeaders` -/
def decodeHeaders (headers : Option (List (Option (List HeaderPart)))) : Option Headers := do
  let pairs ← headers
  let decoded ← pairs.mapM decodePair
  return assignMembers decoded

/-- The method and path of a valid scope. -/
def isValidScope (scope : Scope) : Option (JsString × JsString) :=
  match scope.type, scope.method, scope.path, scope.headers with
  | .string type, .string method, .string path, some _ =>
      if type = lit "http" ∧ isHttpToken method ∧ path.head? = (lit "/").head? then
        some (method, path)
      else none
  | _, _, _, _ => none

/-- The events of a response, before they are encoded. -/
structure ResponseEvents where
  status : ℕ
  headers : Headers
  body : Json

/-- `profileErrorEvents` -/
def profileErrorEvents : ResponseEvents where
  status := 400
  headers := [(lit "content-type", lit "application/json")]
  body := .obj [(lit "error",
    .obj [(lit "code", .str (lit "PROFILE_SCOPE_INVALID")), (lit "retryable", .bool false)])]

/-- `checkRouterResponse` -/
def checkRouterResponse (response : HttpResponse) : Except NativeError Unit := do
  throwIf (response.status < 100 ∨ 599 < response.status) (.typeError
    (lit "AsgiCoreProfileAdapter router response status must be an integer in range 100..599"))
  -- the headers are checked in the order they are enumerated, the name before the value
  (ownOrder response.headers).forM fun p => do
    throwIf (isHeaderNameToken p.1 = false) (.typeError
      (lit ("AsgiCoreProfileAdapter router response header names must be valid lower-case " ++
        "HTTP tokens")))
    throwIf (isPrintable p.2 = false) (.typeError
      (lit ("AsgiCoreProfileAdapter router response header values must be safe printable ASCII " ++
        "strings")))

/-- `toResponseEvents` -/
def toResponseEvents (response : HttpResponse) : Except NativeError ResponseEvents := do
  checkRouterResponse response
  return ⟨response.status, sortMembers (ownOrder response.headers), response.body⟩

/-- `encodeEvents` with the encoders of the composition. -/
def encodeEvents (events : ResponseEvents) : List SentEvent :=
  [.start events.status (events.headers.map fun p => (utf8Bytes p.1, utf8Bytes p.2)),
    .body (utf8Bytes (ofText events.body.stringify)) false]

/-- `handle` -/
def handle (routes : List StandardRouter.Route) (scope : Scope) (body : JsValue) :
    Program kernel ResponseEvents :=
  match isValidScope scope, decodeHeaders scope.headers with
  | some (method, path), some headers => do
      let response ← StandardRouter.handle routes { method, path, headers, body }
      Program.sync (orThrow (toResponseEvents response))
  | _, _ => return profileErrorEvents

/-- `for (const event of events) await send(event)` -/
def sendAll : List SentEvent → Program asgi Unit
  | [] => return ()
  | event :: events => do
      let _ : Unit ← Program.ask (I := asgi) (.inr event)
      sendAll events

/-- `call` -/
def call (routes : List StandardRouter.Route) (scope : Scope) (body : JsValue) :
    Program asgi (List SentEvent) := do
  let rawEvents ← (handle routes scope body).widen
  let events := encodeEvents rawEvents
  sendAll events
  return events

/-- `sendErrorEvents` -/
def sendErrorEvents : Program asgi (List SentEvent) := do
  let events := encodeEvents profileErrorEvents
  sendAll events
  return events

/-- The chunk of an event: `event.body`, or an empty one where it is `undefined`. -/
def chunkOf : ReceivedBody → Option (List UInt8)
  | .undefined => some []
  | .bytes bytes => some bytes
  | .other => none

/-- The loop of `callFromReceive`, over what `receive` gives: the bytes of the body, where no event
is refused. Past the stream there is `http.disconnect`, which is no request event. -/
def receiveBody (maxBodyBytes : Option ℕ) (received : List UInt8) :
    List ReceiveEvent → Option (List UInt8)
  | .ordinary (.string type) body moreBody :: events =>
      if type ≠ lit "http.request" then none
      else
        match chunkOf body with
        | none => none
        | some chunk =>
            -- the limit is on what has been received so far, the new chunk with it
            if maxBodyBytes.any (· < (received ++ chunk).length) then none
            else
              match moreBody with
              -- a message without `more_body` is the last
              | none => some (received ++ chunk)
              | some (.boolean false) => some (received ++ chunk)
              | some (.boolean true) => receiveBody maxBodyBytes (received ++ chunk) events
              | some _ => none
  | _ => none

/-- `callFromReceive` -/
def callFromReceive (routes : List StandardRouter.Route)
    (decodeBody : List UInt8 → Option JsValue) (maxBodyBytes : Option ℕ) (scope : Scope)
    (events : List ReceiveEvent) : Program asgi (List SentEvent) :=
  if (isValidScope scope).isNone ∨ (decodeHeaders scope.headers).isNone then sendErrorEvents
  else
    match (receiveBody maxBodyBytes [] events).bind decodeBody with
    | none => sendErrorEvents
    | some body => call routes scope body

end AsgiCoreProfile

/-! ## The application -/

/-- `decodeJsonBody`, where it does not throw. -/
def decodeJsonBody (bytes : List UInt8) : Option JsValue :=
  if bytes.isEmpty then some (literal [])
  else
    ((utf8DecodeFatal? bytes).bind fun text => jsonParse (withoutByteOrderMark text)).bind fun
      | .obj members => some (.ofJson (.obj members))
      | _ => none

section Application

variable (sha256 : ByteArray → JsString) (ports : Ports)

/-- The one route of the application. -/
def routes : List StandardRouter.Route :=
  [⟨lit "POST", lit "/customers", HttpMessageAdapter.handle sha256 ports⟩]

/-- `app` of `composeAsgiOver`, on what `receive` gives. -/
def app (maxBodyBytes : Option ℕ) (scope : Scope) (events : List ReceiveEvent) :
    Program asgi (List SentEvent) :=
  AsgiCoreProfile.callFromReceive (routes sha256 ports) decodeJsonBody maxBodyBytes scope events

end Application

end MetaframerKernel
