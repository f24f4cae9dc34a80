import MetaframerKernel.Async.Loops
import MetaframerKernel.Delivery.AsgiApplication

/-!
# The request body of the profile adapter

`callFromReceive` of the profile adapter for any router, decoder and encoders, which are all called
with what they are given and answer as they like. The body comes in as a stream of events, and
nothing that follows depends on where the stream was cut.

## Main definitions

* `Arguments`, `Options`: what `callFromReceive` is given, before and after its checks;
* `ProfileCall`: the functions it calls;
* `callFromReceive`: the program;
* `IsSplit`, `Breaks`: a byte string cut into request events, and a stream with an event that is
  malformed.

## Main results

* `receiveBody_of_isSplit`, `receiveBody_of_breaks`: what is read from such streams;
* `callFromReceive_chunking`: the body is read independently of its chunks;
* `answeredBy_callFromReceive`: with the functions of the composition this is the application.
-/

namespace MetaframerKernel.AsgiCoreProfileAdapter

open Js Async Program AsgiCoreProfile

/-! ## Arguments -/

/-- The arguments of `callFromReceive` beside the scope. -/
structure Arguments where
  receive : JsValue
  send : JsValue
  decodeBody : JsValue
  encodeResponseBody : JsValue
  encodeResponseHeader : JsValue
  maxBodyBytes : JsValue

/-- What the checks leave to tell apart. -/
structure Options where
  /-- `decodeBody !== undefined` -/
  decodesBody : Bool
  /-- `encodeResponseBody !== undefined` -/
  encodesBody : Bool
  /-- `encodeResponseHeader !== undefined` -/
  encodesHeaders : Bool
  maxBodyBytes : Option ℕ

/-- `typeof value === "function"` -/
def isFunction : JsValue → Bool
  | .function => true
  | _ => false

/-- A function that need not be given. -/
def checkFunction (name : String) : JsValue → Except NativeError Bool
  | .undefined => .ok false
  | .function => .ok true
  | _ => .error (.typeError (lit ("AsgiCoreProfileAdapter callFromReceive " ++ name ++
      " must be a function when provided")))

/-- The limit, which need not be given. -/
def checkMaxBodyBytes : JsValue → Except NativeError (Option ℕ)
  | .undefined => .ok none
  | .number n =>
      -- the negative zero is an integer that is not negative
      match n.safeInteger? with
      | some (.ofNat limit) => .ok (some limit)
      | _ => .error notSafe
  | _ => .error notSafe
where
  notSafe : NativeError := .typeError (lit ("AsgiCoreProfileAdapter callFromReceive " ++
    "maxBodyBytes must be a non-negative safe integer when provided"))

/-- The checks of `callFromReceive`. -/
def checkArguments (arguments : Arguments) : Except NativeError Options := do
  throwIf (isFunction arguments.receive = false ∨ isFunction arguments.send = false) (.typeError
    (lit "AsgiCoreProfileAdapter callFromReceive needs receive and send functions"))
  let decodesBody ← checkFunction "decodeBody" arguments.decodeBody
  let encodesBody ← checkFunction "encodeResponseBody" arguments.encodeResponseBody
  let encodesHeaders ← checkFunction "encodeResponseHeader" arguments.encodeResponseHeader
  let maxBodyBytes ← checkMaxBodyBytes arguments.maxBodyBytes
  return { decodesBody, encodesBody, encodesHeaders, maxBodyBytes }

/-! ## Calls -/

/-- The body that the router is given: what `decodeBody` returned, or the bytes. -/
inductive RequestBody where
  | bytes (bytes : List UInt8)
  | value (value : JsValue)

/-- The message that the router is given. -/
structure RouterMessage where
  method : JsString
  path : JsString
  headers : Headers
  body : RequestBody

/-- A part of a response event: bytes, or the value as it is where there is no encoder. -/
inductive Encoded (α : Type) where
  | bytes (bytes : ByteArray)
  | plain (value : α)

/-- What `send` is called with. -/
inductive ResponseEvent where
  | start (status : ℕ) (headers : List (Encoded JsString × Encoded JsString))
  | body (body : Encoded Json) (moreBody : Bool)

/-- What `callFromReceive` calls beside `receive`. -/
inductive ProfileCall where
  | decodeBody (merged : List UInt8)
  | routerHandle (message : RouterMessage)
  | encodeResponseBody (body : Json)
  | encodeResponseHeader (text : JsString)
  | send (event : ResponseEvent)

/-- What a call returns; an encoder a `Uint8Array` or anything else. -/
@[reducible]
def ProfileCall.Answer : ProfileCall → Type
  | decodeBody _ => JsValue
  | routerHandle _ => HttpResponse
  | encodeResponseBody _ => Option ByteArray
  | encodeResponseHeader _ => Option ByteArray
  | send _ => Unit

/-- What the program calls. -/
abbrev profile : Interface := ⟨ProfileCall, ProfileCall.Answer, Thrown⟩

/-! ## The program -/

/-- `checkEncodedBytes` -/
def checkEncodedBytes (value : Option ByteArray) (label : String) : Except NativeError ByteArray :=
  match value with
  | some bytes => .ok bytes
  | none => .error (.typeError
      (lit ("AsgiCoreProfileAdapter " ++ label ++ " must return a Uint8Array")))

/-- A name or value of a response header. -/
def encodeHeaderPart (text : JsString) : Program profile ByteArray := do
  let value : Option ByteArray ← Program.ask (I := profile) (.encodeResponseHeader text)
  sync (orThrow (checkEncodedBytes value "encodeResponseHeader"))

/-- A header pair. -/
def encodePair (pair : JsString × JsString) :
    Program profile (Encoded JsString × Encoded JsString) := do
  let name ← encodeHeaderPart pair.1
  let value ← encodeHeaderPart pair.2
  return (.bytes name, .bytes value)

/-- The headers of a response. -/
def encodeHeaders (options : Options) (headers : Headers) :
    Program profile (List (Encoded JsString × Encoded JsString)) :=
  if options.encodesHeaders then headers.mapM encodePair
  else return headers.map fun pair => (.plain pair.1, .plain pair.2)

/-- The body of a response. -/
def encodeBody (options : Options) (body : Json) : Program profile (Encoded Json) :=
  if options.encodesBody then do
    let value : Option ByteArray ← Program.ask (I := profile) (.encodeResponseBody body)
    let bytes ← sync (orThrow (checkEncodedBytes value "encodeResponseBody"))
    return .bytes bytes
  else return .plain body

/-- `encodeEvents` -/
def encodeEvents (options : Options) (events : ResponseEvents) :
    Program profile (List ResponseEvent) := do
  let headers ← encodeHeaders options events.headers
  let body ← encodeBody options events.body
  return [.start events.status headers, .body body false]

/-- `for (const event of events) await send(event)` -/
def sendAll : List ResponseEvent → Program profile Unit
  | [] => return ()
  | event :: events => do
      let _ : Unit ← Program.ask (I := profile) (.send event)
      sendAll events

/-- Events are encoded and sent. -/
def sendEncoded (options : Options) (rawEvents : ResponseEvents) :
    Program profile (List ResponseEvent) := do
  let events ← encodeEvents options rawEvents
  sendAll events
  return events

/-- `sendErrorEvents` -/
def sendErrorEvents (options : Options) : Program profile (List ResponseEvent) :=
  sendEncoded options profileErrorEvents

/-- `handle` -/
def handle (scope : Scope) (body : RequestBody) : Program profile ResponseEvents :=
  match isValidScope scope, decodeHeaders scope.headers with
  | some (method, path), some headers => do
      let response : HttpResponse ←
        Program.ask (I := profile) (.routerHandle { method, path, headers, body })
      sync (orThrow (toResponseEvents response))
  | _, _ => return profileErrorEvents

/-- `call` -/
def call (options : Options) (scope : Scope) (body : RequestBody) :
    Program profile (List ResponseEvent) := do
  let rawEvents ← handle scope body
  sendEncoded options rawEvents

/-- What becomes of the whole body. -/
def callWithBody (options : Options) (scope : Scope) (merged : List UInt8) :
    Program profile (List ResponseEvent) :=
  if options.decodesBody then do
    let body : Option JsValue ←
      tryCatch (some <$> Program.ask (I := profile) (.decodeBody merged)) fun _ => return none
    match body with
    | none => sendErrorEvents options
    | some body => call options scope (.value body)
  else call options scope (.bytes merged)

/-- `callFromReceive` -/
def callFromReceive (arguments : Arguments) (scope : Scope) (events : List ReceiveEvent) :
    Program profile (List ResponseEvent) := do
  let options ← sync (orThrow (checkArguments arguments))
  if (isValidScope scope).isNone ∨ (decodeHeaders scope.headers).isNone then
    sendErrorEvents options
  else
    match receiveBody options.maxBodyBytes [] events with
    | none => sendErrorEvents options
    | some merged => callWithBody options scope merged

/-! ## Streams -/

/-- A byte string cut into request events, of which the last and no other ends the body. -/
inductive IsSplit : List UInt8 → List ReceiveEvent → Prop
  | last {body : ReceivedBody} {chunk : List UInt8} {moreBody : Option JsValue} :
      chunkOf body = some chunk → moreBody = none ∨ moreBody = some (.boolean false) →
      IsSplit chunk [.ordinary (.string (lit "http.request")) body moreBody]
  | part {body : ReceivedBody} {chunk bytes : List UInt8} {events : List ReceiveEvent} :
      chunkOf body = some chunk → IsSplit bytes events →
      IsSplit (chunk ++ bytes)
        (.ordinary (.string (lit "http.request")) body (some (.boolean true)) :: events)

/-- An event of another type, with a body that is no bytes or with a `more_body` that is no
boolean. -/
inductive IsMalformed : ReceiveEvent → Prop
  | notOrdinary : IsMalformed .other
  | type {type : JsValue} {body : ReceivedBody} {moreBody : Option JsValue} :
      type ≠ .string (lit "http.request") → IsMalformed (.ordinary type body moreBody)
  | body {type : JsValue} {moreBody : Option JsValue} :
      IsMalformed (.ordinary type .other moreBody)
  | moreBody {type : JsValue} {body : ReceivedBody} {value : JsValue} :
      (∀ b, value ≠ .boolean b) → IsMalformed (.ordinary type body (some value))

/-- A malformed event comes before the end of the body. -/
inductive Breaks : List ReceiveEvent → Prop
  | here {event : ReceiveEvent} {events : List ReceiveEvent} :
      IsMalformed event → Breaks (event :: events)
  | later {body : ReceivedBody} {chunk : List UInt8} {events : List ReceiveEvent} :
      chunkOf body = some chunk → Breaks events →
      Breaks (.ordinary (.string (lit "http.request")) body (some (.boolean true)) :: events)

/-- The body is longer than the limit. -/
def Exceeds (limit : Option ℕ) (bytes : List UInt8) : Prop := limit.any (· < bytes.length) = true

instance (limit : Option ℕ) (bytes : List UInt8) : Decidable (Exceeds limit bytes) :=
  inferInstanceAs (Decidable (_ = true))

section Streams

variable {limit : Option ℕ} {received bytes : List UInt8} {events : List ReceiveEvent}

/-- A body that exceeds the limit still does with more bytes. -/
theorem Exceeds.append (h : Exceeds limit received) : Exceeds limit (received ++ bytes) := by
  cases limit with
  | none => cases h
  | some n =>
    have hlt : n < received.length := of_decide_eq_true h
    have hle : received.length ≤ (received ++ bytes).length := by
      rw [List.length_append]
      exact Nat.le_add_right ..
    exact decide_eq_true (Nat.lt_of_lt_of_le hlt hle)

/-- One event of the type, of a body that goes on or not. -/
theorem receiveBody_cons {body : ReceivedBody} {chunk : List UInt8} (moreBody : Option JsValue)
    (hchunk : chunkOf body = some chunk) :
    receiveBody limit received
        (.ordinary (.string (lit "http.request")) body moreBody :: events) =
      if Exceeds limit (received ++ chunk) then none
      else
        match moreBody with
        | none => some (received ++ chunk)
        | some (.boolean false) => some (received ++ chunk)
        | some (.boolean true) => receiveBody limit (received ++ chunk) events
        | some _ => none := by
  rw [receiveBody, if_neg (not_not_intro rfl), hchunk]
  rfl

/-- The limit is on the bytes altogether, wherever they were cut. -/
theorem receiveBody_of_isSplit (h : IsSplit bytes events) (after : List ReceiveEvent) :
    receiveBody limit received (events ++ after) =
      if Exceeds limit (received ++ bytes) then none else some (received ++ bytes) := by
  induction h generalizing received with
  | last hchunk hend =>
    rw [List.singleton_append, receiveBody_cons _ hchunk]
    rcases hend with rfl | rfl
    · rfl
    · rfl
  | @part body chunk bytes events hchunk _ ih =>
    rw [List.cons_append, receiveBody_cons _ hchunk]
    by_cases hchunks : Exceeds limit (received ++ chunk)
    · have hall : Exceeds limit (received ++ (chunk ++ bytes)) := by
        rw [← List.append_assoc]
        exact hchunks.append
      rw [if_pos hchunks, if_pos hall]
    · rw [if_neg hchunks, ← List.append_assoc]
      exact ih

/-- A malformed event ends the body. -/
theorem receiveBody_of_isMalformed {event : ReceiveEvent} (h : IsMalformed event) :
    receiveBody limit received (event :: events) = none := by
  -- by what is wrong with the event; an earlier check may refuse it for something else
  cases h with
  | notOrdinary => rfl
  | @type type body moreBody hne =>
    cases type with
    | string type =>
      have hother : type ≠ lit "http.request" := fun heq => hne (heq ▸ rfl)
      rw [receiveBody, if_pos hother]
    | _ => rfl
  | @body type moreBody =>
    cases type with
    | string type =>
      rw [receiveBody]
      split_ifs <;> rfl
    | _ => rfl
  | @moreBody type body value hvalue =>
    cases type with
    | string type =>
      rw [receiveBody]
      split_ifs
      · rfl
      · cases chunkOf body with
        | none => rfl
        | some chunk =>
          dsimp only
          split_ifs
          · rfl
          · cases value with
            | boolean b => exact absurd rfl (hvalue b)
            | _ => rfl
    | _ => rfl

/-- Nothing is read from a stream that breaks. -/
theorem receiveBody_of_breaks (h : Breaks events) : receiveBody limit received events = none := by
  induction h generalizing received with
  | here hmalformed => exact receiveBody_of_isMalformed hmalformed
  | later hchunk _ ih =>
    rw [receiveBody_cons _ hchunk]
    split_ifs
    · rfl
    · exact ih

end Streams

/-! ## What is called -/

/-- The bytes that `decodeBody` is called with. -/
def ProfileCall.merged? : ProfileCall → Option (List UInt8)
  | decodeBody merged => some merged
  | _ => none

/-- The message that the router is called with. -/
def ProfileCall.message? : ProfileCall → Option RouterMessage
  | routerHandle message => some message
  | _ => none

/-- What `decodeBody` was called with. -/
def decodings (past : History profile) : List (List UInt8) := past.filterMap (·.1.merged?)

/-- What the router was called with. -/
def routings (past : History profile) : List RouterMessage := past.filterMap (·.1.message?)

/-- A call that goes towards the response. -/
def ProfileCall.IsResponse (c : ProfileCall) : Prop := c.merged? = none ∧ c.message? = none

/-- Encoding a header part makes calls of the response only. -/
theorem calls_encodeHeaderPart (text : JsString) :
    Calls ProfileCall.IsResponse (encodeHeaderPart text) :=
  Calls.askBind ⟨rfl, rfl⟩ fun _ => trivial

/-- Encoding a header makes calls of the response only. -/
theorem calls_encodePair (pair : JsString × JsString) :
    Calls ProfileCall.IsResponse (encodePair pair) := by
  refine (calls_encodeHeaderPart pair.1).bind fun _ => ?_
  exact (calls_encodeHeaderPart pair.2).bind fun _ => trivial

/-- Encoding the headers makes calls of the response only. -/
theorem calls_encodeHeaders (options : Options) (headers : Headers) :
    Calls ProfileCall.IsResponse (encodeHeaders options headers) := by
  rw [encodeHeaders]
  split_ifs
  · exact Calls.mapM calls_encodePair headers
  · trivial

/-- Encoding the body makes calls of the response only. -/
theorem calls_encodeBody (options : Options) (body : Json) :
    Calls ProfileCall.IsResponse (encodeBody options body) := by
  rw [encodeBody]
  split_ifs
  · refine Calls.askBind ⟨rfl, rfl⟩ fun _ => ?_
    exact Calls.syncBind fun _ => trivial
  · trivial

/-- Encoding the events makes calls of the response only. -/
theorem calls_encodeEvents (options : Options) (events : ResponseEvents) :
    Calls ProfileCall.IsResponse (encodeEvents options events) := by
  refine (calls_encodeHeaders options events.headers).bind fun headers => ?_
  exact (calls_encodeBody options events.body).bind fun body => trivial

/-- Sending the events makes calls of the response only. -/
theorem calls_sendAll (events : List ResponseEvent) :
    Calls ProfileCall.IsResponse (sendAll events) := by
  induction events with
  | nil => trivial
  | cons event events ih => exact Calls.askBind ⟨rfl, rfl⟩ fun _ => ih

/-- Encoding and sending the events makes calls of the response only. -/
theorem calls_sendEncoded (options : Options) (events : ResponseEvents) :
    Calls ProfileCall.IsResponse (sendEncoded options events) := by
  refine (calls_encodeEvents options events).bind fun encoded => ?_
  exact (calls_sendAll encoded).bind fun _ => trivial

section Histories

variable {α σ : Type} {outside : Outside profile σ} {s : σ}

/-- Neither the decoder nor the router is called on the way of a response. -/
theorem decodings_of_calls {p : Program profile α} (h : Calls ProfileCall.IsResponse p) :
    decodings (Async.run outside p s).history = [] :=
  List.filterMap_eq_nil_iff.mpr fun ev hev =>
    ((h.of_steps (steps_run outside p s)).1 ev hev).1

/-- A program that makes calls of the response only routes nothing. -/
theorem routings_of_calls {p : Program profile α} (h : Calls ProfileCall.IsResponse p) :
    routings (Async.run outside p s).history = [] :=
  List.filterMap_eq_nil_iff.mpr fun ev hev =>
    ((h.of_steps (steps_run outside p s)).1 ev hev).2

/-- The history of a program that starts with a call. -/
theorem history_askBind (c : profile.Call) (f : profile.Answer c → Program profile α) :
    (Async.run outside (Program.ask c >>= f) s).history = ⟨c, (outside c s).1⟩ ::
      (Async.run outside (onFulfilled f (outside c s).1) (outside c s).2).history := rfl

end Histories

/-! ## Independence of the chunks -/

section Chunking

variable {σ : Type} {outside : Outside profile σ} {s : σ} {arguments : Arguments}
  {options : Options} {scope : Scope} {method path : JsString} {headers : Headers}
  {events : List ReceiveEvent} {bytes : List UInt8}

/-- Nothing is decoded or routed, and the events of the profile error are sent. -/
structure IsRefused (outside : Outside profile σ) (s : σ) (options : Options)
    (r : Run profile σ (List ResponseEvent)) : Prop where
  run_eq : r = Async.run outside (sendErrorEvents options) s
  decodings_eq : decodings r.history = []
  routings_eq : routings r.history = []

/-- Sending the error events is a refusal. -/
theorem isRefused_sendErrorEvents :
    IsRefused outside s options (Async.run outside (sendErrorEvents options) s) :=
  ⟨rfl, decodings_of_calls (calls_sendEncoded _ _), routings_of_calls (calls_sendEncoded _ _)⟩

/-- What the router is given as the body, where the decoder does not throw. -/
def requestBody? (outside : Outside profile σ) (s : σ) (options : Options) (bytes : List UInt8) :
    Option RequestBody :=
  if options.decodesBody then
    match (outside (.decodeBody bytes) s).1 with
    | .ok value => some (.value value)
    | .error _ => none
  else some (.bytes bytes)

/-- A body that is routed is routed once. -/
theorem routings_call (hscope : isValidScope scope = some (method, path))
    (hheaders : decodeHeaders scope.headers = some headers) (body : RequestBody) :
    decodings (Async.run outside (call options scope body) s).history = [] ∧
      routings (Async.run outside (call options scope body) s).history =
        [{ method, path, headers, body }] := by
  have hcall : call options scope body =
      Program.ask (I := profile) (.routerHandle { method, path, headers, body }) >>= fun response =>
        sync (orThrow (toResponseEvents response)) >>= sendEncoded options := by
    rw [call, handle, hscope, hheaders]
    exact bind_assoc _ _ _
  have hrest (r : Except Thrown HttpResponse) : Calls ProfileCall.IsResponse
      (onFulfilled (fun response : HttpResponse =>
        sync (orThrow (toResponseEvents response)) >>= sendEncoded options) r) := by
    cases r with
    | ok response => exact Calls.syncBind fun _ => calls_sendEncoded _ _
    | error e => trivial
  rw [hcall, history_askBind]
  exact ⟨decodings_of_calls (hrest _), congrArg (List.cons _) (routings_of_calls (hrest _))⟩

/-- An error of the decoder is a refusal. -/
theorem callWithBody_of_decodes (h : options.decodesBody = true) (merged : List UInt8) :
    callWithBody options scope merged =
      await (I := profile) (.decodeBody merged) fun answer =>
        match answer with
        | .ok value => call options scope (.value value)
        | .error _ => sendErrorEvents options := by
  rw [callWithBody, if_pos h]
  refine congrArg (await (I := profile) (.decodeBody merged)) (funext fun answer => ?_)
  cases answer with
  | ok value => rfl
  | error e => rfl

/-- The whole body is decoded once, where there is a decoder, and routed once. -/
theorem routings_callWithBody (hscope : isValidScope scope = some (method, path))
    (hheaders : decodeHeaders scope.headers = some headers) (merged : List UInt8) :
    decodings (Async.run outside (callWithBody options scope merged) s).history =
        (if options.decodesBody then [merged] else []) ∧
      routings (Async.run outside (callWithBody options scope merged) s).history =
        ((requestBody? outside s options merged).map fun body =>
          { method, path, headers, body }).toList := by
  rw [requestBody?]
  -- without a decoder of its own the adapter decodes JSON
  split_ifs with hdecodes
  · rw [callWithBody_of_decodes hdecodes, Async.run]
    cases (outside (.decodeBody merged) s).1 with
    | ok value =>
      obtain ⟨hdecodings, hroutings⟩ := @routings_call _ outside
        (outside (.decodeBody merged) s).2 options _ _ _ _ hscope hheaders (.value value)
      exact ⟨congrArg (List.cons merged) hdecodings, hroutings⟩
    | error e =>
      have hrefused := @isRefused_sendErrorEvents _ outside (outside (.decodeBody merged) s).2
        options
      exact ⟨congrArg (List.cons merged) hrefused.decodings_eq, hrefused.routings_eq⟩
  · rw [callWithBody, if_neg hdecodes]
    exact routings_call hscope hheaders _

/-- `callFromReceive` once the arguments are checked. -/
theorem callFromReceive_of_checked (harguments : checkArguments arguments = .ok options) :
    callFromReceive arguments scope events =
      if (isValidScope scope).isNone ∨ (decodeHeaders scope.headers).isNone then
        sendErrorEvents options
      else
        match receiveBody options.maxBodyBytes [] events with
        | none => sendErrorEvents options
        | some merged => callWithBody options scope merged := by
  rw [callFromReceive, harguments]
  rfl

/-- And once the scope is. -/
theorem callFromReceive_of_valid (harguments : checkArguments arguments = .ok options)
    (hscope : isValidScope scope = some (method, path))
    (hheaders : decodeHeaders scope.headers = some headers) :
    callFromReceive arguments scope events =
      match receiveBody options.maxBodyBytes [] events with
      | none => sendErrorEvents options
      | some merged => callWithBody options scope merged := by
  have hvalid : ¬((isValidScope scope).isNone ∨ (decodeHeaders scope.headers).isNone) := by
    rw [hscope, hheaders]
    exact fun h => h.elim Bool.false_ne_true Bool.false_ne_true
  rw [callFromReceive_of_checked harguments]
  exact if_neg hvalid

/-- A body that is decoded or routed was not refused. -/
theorem not_isRefused_callWithBody (hscope : isValidScope scope = some (method, path))
    (hheaders : decodeHeaders scope.headers = some headers) (merged : List UInt8) :
    ¬IsRefused outside s options
      (Async.run outside (callWithBody options scope merged) s) := by
  intro hrefused
  obtain ⟨hdecodings, hroutings⟩ := @routings_callWithBody _ outside s options _ _ _ _ hscope
    hheaders merged
  rw [hrefused.decodings_eq] at hdecodings
  rw [hrefused.routings_eq, requestBody?] at hroutings
  by_cases hdecodes : options.decodesBody = true
  · rw [if_pos hdecodes] at hdecodings
    cases hdecodings
  · rw [if_neg hdecodes] at hroutings
    cases hroutings

/-- Request bodies are read independently of how they are cut into events: what comes of a body is
the same for every split and whatever would follow; where it is within the limit, the decoder is
called with exactly its bytes and the router once with the message; it is refused if and only if it
is longer than the limit; and a stream that breaks is refused. -/
theorem callFromReceive_chunking (outside : Outside profile σ) (s : σ)
    (harguments : checkArguments arguments = .ok options)
    (hscope : isValidScope scope = some (method, path))
    (hheaders : decodeHeaders scope.headers = some headers) :
    (∀ bytes events events' after after', IsSplit bytes events → IsSplit bytes events' →
      Async.run outside (callFromReceive arguments scope (events ++ after)) s =
        Async.run outside (callFromReceive arguments scope (events' ++ after')) s) ∧
    (∀ bytes events after, IsSplit bytes events →
      let r := Async.run outside (callFromReceive arguments scope (events ++ after)) s
      (IsRefused outside s options r ↔ Exceeds options.maxBodyBytes bytes) ∧
      (¬Exceeds options.maxBodyBytes bytes →
        decodings r.history = (if options.decodesBody then [bytes] else []) ∧
        routings r.history = ((requestBody? outside s options bytes).map fun body =>
          { method, path, headers, body }).toList)) ∧
    ∀ events, Breaks events → IsRefused outside s options
      (Async.run outside (callFromReceive arguments scope events) s) := by
  -- what comes of a body depends on its bytes only
  have hsplit {bytes : List UInt8} {events : List ReceiveEvent} (h : IsSplit bytes events)
      (after : List ReceiveEvent) : callFromReceive arguments scope (events ++ after) =
        if Exceeds options.maxBodyBytes bytes then sendErrorEvents options
        else callWithBody options scope bytes := by
    rw [callFromReceive_of_valid harguments hscope hheaders, receiveBody_of_isSplit h,
      List.nil_append]
    split_ifs
    · rfl
    · rfl
  refine ⟨fun bytes events events' after after' h h' => by rw [hsplit h, hsplit h'],
    fun bytes events after h => ?_, fun events h => ?_⟩
  · rw [hsplit h]
    by_cases hexceeds : Exceeds options.maxBodyBytes bytes
    · rw [if_pos hexceeds]
      exact ⟨iff_of_true isRefused_sendErrorEvents hexceeds, fun hwithin => absurd hexceeds hwithin⟩
    · rw [if_neg hexceeds]
      exact ⟨iff_of_false (not_isRefused_callWithBody hscope hheaders bytes) hexceeds,
          fun _ => routings_callWithBody hscope hheaders bytes⟩
  · rw [callFromReceive_of_valid harguments hscope hheaders, receiveBody_of_breaks h]
    exact isRefused_sendErrorEvents

end Chunking

/-- Arguments with a decoder, encoders and no limit, for examples. -/
def sampleArguments : Arguments where
  receive := .function
  send := .function
  decodeBody := .function
  encodeResponseBody := .function
  encodeResponseHeader := .function
  maxBodyBytes := .undefined

/-- A scope, for examples. -/
def postScope : Scope where
  type := .string (lit "http")
  method := .string (lit "POST")
  path := .string (lit "/customers")
  headers := some []

/-- A router without routes, for examples. -/
def withoutRoutes : Outside profile Unit
  | .decodeBody _, s => (.ok .null, s)
  | .routerHandle _, s => (.ok (StandardRouter.errorResponse 404 "ROUTE_NOT_FOUND"), s)
  | .encodeResponseBody body, s => (.ok (some (utf8Bytes (ofText body.stringify))), s)
  | .encodeResponseHeader text, s => (.ok (some (utf8Bytes text)), s)
  | .send _, s => (.ok (), s)

/-- Two bytes in one event, and cut into three. -/
theorem callFromReceive_chunking_sample :
    let whole := Async.run withoutRoutes (callFromReceive sampleArguments postScope
      [.ordinary (.string (lit "http.request")) (.bytes [0x7B, 0x7D]) none]) ()
    let cut := Async.run withoutRoutes (callFromReceive sampleArguments postScope
      [.ordinary (.string (lit "http.request")) (.bytes [0x7B]) (some (.boolean true)),
        .ordinary (.string (lit "http.request")) .undefined (some (.boolean true)),
        .ordinary (.string (lit "http.request")) (.bytes [0x7D]) (some (.boolean false))]) ()
    whole = cut ∧ decodings cut.history = [[0x7B, 0x7D]] := by
  have hscope : isValidScope postScope = some (lit "POST", lit "/customers") := by decide +kernel
  have hchunking := callFromReceive_chunking withoutRoutes ()
    (show checkArguments sampleArguments = .ok ⟨true, true, true, none⟩ from rfl) hscope
    (show decodeHeaders postScope.headers = some [] from rfl)
  have hwhole : IsSplit [0x7B, 0x7D]
      [.ordinary (.string (lit "http.request")) (.bytes [0x7B, 0x7D]) none] := .last rfl (.inl rfl)
  -- the same bytes in three messages, one of them without a body
  have hcut : IsSplit ([0x7B] ++ ([] ++ [0x7D]))
      [.ordinary (.string (lit "http.request")) (.bytes [0x7B]) (some (.boolean true)),
        .ordinary (.string (lit "http.request")) .undefined (some (.boolean true)),
        .ordinary (.string (lit "http.request")) (.bytes [0x7D]) (some (.boolean false))] :=
    .part rfl (.part rfl (.last rfl (.inr rfl)))
  have hwithin : ¬Exceeds none [0x7B, 0x7D] := Bool.false_ne_true
  exact ⟨hchunking.1 _ _ _ [] [] hwhole hcut, ((hchunking.2.1 _ _ [] hcut).2 hwithin).1⟩

/-! ## The composition -/

/-- The bytes of a part, with the encoder of the composition. -/
def Encoded.toBytes {α : Type} (encode : α → ByteArray) : Encoded α → ByteArray
  | bytes b => b
  | plain value => encode value

/-- `encodeResponseBody` of the composition. -/
def encodeResponseBody (body : Json) : ByteArray := utf8Bytes (ofText body.stringify)

/-- A response event of the application. -/
def ResponseEvent.toSent : ResponseEvent → SentEvent
  | start status headers => .start status
      (headers.map fun pair => (pair.1.toBytes utf8Bytes, pair.2.toBytes utf8Bytes))
  | body b moreBody => .body (b.toBytes encodeResponseBody) moreBody

/-- The message of the router; bytes are an object of another prototype. -/
def RouterMessage.toMessage (message : RouterMessage) : Message where
  method := message.method
  path := message.path
  headers := message.headers
  body :=
    match message.body with
    | .value value => value
    | .bytes _ => .object .other []

/-- The functions that the composition passes. -/
def composition (routes : List StandardRouter.Route)
    (decodeBody : List UInt8 → Except Thrown JsValue) :
    (c : ProfileCall) → Program asgi c.Answer
  | .decodeBody merged => sync (decodeBody merged)
  | .routerHandle message => (StandardRouter.handle routes message.toMessage).widen
  | .encodeResponseBody body => return some (encodeResponseBody body)
  | .encodeResponseHeader text => return some (utf8Bytes text)
  | .send event => Program.ask (I := asgi) (.inr event.toSent)

section Composition

variable {routes : List StandardRouter.Route} {decodeBody : List UInt8 → Except Thrown JsValue}

/-- The events of a response, with the encoders of the composition. -/
def encodedEvents (events : ResponseEvents) : List ResponseEvent :=
  [.start events.status
      (events.headers.map fun pair => (.bytes (utf8Bytes pair.1), .bytes (utf8Bytes pair.2))),
    .body (.bytes (encodeResponseBody events.body)) false]

/-- What the composition encodes is what the profile sends. -/
theorem map_toSent_encodedEvents (events : ResponseEvents) :
    (encodedEvents events).map ResponseEvent.toSent = AsgiCoreProfile.encodeEvents events := by
  rw [encodedEvents, AsgiCoreProfile.encodeEvents, List.map_cons, List.map_singleton,
    ResponseEvent.toSent, List.map_map]
  rfl

/-- In the composition, events are encoded without a call. -/
theorem answeredBy_encodeEvents {options : Options} (hbody : options.encodesBody = true)
    (hheaders : options.encodesHeaders = true) (events : ResponseEvents) :
    (encodeEvents options events).answeredBy (composition routes decodeBody) =
      (return encodedEvents events : Program asgi _) := by
  have hpairs : (encodeHeaders options events.headers).answeredBy (composition routes decodeBody) =
      (return events.headers.map fun pair =>
        (.bytes (utf8Bytes pair.1), .bytes (utf8Bytes pair.2)) : Program asgi _) := by
    rw [encodeHeaders, if_pos hheaders, answeredBy_mapM]
    exact List.mapM_pure
  have hencoded : (encodeBody options events.body).answeredBy (composition routes decodeBody) =
      (return .bytes (encodeResponseBody events.body) : Program asgi _) := by
    rw [encodeBody, if_pos hbody]
    rfl
  rw [encodeEvents, answeredBy_bind, hpairs, pure_bind, answeredBy_bind, hencoded]
  rfl

/-- In the composition, encoded events are sent in order. -/
theorem answeredBy_sendAll (events : List ResponseEvent) :
    (sendAll events).answeredBy (composition routes decodeBody) =
      AsgiCoreProfile.sendAll (events.map ResponseEvent.toSent) := by
  induction events with
  | nil => rfl
  | cons event events ih =>
    rw [sendAll, answeredBy_bind, answeredBy_ask, ih]
    rfl

/-- In the composition, events are encoded and sent as the profile does it. -/
theorem answeredBy_sendEncoded {options : Options} (hbody : options.encodesBody = true)
    (hheaders : options.encodesHeaders = true) (events : ResponseEvents) :
    List.map ResponseEvent.toSent <$>
        (sendEncoded options events).answeredBy (composition routes decodeBody) =
      (do
        AsgiCoreProfile.sendAll (AsgiCoreProfile.encodeEvents events)
        return AsgiCoreProfile.encodeEvents events) := by
  rw [sendEncoded, answeredBy_bind, answeredBy_encodeEvents hbody hheaders, pure_bind,
    answeredBy_bind, answeredBy_sendAll, map_toSent_encodedEvents, map_bind]
  refine congrArg _ (funext fun _ => ?_)
  rw [← map_toSent_encodedEvents]
  rfl

/-- In the composition, a request is handled as the profile does it. -/
theorem answeredBy_handle (scope : Scope) (value : JsValue) :
    (handle scope (.value value)).answeredBy (composition routes decodeBody) =
      ((AsgiCoreProfile.handle routes scope value).widen : Program asgi _) := by
  rw [handle, AsgiCoreProfile.handle]
  cases isValidScope scope with
  | none => rfl
  | some line =>
    cases decodeHeaders scope.headers with
    | none => rfl
    | some headers =>
      dsimp only
      rw [answeredBy_bind, answeredBy_ask, widen_bind]
      rfl

/-- In the composition, a call is the profile's. -/
theorem answeredBy_call {options : Options} (hbody : options.encodesBody = true)
    (hheaders : options.encodesHeaders = true) (scope : Scope) (value : JsValue) :
    List.map ResponseEvent.toSent <$>
        (call options scope (.value value)).answeredBy (composition routes decodeBody) =
      AsgiCoreProfile.call routes scope value := by
  rw [call, answeredBy_bind, answeredBy_handle, map_bind, AsgiCoreProfile.call]
  exact congrArg _ (funext fun _ => answeredBy_sendEncoded hbody hheaders _)

/-- With the functions of the composition `callFromReceive` is that of the application. -/
theorem answeredBy_callFromReceive {arguments : Arguments} {options : Options}
    (harguments : checkArguments arguments = .ok options) (hdecodes : options.decodesBody = true)
    (hbody : options.encodesBody = true) (hheaders : options.encodesHeaders = true)
    (scope : Scope) (events : List ReceiveEvent) :
    List.map ResponseEvent.toSent <$>
        (callFromReceive arguments scope events).answeredBy (composition routes decodeBody) =
      AsgiCoreProfile.callFromReceive routes (fun bytes => (decodeBody bytes).toOption)
        options.maxBodyBytes scope events := by
  -- whatever is refused is answered by the same error events
  have herror : List.map ResponseEvent.toSent <$>
      (sendErrorEvents options).answeredBy (composition routes decodeBody) =
        AsgiCoreProfile.sendErrorEvents := answeredBy_sendEncoded hbody hheaders _
  rw [callFromReceive_of_checked harguments, AsgiCoreProfile.callFromReceive]
  split_ifs
  · exact herror
  · cases receiveBody options.maxBodyBytes [] events with
    | none => exact herror
    | some merged =>
      rw [Option.bind_some]
      dsimp only
      rw [callWithBody_of_decodes hdecodes, Program.answeredBy, composition]
      cases decodeBody merged with
      | ok value => exact answeredBy_call hbody hheaders scope value
      | error e => exact herror

end Composition

end MetaframerKernel.AsgiCoreProfileAdapter
