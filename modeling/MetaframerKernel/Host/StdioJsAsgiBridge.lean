import MetaframerKernel.Async.Program
import MetaframerKernel.Host.ScopeEnvelope

/-!
# The host bridge

`StdioJsAsgiBridge` collects the body of a request from the messages of the server and hands it to a
subprocess. A client that disconnects ends the loop as the last chunk does.

## Main definitions

* `Message`: what the server delivers;
* `receiveBody`: the loop that collects the body;
* `call`: the bridge on what the server delivers;
* `ForwardsComplete`: the subprocess is given complete bodies only.

## Main results

* `forwardsComplete_iff`: the bridge does, unless a client disconnects within the limit.
-/

namespace MetaframerKernel.StdioJsAsgiBridge

open Async Js ScopeEnvelope

/-! ## Messages -/

/-- A `more_body`: a `bool`, or anything else. -/
inductive MoreBody where
  | bool (b : Bool)
  | other
deriving DecidableEq

/-- A message of the server. -/
inductive Message where
  | httpRequest (body : Option (List UInt8)) (moreBody : Option MoreBody)
  | httpDisconnect
deriving DecidableEq

namespace Message

/-- `message["type"] == "http.request"` -/
def isRequest : Message → Bool
  | httpRequest .. => true
  | httpDisconnect => false

/-- `message.get("body", b"")` -/
def body : Message → List UInt8
  | httpRequest body _ => body.getD []
  | httpDisconnect => []

/-- `message.get("more_body", False)` -/
def moreBody : Message → MoreBody
  | httpRequest _ moreBody => moreBody.getD (.bool false)
  | httpDisconnect => .bool false

end Message

/-- The bodies of some messages, one after the other. -/
def bodies (messages : List Message) : List UInt8 := messages.flatMap Message.body

/-- The length of a body is within a limit, where there is one. -/
def Within (maxBodyBytes : Option ℕ) (length : ℕ) : Prop := ∀ limit ∈ maxBodyBytes, length ≤ limit

instance (maxBodyBytes : Option ℕ) (length : ℕ) : Decidable (Within maxBodyBytes length) := by
  unfold Within
  infer_instance

/-! ## The calls of the bridge -/

/-- What the subprocess is given. -/
structure Envelope where
  scope : PyJson
  bodyBase64 : List Char

/-- An event of a response: one of `_error_events`, or one the subprocess printed. -/
inductive ResponseEvent where
  | start (status : ℕ) (headers : List (String × String))
  | body (body : Json) (moreBody : Bool)
  | decoded (event : Json)

/-- What the bridge awaits or runs. -/
inductive HostCall where
  | invokeSubprocess (envelope : Envelope)
  | send (event : ResponseEvent)

/-- What a call is fulfilled with. -/
@[reducible]
def HostCall.Answer : HostCall → Type
  | invokeSubprocess _ => List ResponseEvent
  | send _ => Unit

/-- What a call raises: `_SubprocessError` with its message, or anything else. -/
inductive HostError where
  | subprocess (message : JsString)
  | other

/-- What the bridge calls. -/
abbrev host : Interface := ⟨HostCall, HostCall.Answer, HostError⟩

/-- The codes of `_error_events`. -/
inductive ErrorCode where
  | malformedMoreBody
  | bodyTooLarge
  | subprocessFailed

namespace ErrorCode

/-- The code as it is printed. -/
def text : ErrorCode → JsString
  | malformedMoreBody => lit "malformed_more_body"
  | bodyTooLarge => lit "body_too_large"
  | subprocessFailed => lit "subprocess_failed"

/-- The status of a code. -/
def status : ErrorCode → ℕ
  | malformedMoreBody => 500
  | bodyTooLarge => 413
  | subprocessFailed => 502

end ErrorCode

/-- `_error_events` -/
def errorEvents (code : ErrorCode) (message : JsString) : List ResponseEvent :=
  [.start code.status [("content-type", "application/json")],
    .body (.obj [(lit "error", .str code.text), (lit "message", .str message)]) false]

/-- `_send_events` -/
def sendEvents : List ResponseEvent → Program host Unit
  | [] => return ()
  | event :: events => do
      let _ : Unit ← Program.ask (I := host) (.send event)
      sendEvents events

/-! ## The bridge -/

/-- How the loop comes to its end: it does not while it waits for another message. -/
inductive Reading where
  | waiting
  | refused (code : ErrorCode) (message : JsString)
  | complete (body : List UInt8)

/-- The loop of `__call__`: what it comes to, and the messages it leaves. -/
def receiveBody (maxBodyBytes : Option ℕ) (bodyChunks : List (List UInt8)) (totalBytes : ℕ) :
    List Message → Reading × List Message
  | [] => (.waiting, [])
  | message :: messages =>
      match message.moreBody with
      | .other => (.refused .malformedMoreBody (lit "more_body must be a bool"), messages)
      | .bool moreBody =>
          let chunk := message.body
          -- an empty chunk adds nothing, so it cannot pass the limit
          if chunk.isEmpty then
            if moreBody then receiveBody maxBodyBytes bodyChunks totalBytes messages
            else (.complete bodyChunks.flatten, messages)
          else if maxBodyBytes.any (· < totalBytes + chunk.length) then
            (.refused .bodyTooLarge (lit "request body exceeds max_body_bytes"), messages)
          else if moreBody then
            receiveBody maxBodyBytes (bodyChunks ++ [chunk]) (totalBytes + chunk.length) messages
          else (.complete (bodyChunks ++ [chunk]).flatten, messages)

/-- The rest of `__call__` on a body. -/
def forward (scope : List (PyString × PyValue)) (body : List UInt8) : Program host Unit :=
  (Program.ask (I := host) (.invokeSubprocess ⟨jsonSafeScope scope, Base64.encode body⟩)).andThen
    fun
    | .ok events => sendEvents events
    | .error (.subprocess message) => sendEvents (errorEvents .subprocessFailed message)
    | .error .other => throw .other

/-- `__call__` on what the server delivers, once it does not wait for more. -/
def call (maxBodyBytes : Option ℕ) (scope : List (PyString × PyValue)) (messages : List Message) :
    Option (Program host Unit) :=
  match (receiveBody maxBodyBytes [] 0 messages).1 with
  | .waiting => none
  | .refused code message => some (sendEvents (errorEvents code message))
  | .complete body => some (forward scope body)

/-- The messages the bridge has received when it stops. -/
def received (maxBodyBytes : Option ℕ) (messages : List Message) : List Message :=
  messages.take (messages.length - (receiveBody maxBodyBytes [] 0 messages).2.length)

/-- The subprocess is invoked on a complete body only: every message that was received is a request,
the last one announces no more, and the body is what they carry, within the limit. -/
def ForwardsComplete (maxBodyBytes : Option ℕ) (scope : List (PyString × PyValue))
    (messages : List Message) : Prop :=
  ∀ program, call maxBodyBytes scope messages = some program →
    ∀ (σ : Type) (outside : Outside host σ) (s : σ) (envelope : Envelope)
      (r : host.Settled (.invokeSubprocess envelope)),
      ⟨.invokeSubprocess envelope, r⟩ ∈ (run outside program s).history →
      (∀ m ∈ received maxBodyBytes messages, m.isRequest = true) ∧
      (∃ before last, received maxBodyBytes messages = before ++ [last] ∧
        last.moreBody = .bool false) ∧
      Base64.decode envelope.bodyBase64 = bodies (received maxBodyBytes messages) ∧
      Within maxBodyBytes (bodies (received maxBodyBytes messages)).length

/-! ## The loop -/

section Loop

variable {maxBodyBytes : Option ℕ} {bodyChunks : List (List UInt8)} {totalBytes : ℕ}
  {messages rest : List Message}

/-- A limit is exceeded by what is not within it. -/
theorem any_lt_iff {n : ℕ} : maxBodyBytes.any (· < n) = true ↔ ¬Within maxBodyBytes n := by
  cases maxBodyBytes with
  | none => simp [Within]
  | some limit => simp [Within]

/-- What the loop has received when it comes to a body: messages that announce more, and one that
does not, within the limit. -/
structure Received (maxBodyBytes : Option ℕ) (totalBytes : ℕ) (before : List Message)
    (last : Message) : Prop where
  announced : ∀ m ∈ before, m.moreBody = .bool true
  ended : last.moreBody = .bool false
  within : Within maxBodyBytes (totalBytes + (bodies (before ++ [last])).length)

/-- The bodies of messages follow one another. -/
theorem bodies_cons (m : Message) (ms : List Message) : bodies (m :: ms) = m.body ++ bodies ms :=
  List.flatMap_cons

/-- One message has its own body. -/
theorem bodies_singleton (m : Message) : bodies [m] = m.body := List.flatMap_singleton ..

/-- What is shorter is within the limit as well. -/
theorem Within.of_le {m n : ℕ} (h : Within maxBodyBytes n) (hle : m ≤ n) :
    Within maxBodyBytes m := fun limit hlimit => Nat.le_trans hle (h limit hlimit)

/-- One turn of the loop. -/
theorem exists_receiveBody_cons (hwithin : Within maxBodyBytes totalBytes) {message : Message}
    {moreBody : Bool} (hmore : message.moreBody = .bool moreBody) :
    ∃ chunks, chunks.flatten = bodyChunks.flatten ++ message.body ∧
      receiveBody maxBodyBytes bodyChunks totalBytes (message :: messages) =
        if Within maxBodyBytes (totalBytes + message.body.length) then
          if moreBody then
            receiveBody maxBodyBytes chunks (totalBytes + message.body.length) messages
          else (.complete chunks.flatten, messages)
        else
          (.refused .bodyTooLarge (lit "request body exceeds max_body_bytes"), messages) := by
  rw [receiveBody, hmore]
  by_cases hempty : message.body = []
  · refine ⟨bodyChunks, by rw [hempty, List.append_nil], ?_⟩
    simp only [hempty, List.isEmpty_nil, if_true, List.length_nil, Nat.add_zero, if_pos hwithin]
  · refine ⟨bodyChunks ++ [message.body], by rw [List.flatten_append, List.flatten_singleton], ?_⟩
    simp only [List.isEmpty_iff, hempty, if_false, any_lt_iff, ite_not]

/-- The loop comes to a body exactly when it has received what makes one. -/
theorem receiveBody_eq_complete (hwithin : Within maxBodyBytes totalBytes) {body : List UInt8} :
    receiveBody maxBodyBytes bodyChunks totalBytes messages = (.complete body, rest) ↔
      ∃ before last, messages = before ++ last :: rest ∧
        Received maxBodyBytes totalBytes before last ∧
        body = bodyChunks.flatten ++ bodies (before ++ [last]) := by
  -- on the messages, with the chunks and the total of those before them
  induction messages generalizing bodyChunks totalBytes with
  | nil =>
    refine iff_of_false (by rw [receiveBody]; rintro ⟨⟩) ?_
    rintro ⟨before, last, hnil, -⟩
    exact List.append_ne_nil_of_right_ne_nil before (List.cons_ne_nil last rest) hnil.symm
  | cons message messages ih =>
    cases hmore : message.moreBody with
    | other =>
      -- a flag that is no boolean stops the loop, whether the body was to end here or later
      refine iff_of_false (by rw [receiveBody, hmore]; rintro ⟨⟩) ?_
      rintro ⟨before, last, hmessages, ⟨hannounced, hended, -⟩, -⟩
      cases before with
      | nil =>
        obtain ⟨rfl, -⟩ := List.cons.inj hmessages
        exact absurd (hmore.symm.trans hended) (by decide)
      | cons m before =>
        obtain ⟨rfl, -⟩ := List.cons.inj hmessages
        exact absurd (hmore.symm.trans (hannounced _ List.mem_cons_self)) (by decide)
    | bool moreBody =>
      obtain ⟨chunks, hchunks, hturn⟩ :
          ∃ chunks : List (List UInt8), chunks.flatten = bodyChunks.flatten ++ message.body ∧
            receiveBody maxBodyBytes bodyChunks totalBytes (message :: messages) = _ :=
        exists_receiveBody_cons hwithin hmore
      rw [hturn]
      cases moreBody with
      | true =>
        simp only [if_true]
        constructor
        · intro h
          by_cases hstep : Within maxBodyBytes (totalBytes + message.body.length)
          · rw [if_pos hstep] at h
            obtain ⟨before, last, rfl, ⟨hannounced, hended, hlimit⟩, rfl⟩ := (ih hstep).mp h
            refine ⟨message :: before, last, rfl, ⟨?_, hended, ?_⟩, ?_⟩
            · exact List.forall_mem_cons.mpr ⟨hmore, hannounced⟩
            · rwa [List.cons_append, bodies_cons, List.length_append, ← Nat.add_assoc]
            · rw [List.cons_append, bodies_cons, hchunks, List.append_assoc]
          · rw [if_neg hstep] at h
            cases h
        · -- the limit holds of the whole body, so it held of each beginning of it
          rintro ⟨before, last, hmessages, ⟨hannounced, hended, hlimit⟩, rfl⟩
          cases before with
          | nil =>
            obtain ⟨rfl, -⟩ := List.cons.inj hmessages
            exact absurd (hmore.symm.trans hended) (by decide)
          | cons m before =>
            obtain ⟨rfl, rfl⟩ := List.cons.inj hmessages
            rw [List.cons_append, bodies_cons, List.length_append, ← Nat.add_assoc] at hlimit
            have hstep := hlimit.of_le (Nat.le_add_right _ _)
            rw [if_pos hstep, ih hstep]
            refine ⟨before, last, rfl, ⟨?_, hended, hlimit⟩, ?_⟩
            · exact fun m hm => hannounced m (List.mem_cons_of_mem _ hm)
            · rw [List.cons_append, bodies_cons, hchunks, List.append_assoc]
      | false =>
        simp only [Bool.false_eq_true, if_false]
        constructor
        · intro h
          by_cases hstep : Within maxBodyBytes (totalBytes + message.body.length)
          · rw [if_pos hstep] at h
            obtain ⟨hbody, rfl⟩ := Prod.mk.inj h
            obtain rfl := Reading.complete.inj hbody
            refine ⟨[], message, rfl, ⟨List.forall_mem_nil _, hmore, ?_⟩, ?_⟩
            · rwa [List.nil_append, bodies_singleton]
            · rw [hchunks, List.nil_append, bodies_singleton]
          · rw [if_neg hstep] at h
            cases h
        · rintro ⟨before, last, hmessages, ⟨hannounced, hended, hlimit⟩, rfl⟩
          cases before with
          | nil =>
            obtain ⟨rfl, rfl⟩ := List.cons.inj hmessages
            rw [List.nil_append, bodies_singleton] at hlimit
            rw [if_pos hlimit, hchunks, List.nil_append, bodies_singleton]
          | cons m before =>
            obtain ⟨rfl, -⟩ := List.cons.inj hmessages
            exact absurd (hmore.symm.trans (hannounced _ List.mem_cons_self)) (by decide)

/-- What has been received when the loop comes to a body. -/
theorem received_of_complete {before : List Message} {last : Message} {body : List UInt8}
    (h : receiveBody maxBodyBytes [] 0 messages = (.complete body, rest))
    (hmessages : messages = before ++ last :: rest) :
    received maxBodyBytes messages = before ++ [last] := by
  have hlength : messages.length - rest.length = (before ++ [last]).length := by
    rw [hmessages, List.length_append, List.length_append, List.length_cons,
      List.length_singleton]
    omega
  rw [received, h, hlength, hmessages, List.append_cons before last rest, List.take_left]

end Loop

/-! ## The subprocess -/

/-- The events of a response are sent only. -/
theorem calls_sendEvents {P : HostCall → Prop} (hsend : ∀ event, P (.send event))
    (events : List ResponseEvent) : Calls P (sendEvents events) := by
  induction events with
  | nil => exact trivial
  | cons event events ih => exact Calls.askBind (hsend event) fun _ => ih

/-- The subprocess is given the scope and the body. -/
theorem calls_forward (scope : List (PyString × PyValue)) (body : List UInt8) :
    Calls (fun c : HostCall => ∀ envelope, c = .invokeSubprocess envelope →
      envelope = ⟨jsonSafeScope scope, Base64.encode body⟩) (forward scope body) := by
  refine Calls.andThen (Calls.ask ?_) fun r => ?_
  · rintro _ ⟨⟩
    rfl
  · have hsend (events : List ResponseEvent) := calls_sendEvents
      (P := fun c => ∀ envelope, c = .invokeSubprocess envelope →
        envelope = ⟨jsonSafeScope scope, Base64.encode body⟩) (by rintro _ _ ⟨⟩) events
    rcases r with ⟨_ | _⟩ | events
    · exact hsend _
    · exact trivial
    · exact hsend events

/-- A complete body is forwarded with the scope. -/
theorem call_of_complete {maxBodyBytes : Option ℕ} {messages rest : List Message}
    {body : List UInt8} (h : receiveBody maxBodyBytes [] 0 messages = (.complete body, rest))
    (scope : List (PyString × PyValue)) :
    call maxBodyBytes scope messages = some (forward scope body) := by
  rw [call, h]

/-- A host where the subprocess cannot be launched, for examples. -/
def launchFails : Outside host Unit := fun _ s => (.error .other, s)

/-- The bridge forwards complete bodies only, unless a client disconnects after messages that all
announce more and are within the limit. -/
theorem forwardsComplete_iff (maxBodyBytes : Option ℕ) (scope : List (PyString × PyValue))
    (messages : List Message) :
    ForwardsComplete maxBodyBytes scope messages ↔
      ¬∃ before rest, messages = before ++ .httpDisconnect :: rest ∧
        (∀ m ∈ before, m.moreBody = .bool true) ∧
        Within maxBodyBytes (bodies before).length := by
  have hzero : Within maxBodyBytes 0 := fun _ _ => Nat.zero_le _
  constructor
  · rintro h ⟨before, rest, hmessages, hannounced, hlimit⟩
    -- a disconnect counts as a last message without a body
    have hcomplete : receiveBody maxBodyBytes [] 0 messages =
        (.complete (bodies (before ++ [.httpDisconnect])), rest) := by
      refine (receiveBody_eq_complete hzero).mpr
        ⟨before, .httpDisconnect, hmessages, ⟨hannounced, rfl, ?_⟩, rfl⟩
      rwa [Nat.zero_add, bodies, List.flatMap_append, List.flatMap_singleton, Message.body,
        List.append_nil]
    obtain ⟨hrequests, -⟩ := h _ (call_of_complete hcomplete scope) Unit launchFails ()
      ⟨jsonSafeScope scope, Base64.encode (bodies (before ++ [.httpDisconnect]))⟩ (.error .other)
      List.mem_cons_self
    rw [received_of_complete hcomplete hmessages] at hrequests
    exact absurd (hrequests .httpDisconnect (List.mem_append_right _ List.mem_cons_self))
      (by decide)
  · intro hnone program hcall σ outside s envelope r hinvoked
    unfold call at hcall
    cases hreading : receiveBody maxBodyBytes [] 0 messages with
    | mk reading rest =>
      rw [hreading] at hcall
      cases reading with
      | waiting => cases hcall
      | refused code message =>
        -- a refusal sends events only
        obtain rfl := Option.some.inj hcall
        have hcalls := calls_sendEvents (P := fun c => ∀ envelope, c ≠ .invokeSubprocess envelope)
          (by rintro _ _ ⟨⟩) (errorEvents code message)
        exact absurd rfl ((hcalls.of_steps (steps_run outside _ s)).1 _ hinvoked envelope)
      | complete body =>
        -- a body is complete: what made it is a request, or else the disconnect that is excluded
        obtain rfl := Option.some.inj hcall
        obtain ⟨before, last, hmessages, ⟨hannounced, hended, hlimit⟩, hbody⟩ :=
          (receiveBody_eq_complete hzero).mp hreading
        obtain rfl := ((calls_forward scope body).of_steps (steps_run outside _ s)).1 _ hinvoked
          envelope rfl
        rw [received_of_complete hreading hmessages]
        rw [Nat.zero_add] at hlimit
        refine ⟨?_, ⟨before, last, rfl, hended⟩, ?_, hlimit⟩
        · refine List.forall_mem_append.mpr ⟨fun m hm => ?_, List.forall_mem_singleton.mpr ?_⟩
          · cases m with
            | httpRequest body moreBody => rfl
            | httpDisconnect => exact absurd (hannounced _ hm) (by decide)
          · cases last with
            | httpRequest body moreBody => rfl
            | httpDisconnect =>
              refine absurd ⟨before, rest, hmessages, hannounced, hlimit.of_le ?_⟩ hnone
              rw [bodies, bodies, List.flatMap_append, List.length_append]
              exact Nat.le_add_right _ _
        · rw [Base64.decode_encode, hbody]
          rfl

/-- A client that disconnects after the first half of its body has that half executed. -/
theorem not_forwardsComplete_disconnect :
    ¬ForwardsComplete none [] [.httpRequest (some [123, 125]) (some (.bool true)),
      .httpDisconnect] := by
  intro h
  have hinvoked := h (forward [] [123, 125]) rfl Unit launchFails ()
    ⟨jsonSafeScope [], Base64.encode [123, 125]⟩ (.error .other) List.mem_cons_self
  exact absurd (hinvoked.1 .httpDisconnect (by decide)) (by decide)

end MetaframerKernel.StdioJsAsgiBridge
