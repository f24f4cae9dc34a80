import MetaframerKernel.Async.Loops
import MetaframerKernel.Delivery.AsgiApplication
import MetaframerKernel.Delivery.DocumentedAnswers

/-!
# The answers of the ASGI application

What reaches the wire when every collaborator, every statement and `send` resolve as documented: a
start and a body, unless the raw request id of a request for the handler cannot be put in a header,
or the handler is stuck.

## Main definitions

* `requestOf`: the request the handler is given, if it is given one;
* `Answers`: a run that has sent one start and one body.

## Main results

* `settles_profileHandle`: how the profile adapter ends;
* `app_answers_iff`: the runs of the application that answer.
-/

namespace MetaframerKernel

open Js Async CreateCustomerPipeline

/-! ## The request for the handler -/

/-- The request the router passes on, with this body. -/
def deliveryRequest (scope : Scope) (body : JsValue) : Option JsValue :=
  match AsgiCoreProfile.isValidScope scope, AsgiCoreProfile.decodeHeaders scope.headers with
  | some (method, path), some headers =>
      if path = lit "/customers" ∧ method = lit "POST" then
        some (HttpMessageAdapter.toDeliveryRequest { method, path, headers, body })
      else none
  | _, _ => none

/-- The request the handler is given, where the scope and the body are decoded and the route is the
one there is. -/
def requestOf (maxBodyBytes : Option ℕ) (scope : Scope) (events : List ReceiveEvent) :
    Option JsValue :=
  ((AsgiCoreProfile.receiveBody maxBodyBytes [] events).bind decodeJsonBody).bind
    (deliveryRequest scope)

/-- A decoded body is an ordinary object. -/
theorem exists_of_decodeJsonBody {bytes : List UInt8} {body : JsValue}
    (h : decodeJsonBody bytes = some body) : ∃ props, body = .object .objectPrototype props := by
  rw [decodeJsonBody] at h
  split_ifs at h
  · exact ⟨_, (Option.some.inj h).symm⟩
  · obtain ⟨v, -, hobj⟩ := Option.bind_eq_some_iff.mp h
    split at hobj
    · exact ⟨_, (Option.some.inj hobj).symm⟩
    · cases hobj

/-! ## The response on its way to the wire -/

namespace AsgiCoreProfile

/-- A response passes the checks when its status is one and every header can be sent. -/
theorem checkRouterResponse_eq_ok {response : HttpResponse} :
    checkRouterResponse response = .ok () ↔
      (100 ≤ response.status ∧ response.status ≤ 599) ∧
        ∀ p ∈ ownOrder response.headers, isHeaderNameToken p.1 = true ∧ isPrintable p.2 = true := by
  simp only [checkRouterResponse, bind_eq_ok, throwIf_eq_ok, forM_eq_ok, exists_const, not_or,
    not_lt, Bool.not_eq_false]

/-- A response is turned into events when it passes the checks. -/
theorem toResponseEvents_eq_ok {response : HttpResponse} {events : ResponseEvents} :
    toResponseEvents response = .ok events ↔ checkRouterResponse response = .ok () ∧
      events = ⟨response.status, sortMembers (ownOrder response.headers), response.body⟩ := by
  rw [toResponseEvents, bind_eq_ok]
  constructor
  · rintro ⟨_, hcheck, h⟩
    exact ⟨hcheck, (Except.ok.inj h).symm⟩
  · rintro ⟨hcheck, rfl⟩
    exact ⟨(), hcheck, rfl⟩

/-- A response of the handler can be sent when its request id can be put in a header. -/
theorem checkRouterResponse_toHttpResponse {response : Response} (hlow : 100 ≤ response.status)
    (hhigh : response.status ≤ 599) :
    checkRouterResponse (HttpMessageAdapter.toHttpResponse response) = .ok () ↔
      isPrintable response.requestId = true := by
  have horder : ownOrder (HttpMessageAdapter.toHttpResponse response).headers =
      [(lit "content-type", lit "application/json"),
        (lit "x-request-id", response.requestId)] := by
    refine ownOrder_eq_self ?_
    simp only [HttpMessageAdapter.toHttpResponse, List.forall_mem_cons]
    exact ⟨by decide, by decide, List.forall_mem_nil _⟩
  have hcontent : isHeaderNameToken (lit "content-type") = true := by decide
  have hid : isHeaderNameToken (lit "x-request-id") = true := by decide
  have hjson : isPrintable (lit "application/json") = true := by decide
  rw [checkRouterResponse_eq_ok, horder]
  simp only [List.forall_mem_cons, hcontent, hid, hjson, true_and]
  exact ⟨fun h => h.2.1, fun h => ⟨⟨hlow, hhigh⟩, h, List.forall_mem_nil _⟩⟩

/-- An error of the router can be sent. -/
theorem exists_toResponseEvents_errorResponse {status : ℕ} (hlow : 100 ≤ status)
    (hhigh : status ≤ 599) (code : String) :
    ∃ events, toResponseEvents (StandardRouter.errorResponse status code) = .ok events ∧
      events.status = status := by
  refine ⟨_, toResponseEvents_eq_ok.mpr ⟨checkRouterResponse_eq_ok.mpr ⟨⟨hlow, hhigh⟩, ?_⟩, rfl⟩,
    rfl⟩
  have horder : ownOrder (StandardRouter.errorResponse status code).headers =
      [(lit "content-type", lit "application/json")] := by
    refine ownOrder_eq_self ?_
    simp only [StandardRouter.errorResponse, List.forall_mem_cons]
    exact ⟨by decide, List.forall_mem_nil _⟩
  rw [horder, List.forall_mem_singleton]
  exact ⟨by decide, by decide⟩

end AsgiCoreProfile

/-! ## How the profile adapter ends -/

/-- Nothing keeps the request from being answered. -/
def Answerable (sha256 : ByteArray → JsString) (request : Option JsValue)
    (past : History kernel) : Prop :=
  ∀ r, request = some r → isPrintable (rawRequestIdOf r) = true ∧ ¬Stuck sha256 r past

/-- How the profile adapter ends: with the events of a response, or with an error. -/
inductive ProfileEnds (sha256 : ByteArray → JsString) (request : Option JsValue)
    (past : History kernel) : Except Thrown AsgiCoreProfile.ResponseEvents → Prop
  | answered (events : AsgiCoreProfile.ResponseEvents) : 100 ≤ events.status →
      events.status ≤ 599 → Answerable sha256 request past →
      ProfileEnds sha256 request past (.ok events)
  | failed (e : Thrown) : ¬Answerable sha256 request past →
      ProfileEnds sha256 request past (.error e)

section Profile

variable {sha256 : ByteArray → JsString} {ports : Ports}

/-- Where no request is handed to the handler, one can always answer. -/
theorem answerable_none {past : History kernel} : Answerable sha256 none past := nofun

/-- How the profile adapter ends under documented answers. -/
theorem settles_profileHandle (hsha : ∀ bytes, isHex64 (sha256 bytes) = true)
    (hports : PortsSettle ports) (scope : Scope) {bytes : List UInt8} {body : JsValue}
    (hbody : decodeJsonBody bytes = some body) :
    Settles IsDocumented (ProfileEnds sha256 (deliveryRequest scope body)) []
      (AsgiCoreProfile.handle (routes sha256 ports) scope body) := by
  unfold AsgiCoreProfile.handle deliveryRequest
  cases hscope : AsgiCoreProfile.isValidScope scope with
  | none => exact .answered _ (show 100 ≤ 400 by decide) (show 400 ≤ 599 by decide) answerable_none
  | some target =>
    obtain ⟨method, path⟩ := target
    cases hheaders : AsgiCoreProfile.decodeHeaders scope.headers with
    | none =>
      exact .answered _ (show 100 ≤ 400 by decide) (show 400 ≤ 599 by decide) answerable_none
    | some headers =>
      -- an error of the router is answered: its request id is one that can be printed
      have herror {status : ℕ} (hlow : 100 ≤ status) (hhigh : status ≤ 599) (code : String) :
          ProfileEnds sha256 none [] (orThrow (AsgiCoreProfile.toResponseEvents
            (StandardRouter.errorResponse status code))) := by
        obtain ⟨events, hevents, hstatus⟩ :=
          AsgiCoreProfile.exists_toResponseEvents_errorResponse hlow hhigh code
        rw [hevents]
        exact .answered events (hstatus ▸ hlow) (hstatus ▸ hhigh) answerable_none
      by_cases hpath : path = lit "/customers"
      · subst hpath
        by_cases hmethod : method = lit "POST"
        · subst hmethod
          let message : Message := { method := lit "POST", path := lit "/customers", headers, body }
          have hroute : StandardRouter.handle (routes sha256 ports) message =
              HttpMessageAdapter.handle sha256 ports message := by
            simp [StandardRouter.handle, routes, message]
          obtain ⟨props, hprops⟩ := exists_of_decodeJsonBody hbody
          have hshape : HttpMessageAdapter.isValidMessageShape message = true := by
            rw [HttpMessageAdapter.isValidMessageShape, show message.body = body from rfl, hprops]
          simp only [and_self, if_true]
          change Settles IsDocumented _ []
            (StandardRouter.handle (routes sha256 ports) message >>= _)
          rw [hroute, HttpMessageAdapter.handle, hshape]
          simp only [Bool.not_true, Bool.false_eq_true, if_false, message, ne_eq, not_true_eq_false,
            bind_assoc]
          -- the handler's response is sent when its request id can be put in a header,
          -- and fails otherwise
          refine (settles_handle hsha hports).bind ?_ ?_
          · rintro past response (⟨_, hid, hlow, hhigh, hstuck⟩ | _)
            change ProfileEnds sha256 _ past (orThrow (AsgiCoreProfile.toResponseEvents
              (HttpMessageAdapter.toHttpResponse response)))
            have hcheck := AsgiCoreProfile.checkRouterResponse_toHttpResponse hlow hhigh
            by_cases hprint : isPrintable response.requestId = true
            · rw [AsgiCoreProfile.toResponseEvents_eq_ok.mpr ⟨hcheck.mpr hprint, rfl⟩]
              refine .answered _ hlow hhigh ?_
              rintro _ ⟨⟩
              exact ⟨hid ▸ hprint, hstuck⟩
            · cases hevents : AsgiCoreProfile.toResponseEvents
                  (HttpMessageAdapter.toHttpResponse response) with
              | ok events =>
                exact absurd (hcheck.mp (AsgiCoreProfile.toResponseEvents_eq_ok.mp hevents).1)
                  hprint
              | error e => exact .failed _ fun h => hprint (hid ▸ (h _ rfl).1)
          · rintro past _ (_ | ⟨e, hstuck⟩)
            exact .failed _ fun h => (h _ rfl).2 hstuck
        · have hroute : StandardRouter.handle (routes sha256 ports)
              { method, path := lit "/customers", headers, body } =
                pure (StandardRouter.errorResponse 405 "METHOD_NOT_SUPPORTED") := by
            simp [StandardRouter.handle, routes, Ne.symm hmethod]
          simp only [hmethod, and_false, if_false]
          rw [hroute]
          exact herror (by decide) (by decide) _
      · have hroute : StandardRouter.handle (routes sha256 ports) { method, path, headers, body } =
            pure (StandardRouter.errorResponse 404 "ROUTE_NOT_FOUND") := by
          simp [StandardRouter.handle, routes, Ne.symm hpath]
        simp only [hpath, false_and, if_false]
        rw [hroute]
        exact herror (by decide) (by decide) _

end Profile

/-! ## The runs of the application -/

/-- What the calls of the application resolve with. -/
def AsgiDocumented : (c : asgi.Call) → asgi.Settled c → Prop
  | .inl c, r => Documented c r
  | .inr _, r => r = .ok ()

/-- The application resolves, and has sent one start with a status and then one whole body. -/
def Answers {σ : Type} (r : Run asgi σ (List SentEvent)) : Prop :=
  ∃ status headers body, 100 ≤ status ∧ status ≤ 599 ∧
    r.outcome = .ok [.start status headers, .body body false] ∧
    furtherCalls r.history = [.start status headers, .body body false]

section Runs

variable {σ : Type} {outside : Outside asgi σ}

/-- The given events are sent, in order and nothing else. -/
theorem run_sendAll {events : List SentEvent} {s : σ}
    (h : ∀ ev ∈ (Async.run outside (AsgiCoreProfile.sendAll events) s).history,
      AsgiDocumented ev.1 ev.2) :
    (Async.run outside (AsgiCoreProfile.sendAll events) s).outcome = .ok () ∧
      furtherCalls (Async.run outside (AsgiCoreProfile.sendAll events) s).history = events ∧
      History.narrow (Async.run outside (AsgiCoreProfile.sendAll events) s).history = [] := by
  induction events generalizing s with
  | nil => exact ⟨rfl, rfl, rfl⟩
  | cons event events ih =>
    have hsent : (outside (.inr event) s).1 = .ok () := h ⟨.inr event, _⟩ List.mem_cons_self
    -- the first event is sent, and the others behind it
    have hrun : Async.run outside (AsgiCoreProfile.sendAll (event :: events)) s =
        let rest := Async.run outside (AsgiCoreProfile.sendAll events) (outside (.inr event) s).2
        ⟨⟨.inr event, (outside (.inr event) s).1⟩ :: rest.history, rest.outcome, rest.state⟩ := by
      change Async.run outside (.await (I := asgi) (.inr event) fun r =>
        Program.onFulfilled (fun _ => AsgiCoreProfile.sendAll events) r) s = _
      rw [Async.run, hsent]
      rfl
    rw [hrun] at h ⊢
    obtain ⟨houtcome, hfurther, hnarrow⟩ := ih fun ev hev => h ev (List.mem_cons_of_mem _ hev)
    exact ⟨houtcome, congrArg (event :: ·) hfurther, hnarrow⟩

/-- Events that were made are sent and returned. -/
theorem run_send {events : List SentEvent} {s : σ}
    (h : ∀ ev ∈ (Async.run outside (AsgiCoreProfile.sendAll events >>= fun _ => pure events)
      s).history, AsgiDocumented ev.1 ev.2) :
    let r := Async.run outside (AsgiCoreProfile.sendAll events >>= fun _ => pure events) s
    r.outcome = .ok events ∧ furtherCalls r.history = events ∧ History.narrow r.history = [] := by
  have hhistory : (Async.run outside (AsgiCoreProfile.sendAll events >>= fun _ => pure events)
      s).history = (Async.run outside (AsgiCoreProfile.sendAll events) s).history := by
    cases hcase : (Async.run outside (AsgiCoreProfile.sendAll events) s).outcome with
    | ok _ =>
      rw [run_bind_of_ok hcase]
      exact List.append_nil _
    | error _ => rw [run_bind_of_error hcase]
  rw [hhistory] at h
  obtain ⟨houtcome, hfurther, hnarrow⟩ := run_sendAll h
  simp only [hhistory]
  refine ⟨?_, hfurther, hnarrow⟩
  rw [run_bind_of_ok houtcome]
  rfl

/-- The two events of a response are an answer once they are sent. -/
theorem answers_of_send {status : ℕ} {headers : List (ByteArray × ByteArray)} {body : ByteArray}
    (hlow : 100 ≤ status) (hhigh : status ≤ 599) {r : Run asgi σ (List SentEvent)}
    (houtcome : r.outcome = .ok [.start status headers, .body body false])
    (hfurther : furtherCalls r.history = [.start status headers, .body body false]) : Answers r :=
  ⟨status, headers, body, hlow, hhigh, houtcome, hfurther⟩

/-- A request that the profile adapter refuses is answered. -/
theorem answers_sendErrorEvents {s : σ}
    (h : ∀ ev ∈ (Async.run outside AsgiCoreProfile.sendErrorEvents s).history,
      AsgiDocumented ev.1 ev.2) :
    Answers (Async.run outside AsgiCoreProfile.sendErrorEvents s) := by
  have hlow : 100 ≤ AsgiCoreProfile.profileErrorEvents.status := by decide
  have hhigh : AsgiCoreProfile.profileErrorEvents.status ≤ 599 := by decide
  obtain ⟨houtcome, hfurther, -⟩ := run_send h
  exact answers_of_send hlow hhigh houtcome hfurther

/-- What is documented for the application is so for the kernel. -/
theorem isDocumented_of_widen {past : History kernel}
    (h : ∀ ev ∈ (History.widen past : History asgi), AsgiDocumented ev.1 ev.2) :
    ∀ ev ∈ past, IsDocumented ev :=
  fun _ hev => h _ (List.mem_map_of_mem hev)

/-- A request that is routed is answered when nothing keeps it from being. -/
theorem answers_call_iff {sha256 : ByteArray → JsString} {ports : Ports}
    (hsha : ∀ bytes, isHex64 (sha256 bytes) = true) (hports : PortsSettle ports) (scope : Scope)
    {bytes : List UInt8} {body : JsValue} (hbody : decodeJsonBody bytes = some body) {s : σ}
    (h : ∀ ev ∈ (Async.run outside (AsgiCoreProfile.call (routes sha256 ports) scope body)
      s).history, AsgiDocumented ev.1 ev.2) :
    Answers (Async.run outside (AsgiCoreProfile.call (routes sha256 ports) scope body) s) ↔
      Answerable sha256 (deliveryRequest scope body) (History.narrow
        (Async.run outside (AsgiCoreProfile.call (routes sha256 ports) scope body) s).history) := by
  -- the handler runs in its own interface, and the events are sent behind it
  let p := AsgiCoreProfile.handle (routes sha256 ports) scope body
  have hends := (settles_profileHandle hsha hports scope hbody).run outside.restrict s
  have hwiden := run_widen outside p s
  have hcall : AsgiCoreProfile.call (routes sha256 ports) scope body = p.widen >>= fun rawEvents =>
      AsgiCoreProfile.sendAll (AsgiCoreProfile.encodeEvents rawEvents) >>= fun _ =>
        pure (AsgiCoreProfile.encodeEvents rawEvents) := rfl
  rw [hcall] at h ⊢
  cases hp : (Async.run outside.restrict p s).outcome with
  | ok rawEvents =>
    have hok : (Async.run outside p.widen s).outcome = .ok rawEvents := by
      rw [hwiden]
      exact hp
    rw [run_bind_of_ok hok, hwiden] at h ⊢
    have hfirst : ∀ ev ∈ (Async.run outside.restrict p s).history, IsDocumented ev :=
      isDocumented_of_widen fun ev hev => h ev (List.mem_append_left _ hev)
    obtain ⟨houtcome, hfurther, hnarrow⟩ :=
      run_send fun ev hev => h ev (List.mem_append_right _ hev)
    have hend := hends hfirst
    rw [hp, List.nil_append] at hend
    obtain ⟨_, hlow, hhigh, hanswerable⟩ := hend
    rw [narrow_append, narrow_widen, hnarrow, List.append_nil]
    refine iff_of_true (answers_of_send hlow hhigh houtcome ?_) hanswerable
    rw [furtherCalls_append, furtherCalls_widen, hfurther]
    rfl
  | error e =>
    have herror : (Async.run outside p.widen s).outcome = .error e := by
      rw [hwiden]
      exact hp
    rw [run_bind_of_error herror, hwiden] at h ⊢
    have hend := hends (isDocumented_of_widen h)
    rw [hp, List.nil_append] at hend
    obtain _ | ⟨_, hanswerable⟩ := hend
    rw [narrow_widen]
    refine iff_of_false ?_ hanswerable
    rintro ⟨_, _, _, -, -, hnone, -⟩
    cases hnone

/-- The application answers when the raw request id of a request for the handler can be put in a
header, and the handler is not stuck. -/
theorem app_answers_iff {sha256 : ByteArray → JsString} {ports : Ports}
    (hsha : ∀ bytes, isHex64 (sha256 bytes) = true)
    (hports : ports = plainPorts ∨ ports = auditedPorts) (maxBodyBytes : Option ℕ) (scope : Scope)
    (events : List ReceiveEvent) (s : σ)
    (h : ∀ ev ∈ (Async.run outside (app sha256 ports maxBodyBytes scope events) s).history,
      AsgiDocumented ev.1 ev.2) :
    Answers (Async.run outside (app sha256 ports maxBodyBytes scope events) s) ↔
      Answerable sha256 (requestOf maxBodyBytes scope events) (History.narrow
        (Async.run outside (app sha256 ports maxBodyBytes scope events) s).history) := by
  have hsettle : PortsSettle ports := by
    rcases hports with rfl | rfl
    · exact portsSettle_plain
    · exact portsSettle_audited
  -- what never comes to the handler is answered with an error, and asks for nothing more
  have hrefused {past : History kernel} (hnone : requestOf maxBodyBytes scope events = none)
      (happ : app sha256 ports maxBodyBytes scope events = AsgiCoreProfile.sendErrorEvents) :
      Answers (Async.run outside (app sha256 ports maxBodyBytes scope events) s) ↔
        Answerable sha256 (requestOf maxBodyBytes scope events) past := by
    rw [happ] at h ⊢
    rw [hnone]
    exact iff_of_true (answers_sendErrorEvents h) answerable_none
  by_cases hscope : (AsgiCoreProfile.isValidScope scope).isNone ∨
      (AsgiCoreProfile.decodeHeaders scope.headers).isNone
  · refine hrefused ?_ (if_pos hscope)
    have hdelivery (body : JsValue) : deliveryRequest scope body = none := by
      rw [deliveryRequest]
      simp only [Option.isNone_iff_eq_none] at hscope
      rcases hscope with hnone | hnone
      · rw [hnone]
      · rw [hnone]
        cases AsgiCoreProfile.isValidScope scope <;> rfl
    rw [requestOf, funext hdelivery]
    cases (AsgiCoreProfile.receiveBody maxBodyBytes [] events).bind decodeJsonBody <;> rfl
  · cases hbytes : AsgiCoreProfile.receiveBody maxBodyBytes [] events with
    | none =>
      refine hrefused ?_ ?_
      · rw [requestOf, hbytes]
        rfl
      · rw [app, AsgiCoreProfile.callFromReceive, if_neg hscope, hbytes]
        rfl
    | some bytes =>
      cases hbody : decodeJsonBody bytes with
      | none =>
        refine hrefused ?_ ?_
        · rw [requestOf, hbytes, Option.bind_some, hbody]
          rfl
        · rw [app, AsgiCoreProfile.callFromReceive, if_neg hscope, hbytes, Option.bind_some, hbody]
      | some body =>
        have happ : app sha256 ports maxBodyBytes scope events =
            AsgiCoreProfile.call (routes sha256 ports) scope body := by
          rw [app, AsgiCoreProfile.callFromReceive, if_neg hscope, hbytes, Option.bind_some, hbody]
        have hrequest : requestOf maxBodyBytes scope events = deliveryRequest scope body := by
          rw [requestOf, hbytes, Option.bind_some, hbody, Option.bind_some]
        rw [happ] at h ⊢
        rw [hrequest]
        exact answers_call_iff hsha hsettle scope hbody h

end Runs

/-- A host that accepts every event, around collaborators that grant everything, for examples. -/
def serving : Outside asgi Unit := fun c s =>
  match c with
  | .inl c => generating "1" "2026-01-01T00:00:00.000Z" c s
  | .inr _ => (.ok (), s)

/-- Every answer of these collaborators is a documented one. -/
theorem documented_serving (c : asgi.Call) (s : Unit) : AsgiDocumented c (serving c s).1 := by
  cases c with
  | inr event => exact rfl
  | inl c =>
    change Documented c (generating "1" "2026-01-01T00:00:00.000Z" c s).1
    cases c with
    | candidatesFor request =>
      -- the candidates of the sample are admitted, by evaluation
      have hok : (AuthorizationEvaluator.checkCandidates (.array .arrayPrototype
          [(some .data, AuthorizationEvaluator.legacyEntry "a" "allow" true)] 0)).isOk = true := by
        decide +kernel
      cases hchecked : AuthorizationEvaluator.checkCandidates (.array .arrayPrototype
          [(some .data, AuthorizationEvaluator.legacyEntry "a" "allow" true)] 0) with
      | ok checked =>
        exact ⟨_, checked, AuthorizationEvaluator.checkCandidates_eq_ok_iff.mp hchecked, rfl⟩
      | error e =>
        rw [hchecked] at hok
        cases hok
    | query client statement =>
      have hid : isNonBlank (lit "1") = true := by decide
      have hat : isInstant (lit "2026-01-01T00:00:00.000Z") = true := by decide
      cases statement with
      | insertCustomer => exact ⟨⟨_, _⟩, hid, hat, rfl⟩
      | insertAudit => exact ⟨_, hid, rfl⟩
      | insertOutbox => exact ⟨_, hid, rfl⟩
      | _ => exact ⟨_, rfl⟩
    | idGenerator => exact ⟨_, by decide, rfl⟩
    | now => exact ⟨_, by decide, rfl⟩
    | chainHead tenantId => exact ⟨none, by rintro _ ⟨⟩, rfl⟩
    | append entry => exact rfl
    | _ => exact ⟨_, rfl⟩

/-- The sample's answers are documented. -/
theorem documented_of_mem_serving {α : Type} {p : Program asgi α} :
    ∀ ev ∈ (Async.run serving p ()).history, AsgiDocumented ev.1 ev.2 := by
  intro ev hev
  obtain ⟨s, hs⟩ := mem_history_run hev
  rw [hs]
  exact documented_serving ev.1 s

/-- A request to create a customer, with the bytes of its request id. -/
def sampleScope (requestId : List UInt8) : Scope where
  type := .string (lit "http")
  method := .string (lit "POST")
  path := .string (lit "/customers")
  headers := some
    [some [.string (lit "x-request-id"), .bytes requestId],
      some [.string (lit "x-actor-id"), .string (lit "clerk")],
      some [.string (lit "x-tenant-id"), .string (lit "11111111-1111-4111-8111-111111111111")],
      some [.string (lit "idempotency-key"), .string (lit "key-1")]]

/-- The bytes of a text of ASCII characters, for examples. -/
def asciiBytes (text : String) : List UInt8 := text.toList.map fun c => UInt8.ofNat c.toNat

/-- A stream of one event, with the bytes of `{"name":"Ada"}`. -/
def sampleEvents : List ReceiveEvent :=
  [.ordinary (.string (lit "http.request")) (.bytes (asciiBytes "\x7b\"name\":\"Ada\"\x7d")) none]

/-- The bytes of a request id. -/
def sampleRequestId : List UInt8 := asciiBytes "22222222-2222-4222-8222-222222222222"

/-- The headers of the sample request. -/
def sampleHeaders (requestId : JsString) : Headers :=
  [(lit "x-request-id", requestId), (lit "x-actor-id", lit "clerk"),
    (lit "x-tenant-id", lit "11111111-1111-4111-8111-111111111111"),
    (lit "idempotency-key", lit "key-1")]

/-- The sample request is handed to the handler. -/
theorem requestOf_sample : requestOf none (sampleScope sampleRequestId) sampleEvents =
    some sampleRequest := by
  -- each stage of the profile is evaluated on the sample
  have hbytes : AsgiCoreProfile.receiveBody none [] sampleEvents =
      some (asciiBytes "\x7b\"name\":\"Ada\"\x7d") := by decide +kernel
  have hscope : AsgiCoreProfile.isValidScope (sampleScope sampleRequestId) =
      some (lit "POST", lit "/customers") := by decide +kernel
  have hheaders : AsgiCoreProfile.decodeHeaders (sampleScope sampleRequestId).headers =
      some (sampleHeaders (lit "22222222-2222-4222-8222-222222222222")) := by decide +kernel
  let payload : Json := .obj [(lit "name", .str (lit "Ada"))]
  have htext : utf8DecodeFatal? (asciiBytes "\x7b\"name\":\"Ada\"\x7d") =
    some payload.stringify := by
    decide +kernel
  have hparse : jsonParse payload.stringify = some payload := by
    rw [jsonParse_stringify (by decide +kernel)]
    rfl
  have hbody : decodeJsonBody (asciiBytes "\x7b\"name\":\"Ada\"\x7d") =
      some (literal [("name", .string (lit "Ada"))]) := by
    rw [decodeJsonBody, if_neg (by decide), htext, Option.bind_some]
    change (jsonParse payload.stringify).bind _ = _
    rw [hparse]
    rfl
  rw [requestOf, hbytes, Option.bind_some, hbody, Option.bind_some, deliveryRequest, hscope,
    hheaders]
  rfl

/-- The sample request is committed, and answered. -/
theorem app_answers_sample :
    Answers (Async.run serving
      (app sha256Hex plainPorts none (sampleScope sampleRequestId) sampleEvents) ()) := by
  refine (app_answers_iff isHex64_sha256Hex (.inl rfl) none (sampleScope sampleRequestId)
    sampleEvents () documented_of_mem_serving).mpr ?_
  rw [requestOf_sample]
  rintro _ ⟨⟩
  refine ⟨by decide, ?_⟩
  rintro ⟨spec, hbuild, -, hname⟩
  rw [sampleRequest, literal, buildCreateCustomerActionSpec] at hbuild
  split_ifs at hbuild
  obtain rfl := Except.ok.inj hbuild
  exact hname ⟨.objectPrototype, _, lit "Ada", rfl, rfl, by decide⟩

/-- A request id with a letter outside ASCII comes back in no response: nothing is sent. -/
theorem app_not_answers_latinRequestId :
    let r := Async.run serving
      (app sha256Hex plainPorts none (sampleScope [0xC3, 0xA9]) sampleEvents) ()
    (∀ ev ∈ r.history, AsgiDocumented ev.1 ev.2) ∧ r.outcome.isOk = false ∧ ¬Answers r := by
  have hrejected : (Async.run serving (app sha256Hex plainPorts none (sampleScope [0xC3, 0xA9])
      sampleEvents) ()).outcome.isOk = false := by decide +kernel
  refine ⟨documented_of_mem_serving, hrejected, ?_⟩
  rintro ⟨_, _, _, -, -, houtcome, -⟩
  rw [houtcome] at hrejected
  cases hrejected

end MetaframerKernel
