import MetaframerKernel.Host.CustomerAsgiRunner
import MetaframerKernel.Host.StdioJsAsgiBridge

/-!
# The events of a response

The way back from the runner to the server: the runner prints what the application has sent as JSON
with base64 texts, and the bridge reads the events it replays off what the subprocess has printed.

## Main definitions

* `eventsOf`: what the bridge makes of a subprocess that has ended;
* `replayed`: the event the server should see.

## Main results

* `eventsOf_encodeEventsForStdout`: the server sees the events the application has sent, with their
  bytes.
-/

namespace MetaframerKernel.StdioJsAsgiBridge

open Js CreateCustomerAsgiRunner

/-! ## The bridge -/

/-- What `subprocess.run` returns. -/
structure Completed where
  returncode : ℤ
  stdout : List UInt8
  stderr : List UInt8

/-- A value of a decoded event. -/
inductive EventValue where
  | json (v : Json)
  | bytes (b : List UInt8)
  | headers (pairs : List (List UInt8 × List UInt8))

/-- A decoded event. -/
abbrev DecodedEvent : Type := List (JsString × EventValue)

/-- `base64.b64decode`, where it does not raise. -/
def b64decode : Json → Option (List UInt8)
  | .str s => if s.all (·.val < 0x80) then Base64.decodePadded (toScalars s) else none
  | _ => none

/-- A pair of `headersBase64`. -/
def decodeHeader : Json → Option (List UInt8 × List UInt8)
  | .arr [name, value] => do
      let name ← b64decode name
      let value ← b64decode value
      return (name, value)
  | _ => none

/-- The pairs of `headersBase64`. -/
def decodeHeaders : Json → Option (List (List UInt8 × List UInt8))
  | .arr pairs => pairs.mapM decodeHeader
  | _ => none

/-- `decoded[target] = f(decoded.pop(key))`, if the key is there. -/
def replaceMember (key target : JsString) (f : Json → Option EventValue)
    (members : List (JsString × Json)) (decoded : DecodedEvent) : Except HostError DecodedEvent :=
  match members.lookup key with
  | none => .ok decoded
  | some v =>
      match f v with
      | none => .error .other
      | some value => .ok (putMember target value (decoded.filter (·.1 ≠ key)))

/-- `_decode_event` -/
def decodeEvent : Json → Except HostError DecodedEvent
  | .obj members => do
      let decoded : DecodedEvent := members.map fun p => (p.1, .json p.2)
      let decoded ← replaceMember (lit "bodyBase64") (lit "body")
        (fun v => (b64decode v).map .bytes) members decoded
      replaceMember (lit "headersBase64") (lit "headers")
        (fun v => (decodeHeaders v).map .headers) members decoded
  | _ => .error (.subprocess (lit "each ASGI response event must be a JSON object"))

/-- `_invoke_subprocess` on a subprocess that has ended, with the texts of the return code and of
what `json.loads` raises. -/
def eventsOf (codeText : ℤ → JsString) (errorText : List UInt8 → JsString)
    (completed : Completed) : Except HostError (List DecodedEvent) :=
  if completed.returncode ≠ 0 then
    .error (.subprocess (lit "subprocess command exited with code " ++
      codeText completed.returncode ++ lit ": " ++ ofText (utf8Decode completed.stderr)))
  else
    -- `json.loads` of bytes that are no text fails as malformed JSON does
    match (utf8DecodeFatal? completed.stdout).bind jsonParse with
    | none => .error (.subprocess
        (lit "malformed JSON stdout from subprocess command: " ++ errorText completed.stdout))
    | some (.arr events) => events.mapM decodeEvent
    | some _ => .error (.subprocess
        (lit "subprocess stdout JSON must be a list of ASGI events"))

/-! ## What the server should see -/

/-- An event as the server should see it. -/
def replayed : SentEvent → DecodedEvent
  | .start status headers =>
      [(lit "type", .json (.str (lit "http.response.start"))),
        (lit "status", .json (.num (.ofInt status))),
        (lit "headers", .headers (headers.map fun header => (header.1.toList, header.2.toList)))]
  | .body body moreBody =>
      [(lit "type", .json (.str (lit "http.response.body"))),
        (lit "more_body", .json (.bool moreBody)), (lit "body", .bytes body.toList)]

/-! ## Texts -/

/-- Base64 is written in ASCII. -/
theorem charOf_toNat_lt (n : ℕ) : (Base64.charOf n).toNat < 0x80 := by
  by_cases h : n < 64
  · have hall : ∀ n < 64, (Base64.charOf n).toNat < 0x80 := by decide
    exact hall n h
  · have hcharOf : Base64.charOf n = '/' := by
      rw [Base64.charOf, if_neg (by omega), if_neg (by omega), if_neg (by omega),
        if_neg (by omega)]
    rw [hcharOf]
    decide

/-- A base64 text is one of ASCII characters. -/
theorem toNat_lt_of_mem_encode (bytes : List UInt8) :
    ∀ c ∈ Base64.encode bytes, c.toNat < 0x80 := by
  induction bytes using Base64.encode.induct with
  | case1 => simp [Base64.encode]
  | case2 a => simp [Base64.encode, charOf_toNat_lt]
  | case3 a b => simp [Base64.encode, charOf_toNat_lt]
  | case4 a b c rest ih => simpa [Base64.encode, charOf_toNat_lt] using ih

/-- Bytes that were encoded decode to themselves. -/
theorem b64decode_base64Text (bytes : ByteArray) :
    b64decode (base64Text bytes) = some bytes.toList := by
  have hascii : (ofText (Base64.encode bytes.toList)).all (·.val < 0x80) = true := by
    rw [List.all_eq_true]
    intro u hu
    obtain ⟨c, hc, hu⟩ := List.mem_flatMap.mp hu
    have hlt := toNat_lt_of_mem_encode bytes.toList c hc
    rw [ofChar, if_pos (by omega), List.mem_singleton] at hu
    rw [hu, decide_eq_true_iff, Fin.val_ofNat, Nat.mod_eq_of_lt (by omega)]
    exact hlt
  rw [base64Text, b64decode, if_pos hascii, toScalars_ofText, Base64.decodePadded_encode]

/-! ## Events -/

/-- Headers that were encoded decode to themselves. -/
theorem decodeHeaders_base64Text (headers : List (ByteArray × ByteArray)) :
    decodeHeaders (.arr (headers.map fun header =>
      .arr [base64Text header.1, base64Text header.2])) =
        some (headers.map fun header => (header.1.toList, header.2.toList)) := by
  rw [decodeHeaders]
  induction headers with
  | nil => rfl
  | cons header headers ih =>
    rw [List.map_cons, List.mapM_cons, ih, decodeHeader, b64decode_base64Text,
      b64decode_base64Text]
    rfl

/-- Each event is decoded. -/
theorem decodeEvent_encodeEvent (event : SentEvent) :
    decodeEvent (encodeEvent event) = .ok (replayed event) := by
  cases event with
  | start status headers =>
    have hbody (type status headers : Json) : List.lookup (lit "bodyBase64")
        [(lit "type", type), (lit "status", status), (lit "headersBase64", headers)] = none := rfl
    have hheaders (type status headers : Json) : List.lookup (lit "headersBase64")
        [(lit "type", type), (lit "status", status), (lit "headersBase64", headers)] =
          some headers := rfl
    simp only [encodeEvent, decodeEvent, replaceMember, hbody, hheaders, decodeHeaders_base64Text]
    rfl
  | body body moreBody =>
    have hbody (type body moreBody : Json) : List.lookup (lit "bodyBase64")
        [(lit "type", type), (lit "bodyBase64", body), (lit "more_body", moreBody)] =
          some body := rfl
    have hheaders (type body moreBody : Json) : List.lookup (lit "headersBase64")
        [(lit "type", type), (lit "bodyBase64", body), (lit "more_body", moreBody)] = none := rfl
    simp only [encodeEvent, decodeEvent, replaceMember, hbody, hheaders, b64decode_base64Text]
    rfl

/-- Events that were encoded decode to what is replayed. -/
theorem mapM_encodeEvent (events : List SentEvent) :
    (events.map encodeEvent).mapM decodeEvent = .ok (events.map replayed) := by
  induction events with
  | nil => rfl
  | cons event events ih =>
    rw [List.map_cons, List.mapM_cons, decodeEvent_encodeEvent, ih]
    rfl

/-- The status of an event, if it has one, is a safe integer. -/
def HasSafeStatus : SentEvent → Prop
  | .start status _ => status ≤ 2 ^ 53 - 1
  | .body _ _ => True

/-- Texts of headers are printed as they are. -/
theorem readBack_headers (headers : List (ByteArray × ByteArray)) :
    let texts := Json.arr (headers.map fun header =>
      .arr [base64Text header.1, base64Text header.2])
    texts.wellFormed = true ∧ texts.readBack = texts := by
  constructor
  · exact (Json.wellFormed_arr _).mpr (List.forall_mem_map.mpr fun _ _ => rfl)
  · rw [Json.readBack, Json.rebuild, Json.rebuildElems_eq, List.map_map]
    rfl

/-- A start event is read back unchanged. -/
theorem readBack_start {type status headers : Json}
    (h : ∀ v ∈ [type, status, headers], v.wellFormed = true ∧ v.readBack = v) :
    let start := Json.obj
      [(lit "type", type), (lit "status", status), (lit "headersBase64", headers)]
    start.wellFormed = true ∧ start.readBack = start := by
  obtain ⟨htype, htypeBack⟩ := h type (by simp)
  obtain ⟨hstatus, hstatusBack⟩ := h status (by simp)
  obtain ⟨hheaders, hheadersBack⟩ := h headers (by simp)
  have hkeys : ([lit "type", lit "status", lit "headersBase64"] : List JsString).Nodup := by decide
  constructor
  · refine (Json.wellFormed_obj _).mpr ⟨hkeys, ?_⟩
    simp [htype, hstatus, hheaders]
  · -- none of the three keys is an array index, so the order stays
    have horder (members : List (JsString × Json))
        (hmembers : members.map Prod.fst = [lit "type", lit "status", lit "headersBase64"]) :
        ownOrder members = members := ownOrder_eq_self fun p hp => by
      have hindex : ∀ key ∈ [lit "type", lit "status", lit "headersBase64"],
          arrayIndex? key = none := by decide
      exact hindex p.1 (hmembers ▸ List.mem_map_of_mem hp)
    simp only [Json.readBack] at htypeBack hstatusBack hheadersBack
    rw [Json.readBack, Json.rebuild, Json.rebuildMembers_eq, horder _ rfl]
    simp only [List.map_cons, List.map_nil, Prod.map, id, htypeBack, hstatusBack, hheadersBack]

/-- Each event is printed as it is. -/
theorem readBack_encodeEvent {event : SentEvent} (h : HasSafeStatus event) :
    (encodeEvent event).wellFormed = true ∧ (encodeEvent event).readBack = encodeEvent event := by
  cases event with
  | start status headers =>
    have hsafe : status ≤ 2 ^ 53 - 1 := h
    obtain ⟨x, hx, hsign⟩ := JsNumber.exists_ofInt_eq (z := (status : ℤ)) (by simpa using hsafe)
      (Int.natCast_nonneg status)
    have hnumber : (Json.num (.finite x)).readBack = .num (.finite x) :=
      congrArg Json.num (JsNumber.unsignZero_of_neg_eq_false hsign)
    rw [encodeEvent, hx]
    refine readBack_start fun v hv => ?_
    rcases List.mem_cons.mp hv with rfl | hv
    · exact ⟨rfl, rfl⟩
    · rcases List.mem_cons.mp hv with rfl | hv
      · exact ⟨rfl, hnumber⟩
      · rw [List.mem_singleton.mp hv]
        exact readBack_headers headers
  | body body moreBody => exact ⟨by rfl, by rfl⟩

/-- What the application sends is what the server sees, whatever bytes are in it. -/
theorem eventsOf_encodeEventsForStdout (codeText : ℤ → JsString) (errorText : List UInt8 → JsString)
    (stderr : List UInt8) {events : List SentEvent}
    (hstatus : ∀ event ∈ events, HasSafeStatus event) :
    eventsOf codeText errorText
        ⟨0, utf8Encode (toScalars (encodeEventsForStdout events)), stderr⟩ =
      .ok (events.map replayed) := by
  have hwellFormed : (Json.arr (events.map encodeEvent)).wellFormed = true :=
    (Json.wellFormed_arr _).mpr (List.forall_mem_map.mpr fun event hevent =>
      (readBack_encodeEvent (hstatus event hevent)).1)
  have hreadBack : (Json.arr (events.map encodeEvent)).readBack =
      .arr (events.map encodeEvent) := by
    rw [Json.readBack, Json.rebuild, Json.rebuildElems_eq, List.map_map]
    exact congrArg Json.arr (List.map_congr_left fun event hevent =>
      (readBack_encodeEvent (hstatus event hevent)).2)
  rw [encodeEventsForStdout, toScalars_ofText, eventsOf, if_neg (by simp),
    utf8DecodeFatal?_utf8Encode, Option.bind_some, jsonParse_stringify hwellFormed, hreadBack]
  exact mapM_encodeEvent events

/-- A redirection and its body. -/
theorem eventsOf_encodeEventsForStdout_sample :
    eventsOf (fun _ => []) (fun _ => []) ⟨0, utf8Encode (toScalars (encodeEventsForStdout
        [.start 307 [("location".toUTF8, "/".toUTF8)], .body ⟨#[0, 255]⟩ false])), []⟩ =
      .ok [replayed (.start 307 [("location".toUTF8, "/".toUTF8)]),
        replayed (.body ⟨#[0, 255]⟩ false)] := by
  have hstatus : ∀ event ∈ [.start 307 [("location".toUTF8, "/".toUTF8)], .body ⟨#[0, 255]⟩ false],
      HasSafeStatus event := by
    simp [HasSafeStatus]
  exact eventsOf_encodeEventsForStdout _ _ [] hstatus

end MetaframerKernel.StdioJsAsgiBridge
