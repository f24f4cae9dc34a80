import MetaframerKernel.Application.ActionPrimitives
import MetaframerKernel.Application.CanonicalText
import MetaframerKernel.Domain.IdentityObjects

/-!
# Commands and queries as objects

The methods `toJSON`, `toString` and `equals` of a command and of a query. The constructors accept
any object on the right prototype for an identity coordinate, so a command may be built around
objects that hold no identity, and its methods meet them.

## Main definitions

* `CommandState`, `QueryState`: what the private fields of the two types hold;
* `CommandState.toJson`, `QueryState.toJson`: the discovery envelopes;
* `Kind.equals`: the `equals` of any of the eight types, on any receiver and argument.

## Main results

* `Action.equals_eq_ok_iff`: genuine acts are equal when their coordinates are;
* `Kind.totalAndBrandSafe_iff`: when an `equals` answers, and answers for genuine values only.
-/

namespace MetaframerKernel

open Js Json

/-! ## What the private fields hold -/

/-- The coordinates a command and a query share. -/
structure Coordinates where
  name : JsString
  version : ℤ
  principal : Exact PrincipalState
  correlationId : Exact CorrelationId
  causationId : Option (Exact CausationId)
  payload : CanonicalObject
  nameOk : isActionName name = true
  versionOk : IsActionVersion version

/-- The private fields of a `Command`. -/
structure CommandState extends Coordinates where
  idempotencyKey : Exact IdempotencyKey

/-- The private fields of a `Query`. -/
structure QueryState extends Coordinates

/-- `exactly(value, type, typeName, what)`, where `none` is a value on another prototype. -/
def exactly {α : Type} (value : Option (Exact α)) (typeName what : String) :
    Except NativeError (Exact α) :=
  match value with
  | some object => .ok object
  | none => .error (.typeError (lit what ++ lit " needs an exact " ++ lit typeName ++
      lit " instance, already validated by the domain ring"))

/-- `optionalCausation`, of `null` or of another value. -/
def optionalCausation (value : Option (Option (Exact CausationId))) (what : String) :
    Except NativeError (Option (Exact CausationId)) :=
  match value with
  | none => .ok none
  | some value => (exactly value "CausationId" (what ++ " causationId")).map some

/-- `new Command(options)`, on coordinates of any provenance. -/
def CommandState.construct (name version : JsValue) (principal : Option (Exact PrincipalState))
    (correlationId : Option (Exact CorrelationId))
    (causationId : Option (Option (Exact CausationId)))
    (idempotencyKey : Option (Exact IdempotencyKey)) (payload : JsValue) :
    Except NativeError CommandState := do
  let name ← actionName (lit "Command") name
  let version ← actionVersion (lit "Command") version
  -- the coordinates are looked at by class only: what they hold is not checked again
  let principal ← exactly principal "Principal" "Command principal"
  let correlationId ← exactly correlationId "CorrelationId" "Command correlationId"
  let causationId ← optionalCausation causationId "Command"
  let idempotencyKey ← exactly idempotencyKey "IdempotencyKey" "Command idempotencyKey"
  let payload ← actionPayload (lit "a Command payload") payload
  return ⟨⟨name.1, version.1, principal, correlationId, causationId, payload,
    isActionName_coe name, isActionVersion_coe version⟩, idempotencyKey⟩

/-- `new Query(options)`, on coordinates of any provenance. -/
def QueryState.construct (name version : JsValue) (principal : Option (Exact PrincipalState))
    (correlationId : Option (Exact CorrelationId))
    (causationId : Option (Option (Exact CausationId))) (payload : JsValue) :
    Except NativeError QueryState := do
  let name ← actionName (lit "Query") name
  let version ← actionVersion (lit "Query") version
  let principal ← exactly principal "Principal" "Query principal"
  let correlationId ← exactly correlationId "CorrelationId" "Query correlationId"
  let causationId ← optionalCausation causationId "Query"
  let payload ← actionPayload (lit "a Query payload") payload
  return ⟨⟨name.1, version.1, principal, correlationId, causationId, payload,
    isActionName_coe name, isActionVersion_coe version⟩⟩

/-! ## Envelopes -/

/-- `causationId === null ? null : causationId.toString()` -/
def causationText : Option (Exact CausationId) → Except NativeError Printed
  | none => .ok Printed.null
  | some id => CausationId.toString id

/-- What the coordinates of an act are printed as. -/
structure Shown where
  name : JsString
  version : ℤ
  principal : Printed
  correlationId : Printed
  causationId : Printed
  payload : CanonicalObject
  versionOk : IsActionVersion version

/-- The coordinates that a command and a query share, as they are printed. -/
def Coordinates.shown (c : Coordinates) : Except NativeError Shown := do
  let principal ← Principal.toJson c.principal
  let correlationId ← CorrelationId.toString c.correlationId
  let causationId ← causationText c.causationId
  return ⟨c.name, c.version, principal, correlationId, causationId, c.payload, c.versionOk⟩

/-- The coordinates of a command, as they are printed. -/
def CommandState.shown (c : CommandState) : Except NativeError (Shown × Printed) := do
  let coordinates ← c.toCoordinates.shown
  let idempotencyKey ← IdempotencyKey.fingerprintOfObject c.idempotencyKey
  return (coordinates, idempotencyKey)

/-- The coordinates of a query, as they are printed. -/
def QueryState.shown (q : QueryState) : Except NativeError Shown := q.toCoordinates.shown

/-- The keys of the envelope of a command. -/
def commandKeys : List JsString :=
  ["kind", "name", "version", "principal", "correlationId", "causationId", "idempotencyKey",
    "payload"].map lit

/-- The keys of the envelope of a query. -/
def queryKeys : List JsString :=
  ["kind", "name", "version", "principal", "correlationId", "causationId", "payload"].map lit

/-- The values of the envelope of a command. -/
def commandValues : Shown × Printed → List (Option Json)
  | (c, idempotencyKey) =>
      [some (.str (lit "command")), some (.str c.name), some (.num (.ofInt c.version)),
        c.principal.value?, c.correlationId.value?, c.causationId.value?, idempotencyKey.value?,
        some c.payload.toJson]

/-- The values of the envelope of a query. -/
def queryValues (q : Shown) : List (Option Json) :=
  [some (.str (lit "query")), some (.str q.name), some (.num (.ofInt q.version)),
    q.principal.value?, q.correlationId.value?, q.causationId.value?, some q.payload.toJson]

/-- `Command.prototype.toJSON` -/
def CommandState.toJson (c : CommandState) : Except NativeError Json :=
  c.shown.map fun shown => .obj (present commandKeys (commandValues shown))

/-- `Query.prototype.toJSON` -/
def QueryState.toJson (q : QueryState) : Except NativeError Json :=
  q.shown.map fun shown => .obj (present queryKeys (queryValues shown))

/-- `Command.prototype.toString` -/
def CommandState.toString (c : CommandState) : Except NativeError JsString :=
  c.toJson.map fun envelope => ofText envelope.stringify

/-- `Query.prototype.toString` -/
def QueryState.toString (q : QueryState) : Except NativeError JsString :=
  q.toJson.map fun envelope => ofText envelope.stringify

/-- The comparison of two objects on one prototype by their texts, after the brand check of each. -/
def Exact.equalsByText {α : Type} (text : α → Except NativeError JsString) :
    Exact α → Exact α → Except NativeError Bool
  | .held this, .held other => do
      let theirs ← text other
      let ours ← text this
      return theirs == ours
  | _, _ => .ok false

/-- `Command.prototype.equals` -/
def Command.equals : Option (Exact CommandState) → Option (Exact CommandState) →
    Except NativeError Bool :=
  Exact.guarded false (Exact.equalsByText CommandState.toString)

/-- `Query.prototype.equals` -/
def Query.equals : Option (Exact QueryState) → Option (Exact QueryState) →
    Except NativeError Bool :=
  Exact.guarded false (Exact.equalsByText QueryState.toString)

/-! ## Texts tell coordinates apart -/

/-- The keys of a command's text are in the order in which they are written. -/
theorem isFixed_commandKeys : IsFixed commandKeys := by decide

/-- The keys of a query's text are in the order in which they are written. -/
theorem isFixed_queryKeys : IsFixed queryKeys := by decide

/-- A causation id is known by its value. -/
theorem CausationId.value_inj {a b : CausationId} (h : a.value = b.value) : a = b := by
  obtain ⟨⟨value, form, notNil⟩⟩ := a
  obtain ⟨⟨value', form', notNil'⟩⟩ := b
  obtain rfl : value = value' := h
  rfl

/-- An idempotency key is known by its fingerprint. -/
theorem IdempotencyKey.ext_fingerprint {a b : IdempotencyKey} (h : a.fingerprint = b.fingerprint) :
    a = b := by
  cases a
  exact congrArg IdempotencyKey.mk h

/-- Payloads that are printed alike are one payload. -/
theorem CanonicalObject.readBack_inj {o o' : CanonicalObject}
    (h : o.toJson.readBack = o'.toJson.readBack) : o = o' := by
  have hread (o : CanonicalObject) : canonical o.toJson.readBack = o.toJson :=
    (canonical_readBack (wellFormed_of_isHardened o.hardened)).trans
      (canonical_of_isHardened o.hardened)
  exact CanonicalObject.toJson_inj ((hread o).symm.trans ((congrArg canonical h).trans (hread o')))

/-- Versions that print alike are equal. -/
theorem version_inj {z z' : ℤ} (h : IsActionVersion z) (h' : IsActionVersion z')
    (heq : JsNumber.ofInt z = JsNumber.ofInt z') : z = z' := by
  have hsafe := safeInteger?_of_isActionVersion h
  rw [heq, safeInteger?_of_isActionVersion h'] at hsafe
  exact (Option.some.inj hsafe).symm

/-- Coordinates are the same when they are printed alike one by one. -/
theorem Shown.ext_printed {c d : Shown} (hname : c.name = d.name)
    (hversion : readBack (.num (.ofInt c.version)) = readBack (.num (.ofInt d.version)))
    (hprincipal : c.principal = d.principal) (hcorrelation : c.correlationId = d.correlationId)
    (hcausation : c.causationId = d.causationId)
    (hpayload : c.payload.toJson.readBack = d.payload.toJson.readBack) : c = d := by
  rw [readBack_version c.versionOk, readBack_version d.versionOk] at hversion
  have hversion := version_inj c.versionOk d.versionOk (Json.num.inj hversion)
  have hpayload := CanonicalObject.readBack_inj hpayload
  cases c
  cases d
  simp_all

/-- The members of a command's text are JSON values. -/
theorem wellFormed_commandValues {s : Shown × Printed} {v : Json}
    (h : some v ∈ commandValues s) : v.wellFormed = true := by
  obtain ⟨c, key⟩ := s
  simp only [commandValues, List.mem_cons, List.not_mem_nil, or_false, Option.some.injEq] at h
  rcases h with rfl | rfl | rfl | h | h | h | h | rfl
  · rfl
  · rfl
  · exact wellFormed_version c.versionOk
  · exact Printed.wellFormed_of_value? h.symm
  · exact Printed.wellFormed_of_value? h.symm
  · exact Printed.wellFormed_of_value? h.symm
  · exact Printed.wellFormed_of_value? h.symm
  · exact wellFormed_of_isHardened c.payload.hardened

/-- The members of a query's text are JSON values. -/
theorem wellFormed_queryValues {q : Shown} {v : Json} (h : some v ∈ queryValues q) :
    v.wellFormed = true := by
  simp only [queryValues, List.mem_cons, List.not_mem_nil, or_false, Option.some.injEq] at h
  rcases h with rfl | rfl | rfl | h | h | h | rfl
  · rfl
  · rfl
  · exact wellFormed_version q.versionOk
  · exact Printed.wellFormed_of_value? h.symm
  · exact Printed.wellFormed_of_value? h.symm
  · exact Printed.wellFormed_of_value? h.symm
  · exact wellFormed_of_isHardened q.payload.hardened

/-- The text of a command, from its coordinates as they are printed. -/
def commandText (shown : Shown × Printed) : JsString :=
  ofText (Json.obj (present commandKeys (commandValues shown))).stringify

/-- The text of a query, from its coordinates as they are printed. -/
def queryText (shown : Shown) : JsString :=
  ofText (Json.obj (present queryKeys (queryValues shown))).stringify

/-- A command's text is that of one list of shown members. -/
theorem commandText_injective : Function.Injective commandText := by
  rintro ⟨c, key⟩ ⟨d, key'⟩ h
  have hvalues := stringify_present_inj isFixed_commandKeys rfl rfl
    (fun _ => wellFormed_commandValues) (fun _ => wellFormed_commandValues) (ofText_injective h)
  simp only [commandValues, List.map_cons, List.map_nil, Option.map_some,
    Printed.map_readBack_value?, List.cons.injEq, Option.some.injEq, readBack_str,
    Json.str.injEq, true_and, and_true] at hvalues
  obtain ⟨hname, hversion, hprincipal, hcorrelation, hcausation, hkey, hpayload⟩ := hvalues
  rw [Shown.ext_printed hname hversion (Printed.value?_injective hprincipal)
    (Printed.value?_injective hcorrelation) (Printed.value?_injective hcausation) hpayload,
    Printed.value?_injective hkey]

/-- A query's text is that of one list of shown members. -/
theorem queryText_injective : Function.Injective queryText := by
  intro q r h
  have hvalues := stringify_present_inj isFixed_queryKeys rfl rfl
    (fun _ => wellFormed_queryValues) (fun _ => wellFormed_queryValues) (ofText_injective h)
  simp only [queryValues, List.map_cons, List.map_nil, Option.map_some,
    Printed.map_readBack_value?, List.cons.injEq, Option.some.injEq, readBack_str,
    Json.str.injEq, true_and, and_true] at hvalues
  obtain ⟨hname, hversion, hprincipal, hcorrelation, hcausation, hpayload⟩ := hvalues
  exact Shown.ext_printed hname hversion (Printed.value?_injective hprincipal)
    (Printed.value?_injective hcorrelation) (Printed.value?_injective hcausation) hpayload

/-- `toString` of a command writes what the command shows. -/
theorem CommandState.toString_eq (c : CommandState) : c.toString = c.shown.map commandText := by
  rw [toString, toJson]
  cases c.shown <;> rfl

/-- `toString` of a query writes what the query shows. -/
theorem QueryState.toString_eq (q : QueryState) : q.toString = q.shown.map queryText := by
  rw [toString, toJson]
  cases q.shown <;> rfl

/-- A comparison by text answers when both can be printed, with whether they are printed alike. -/
theorem Exact.equalsByText_held {α β : Type} {text : α → Except NativeError JsString}
    {shown : α → Except NativeError β} {print : β → JsString} (hprint : Function.Injective print)
    (htext : ∀ a, text a = (shown a).map print) {this other : α} {r : Bool} :
    equalsByText text (.held this) (.held other) = .ok r ↔
      ∃ s t, shown this = .ok s ∧ shown other = .ok t ∧ (r = true ↔ s = t) := by
  rw [equalsByText, htext, htext]
  -- the other is printed first, and each print may throw
  cases shown other with
  | error e => exact iff_of_false (fun h => by cases h) (by rintro ⟨s, t, -, h, -⟩; cases h)
  | ok t =>
    cases shown this with
    | error e => exact iff_of_false (fun h => by cases h) (by rintro ⟨s, t, h, -⟩; cases h)
    | ok s =>
      have hsame : (print t == print s) = true ↔ s = t := by
        rw [beq_iff_eq, hprint.eq_iff, eq_comm]
      constructor
      · intro h
        obtain rfl := Except.ok.inj h
        exact ⟨s, t, rfl, rfl, hsame⟩
      · rintro ⟨_, _, ⟨⟩, ⟨⟩, hr⟩
        refine congrArg Except.ok ?_
        rw [Bool.eq_iff_iff, hsame, hr]

/-! ## Genuine acts -/

/-- The private fields of a genuine command. -/
def Command.state (c : Command) : CommandState :=
  ⟨⟨c.name, c.version, .held c.principal.state, .held c.correlationId,
    c.causationId.map Exact.held, c.payload, c.nameOk, c.versionOk⟩, .held c.idempotencyKey⟩

/-- The private fields of a genuine query. -/
def Query.state (q : Query) : QueryState :=
  ⟨⟨q.name, q.version, .held q.principal.state, .held q.correlationId,
    q.causationId.map Exact.held, q.payload, q.nameOk, q.versionOk⟩⟩

/-- From genuine coordinates the constructor makes the command of those coordinates. -/
theorem CommandState.construct_held (name version : JsValue) (principal : Principal)
    (correlationId : CorrelationId) (causationId : Option CausationId)
    (idempotencyKey : IdempotencyKey) (payload : JsValue) :
    construct name version (some (.held principal.state)) (some (.held correlationId))
        (causationId.map fun id => some (.held id)) (some (.held idempotencyKey)) payload =
      (Command.ofRaw name version principal correlationId causationId idempotencyKey payload).map
        Command.state := by
  simp only [construct, Command.ofRaw, exactly]
  cases actionName (lit "Command") name with
  | error e => rfl
  | ok name =>
    cases actionVersion (lit "Command") version with
    | error e => rfl
    | ok version =>
      cases causationId <;> cases actionPayload (lit "a Command payload") payload <;> rfl

/-- From genuine coordinates the constructor makes the query of those coordinates. -/
theorem QueryState.construct_held (name version : JsValue) (principal : Principal)
    (correlationId : CorrelationId) (causationId : Option CausationId) (payload : JsValue) :
    construct name version (some (.held principal.state)) (some (.held correlationId))
        (causationId.map fun id => some (.held id)) payload =
      (Query.ofRaw name version principal correlationId causationId payload).map Query.state := by
  simp only [construct, Query.ofRaw, exactly]
  cases actionName (lit "Query") name with
  | error e => rfl
  | ok name =>
    cases actionVersion (lit "Query") version with
    | error e => rfl
    | ok version =>
      cases causationId <;> cases actionPayload (lit "a Query payload") payload <;> rfl

namespace Action

/-- `a.equals(b)`: the method of the class of `a`, which finds `b` on its prototype or not. -/
def equals : Action → Action → Except NativeError Bool
  | command c, command d => Command.equals (some (.held c.state)) (some (.held d.state))
  | command c, query _ => Command.equals (some (.held c.state)) none
  | query q, query r => Query.equals (some (.held q.state)) (some (.held r.state))
  | query q, command _ => Query.equals (some (.held q.state)) none

/-- Acts of one class that agree on every coordinate, the payload as a JSON value. -/
def SameCoordinates : Action → Action → Prop
  | command c, command d =>
      c.name = d.name ∧ c.version = d.version ∧
        c.principal.tenantId.value = d.principal.tenantId.value ∧
        c.principal.actorId.value = d.principal.actorId.value ∧
        c.correlationId.value = d.correlationId.value ∧
        c.causationId.map (·.value) = d.causationId.map (·.value) ∧
        c.idempotencyKey.fingerprint = d.idempotencyKey.fingerprint ∧
        c.payload.toJson.sameValue d.payload.toJson = true
  | query q, query r =>
      q.name = r.name ∧ q.version = r.version ∧
        q.principal.tenantId.value = r.principal.tenantId.value ∧
        q.principal.actorId.value = r.principal.actorId.value ∧
        q.correlationId.value = r.correlationId.value ∧
        q.causationId.map (·.value) = r.causationId.map (·.value) ∧
        q.payload.toJson.sameValue r.payload.toJson = true
  | command _, query _ => False
  | query _, command _ => False

end Action

/-- Canonical payloads that are one JSON value are one payload. -/
theorem CanonicalObject.sameValue_iff {o o' : CanonicalObject} :
    o.toJson.sameValue o'.toJson = true ↔ o = o' := by
  have h : canonical o.toJson = o.toJson := canonical_of_isHardened o.hardened
  have h' : canonical o'.toJson = o'.toJson := canonical_of_isHardened o'.hardened
  have hsame : o.toJson.sameValue o'.toJson = true ↔ canonical o.toJson = canonical o'.toJson :=
    sameValue_iff_canonical (wellFormed_of_isHardened o.hardened)
      (wellFormed_of_isHardened o'.hardened)
  rw [hsame, h, h']
  exact ⟨CanonicalObject.toJson_inj, congrArg CanonicalObject.toJson⟩

/-- A principal is known by the values of its tenant and its actor. -/
theorem Principal.ext_value {p q : Principal} (htenant : p.tenantId.value = q.tenantId.value)
    (hactor : p.actorId.value = q.actorId.value) : p = q := by
  cases p
  cases q
  exact congr (congrArg Principal.mk (TenantId.ext htenant)) (ActorId.value_inj hactor)

/-- Causation ids that may be absent are known by their values. -/
theorem CausationId.map_value_inj {a b : Option CausationId}
    (h : a.map (fun id => id.value) = b.map fun id => id.value) : a = b :=
  Option.map_injective (fun _ _ => CausationId.value_inj) h

/-- Principals print alike when both of their identities do. -/
theorem Printed.ext_object {t t' a a' : JsString}
    (h : Printed.object PrincipalState.jsonKeys PrincipalState.isFixed_jsonKeys
        [Printed.str t, Printed.str a] =
      Printed.object PrincipalState.jsonKeys PrincipalState.isFixed_jsonKeys
        [Printed.str t', Printed.str a']) : t = t' ∧ a = a' := by
  obtain ⟨htenant, hactor⟩ := List.cons.inj (Printed.object_inj rfl rfl h)
  exact ⟨Printed.str_injective htenant, Printed.str_injective (List.singleton_injective hactor)⟩

/-- The coordinates of a genuine act, as they are printed. -/
def shownOf (name : JsString) (version : ℤ) (principal : Principal) (correlationId : CorrelationId)
    (causationId : Option CausationId) (payload : CanonicalObject)
    (versionOk : IsActionVersion version) : Shown where
  name := name
  version := version
  principal := Printed.object PrincipalState.jsonKeys PrincipalState.isFixed_jsonKeys
    [Printed.str principal.tenantId.value, Printed.str principal.actorId.value]
  correlationId := Printed.str correlationId.value
  causationId := causationId.elim Printed.null fun id => Printed.str id.value
  payload := payload
  versionOk := versionOk

/-- A genuine command shows all of its coordinates and the fingerprint of its key. -/
theorem Command.shown_state (c : Command) : c.state.shown =
    .ok (shownOf c.name c.version c.principal c.correlationId c.causationId c.payload c.versionOk,
      Printed.str c.idempotencyKey.fingerprint) := by
  obtain ⟨name, version, principal, correlationId, causationId, key, payload, _, _⟩ := c
  cases causationId <;> rfl

/-- A genuine query shows all of its coordinates. -/
theorem Query.shown_state (q : Query) : q.state.shown = .ok (shownOf q.name q.version q.principal
    q.correlationId q.causationId q.payload q.versionOk) := by
  obtain ⟨name, version, principal, correlationId, causationId, payload, _, _⟩ := q
  cases causationId <;> rfl

/-- An absent causation id prints as no present one does. -/
theorem causation_inj {a b : Option CausationId}
    (h : a.elim Printed.null (fun id => Printed.str id.value) =
      b.elim Printed.null fun id => Printed.str id.value) : a = b := by
  have hnull (s : JsString) : Printed.null ≠ Printed.str s := by
    intro h
    cases congrArg Subtype.val (Option.some.inj h)
  cases a with
  | none =>
    cases b with
    | none => rfl
    | some b => exact absurd h (hnull _)
  | some a =>
    cases b with
    | none => exact absurd h.symm (hnull _)
    | some b => exact congrArg some (CausationId.value_inj (Printed.str_injective h))

/-- Genuine commands that are printed alike are one command. -/
theorem Command.eq_of_shown {c d : Command} (h : c.state.shown = d.state.shown) : c = d := by
  rw [Command.shown_state, Command.shown_state] at h
  obtain ⟨hshown, hkey⟩ := Prod.mk.inj (Except.ok.inj h)
  obtain ⟨hname, hversion, hprincipal, hcorrelation, hcausation, hpayload⟩ := Shown.mk.inj hshown
  obtain ⟨htenant, hactor⟩ := Printed.ext_object hprincipal
  have hprincipal := Principal.ext_value htenant hactor
  have hcorrelation := CorrelationId.value_inj (Printed.str_injective hcorrelation)
  have hcausation := causation_inj hcausation
  have hkey := IdempotencyKey.ext_fingerprint (Printed.str_injective hkey)
  cases c
  cases d
  simp_all

/-- Genuine queries that are printed alike are one query. -/
theorem Query.eq_of_shown {q r : Query} (h : q.state.shown = r.state.shown) : q = r := by
  rw [Query.shown_state, Query.shown_state] at h
  obtain ⟨hname, hversion, hprincipal, hcorrelation, hcausation, hpayload⟩ :=
    Shown.mk.inj (Except.ok.inj h)
  obtain ⟨htenant, hactor⟩ := Printed.ext_object hprincipal
  have hprincipal := Principal.ext_value htenant hactor
  have hcorrelation := CorrelationId.value_inj (Printed.str_injective hcorrelation)
  have hcausation := causation_inj hcausation
  cases q
  cases r
  simp_all

/-- Two commands are one when all their coordinates are. -/
theorem Command.eq_iff {c d : Command} :
    c = d ↔ Action.SameCoordinates (.command c) (.command d) := by
  constructor
  · rintro rfl
    exact ⟨rfl, rfl, rfl, rfl, rfl, rfl, rfl, CanonicalObject.sameValue_iff.mpr rfl⟩
  · rintro ⟨hname, hversion, htenant, hactor, hcorrelation, hcausation, hkey, hpayload⟩
    have hprincipal := Principal.ext_value htenant hactor
    have hcorrelation' := CorrelationId.value_inj hcorrelation
    have hcausation' := CausationId.map_value_inj hcausation
    have hkey' := IdempotencyKey.ext_fingerprint hkey
    have hpayload' := CanonicalObject.sameValue_iff.mp hpayload
    cases c
    cases d
    simp_all

/-- Two queries are one when all their coordinates are. -/
theorem Query.eq_iff {q r : Query} : q = r ↔ Action.SameCoordinates (.query q) (.query r) := by
  constructor
  · rintro rfl
    exact ⟨rfl, rfl, rfl, rfl, rfl, rfl, CanonicalObject.sameValue_iff.mpr rfl⟩
  · rintro ⟨hname, hversion, htenant, hactor, hcorrelation, hcausation, hpayload⟩
    have hprincipal := Principal.ext_value htenant hactor
    have hcorrelation' := CorrelationId.value_inj hcorrelation
    have hcausation' := CausationId.map_value_inj hcausation
    have hpayload' := CanonicalObject.sameValue_iff.mp hpayload
    cases q
    cases r
    simp_all

/-- On genuine acts `equals` always answers, and answers whether they are of one class and agree on
every coordinate. -/
theorem Action.equals_eq_ok_iff (a b : Action) :
    ∃ r, a.equals b = .ok r ∧ (r = true ↔ a.SameCoordinates b) := by
  cases a with
  | command c =>
    cases b with
    | command d =>
      classical
      -- the texts are compared, and a text shows every coordinate
      refine ⟨decide (c = d), ?_, decide_eq_true_iff.trans Command.eq_iff⟩
      refine (Exact.equalsByText_held commandText_injective CommandState.toString_eq).mpr
        ⟨_, _, Command.shown_state c, Command.shown_state d, decide_eq_true_iff.trans ?_⟩
      refine ⟨fun h => h ▸ rfl, fun h => Command.eq_of_shown ?_⟩
      rw [Command.shown_state, Command.shown_state, h]
    | query q => exact ⟨false, rfl, by simp [SameCoordinates]⟩
  | query q =>
    cases b with
    | command d => exact ⟨false, rfl, by simp [SameCoordinates]⟩
    | query r =>
      classical
      -- the texts are compared, and a text shows every coordinate
      refine ⟨decide (q = r), ?_, decide_eq_true_iff.trans Query.eq_iff⟩
      refine (Exact.equalsByText_held queryText_injective QueryState.toString_eq).mpr
        ⟨_, _, Query.shown_state q, Query.shown_state r, decide_eq_true_iff.trans ?_⟩
      refine ⟨fun h => h ▸ rfl, fun h => Query.eq_of_shown ?_⟩
      rw [Query.shown_state, Query.shown_state, h]

/-! ## Any receiver, any argument -/

/-- The types with an `equals`. -/
inductive Kind where
  | tenantId
  | correlationId
  | causationId
  | actorId
  | principal
  | idempotencyKey
  | command
  | query
deriving DecidableEq

namespace Kind

/-- What the private fields of an instance hold. -/
def State : Kind → Type
  | tenantId => TenantId
  | correlationId => CorrelationId
  | causationId => CausationId
  | actorId => ActorId
  | principal => PrincipalState
  | idempotencyKey => IdempotencyKey
  | command => CommandState
  | query => QueryState

/-- The canonical values of the genuine instances. -/
def Canonical : Kind → Type
  | tenantId => TenantId
  | correlationId => CorrelationId
  | causationId => CausationId
  | actorId => ActorId
  | principal => Principal
  | idempotencyKey => IdempotencyKey
  | command => Command
  | query => Query

end Kind

/-- A receiver or an argument. -/
inductive Value where
  /-- A primitive, or an object that has to do with none of the types. -/
  | foreign (v : JsValue)
  /-- An object on the prototype of a type. -/
  | onPrototype (kind : Kind) (object : Exact kind.State)
  /-- An instance of a subclass of a type. -/
  | ofSubclass (kind : Kind) (state : kind.State)

/-- The object the test `isExactly(value, type)` finds. -/
def Value.exactly? (kind : Kind) : Value → Option (Exact kind.State)
  | foreign _ => none
  | onPrototype kind' object => if h : kind' = kind then some (h ▸ object) else none
  | ofSubclass _ _ => none

/-- `equals` of a type, called on any receiver with any argument. -/
def Kind.equals (kind : Kind) (this other : Value) : Except NativeError Answer :=
  -- each method reads its receiver and its argument by the private fields of its own class
  match kind with
  | tenantId => (TenantId.equals (this.exactly? tenantId) (other.exactly? tenantId)).map .boolean
  | correlationId =>
      (CorrelationId.equals (this.exactly? correlationId) (other.exactly? correlationId)).map
        .boolean
  | causationId =>
      (CausationId.equals (this.exactly? causationId) (other.exactly? causationId)).map .boolean
  | actorId => (ActorId.equals (this.exactly? actorId) (other.exactly? actorId)).map .boolean
  | principal => Principal.equals (this.exactly? principal) (other.exactly? principal)
  | idempotencyKey =>
      (IdempotencyKey.equals (this.exactly? idempotencyKey)
        (other.exactly? idempotencyKey)).map .boolean
  | command => (Command.equals (this.exactly? command) (other.exactly? command)).map .boolean
  | query => (Query.equals (this.exactly? query) (other.exactly? query)).map .boolean

/-! ### Canonical values -/

/-- The principal of an instance both of whose parts hold an identity. -/
def PrincipalState.genuine? (p : PrincipalState) : Option Principal := do
  let tenantId ← p.tenantId.held?
  let actorId ← p.actorId.held?
  return ⟨tenantId, actorId⟩

/-- The causation of an act, when it is null or holds an identity. -/
def heldCausation? : Option (Exact CausationId) → Option (Option CausationId)
  | none => some none
  | some id => id.held?.map some

/-- The command of an instance all of whose coordinates hold an identity. -/
def CommandState.genuine? (c : CommandState) : Option Command := do
  let principal ← c.principal.held?
  let principal ← principal.genuine?
  let correlationId ← c.correlationId.held?
  let causationId ← heldCausation? c.causationId
  let idempotencyKey ← c.idempotencyKey.held?
  return ⟨c.name, c.version, principal, correlationId, causationId, idempotencyKey, c.payload,
    c.nameOk, c.versionOk⟩

/-- The query of an instance all of whose coordinates hold an identity. -/
def QueryState.genuine? (q : QueryState) : Option Query := do
  let principal ← q.principal.held?
  let principal ← principal.genuine?
  let correlationId ← q.correlationId.held?
  let causationId ← heldCausation? q.causationId
  return ⟨q.name, q.version, principal, correlationId, causationId, q.payload, q.nameOk,
    q.versionOk⟩

/-- The canonical value of an instance, when it is genuine in all its parts. -/
def Kind.genuine? : (kind : Kind) → kind.State → Option kind.Canonical
  | tenantId, id => some id
  | correlationId, id => some id
  | causationId, id => some id
  | actorId, id => some id
  | principal, p => PrincipalState.genuine? p
  | idempotencyKey, key => some key
  | command, c => CommandState.genuine? c
  | query, q => QueryState.genuine? q

/-- The canonical value of a genuine instance of exactly the type. -/
def Value.canonical? (kind : Kind) (v : Value) : Option kind.Canonical := do
  let object ← v.exactly? kind
  let state ← object.held?
  kind.genuine? state

/-- `equals` answers a boolean, and true for genuine instances of one canonical value only. -/
def Kind.TotalAndBrandSafe (kind : Kind) (this other : Value) : Prop :=
  ∃ r, kind.equals this other = .ok (.boolean r) ∧
    (r = true → ∃ value, this.canonical? kind = some value ∧ other.canonical? kind = some value)

/-! ### When they do -/

/-- An object holds its private state. -/
def Exact.IsHeld {α : Type} (a : Exact α) : Prop := ∃ state, a = held state

/-- What a coordinate of a principal answers when it is compared with another one: an instance
whether they are the same, and an object made on the prototype what it likes. -/
inductive Exact.Compares {α : Type} : Exact α → Exact α → Answer → Prop
  | held {theirs ours : α} {same : Bool} : (same = true ↔ theirs = ours) →
      Compares (held theirs) (held ours) (.boolean same)
  | hollow {members : OwnMembers α} {ours : Exact α} {answer : Answer} :
      members.equals ours.held? = .ok answer → Compares (hollow members) ours answer

/-- The condition on two objects on the prototype of a type under which its `equals` answers, and
answers for genuine values only. -/
def Kind.HoldsOn : (kind : Kind) → Exact kind.State → Exact kind.State → Prop
  | tenantId, this, other => this.IsHeld ∧ other.IsHeld
  | correlationId, this, other => this.IsHeld ∧ other.IsHeld
  | causationId, this, other => this.IsHeld ∧ other.IsHeld
  | actorId, this, other => this.IsHeld ∧ other.IsHeld
  | idempotencyKey, this, other => this.IsHeld ∧ other.IsHeld
  /- The tenants tell the principals apart, or the actors do, or both are one genuine principal. -/
  | principal, this, other => ∃ p q : PrincipalState, this = .held p ∧ other = .held q ∧
      (q.tenantId.Compares p.tenantId (.boolean false) ∨
        (∃ same, same.isTruthy = true ∧ q.tenantId.Compares p.tenantId same ∧
          q.actorId.Compares p.actorId (.boolean false)) ∨
        ∃ principal : Principal, p = principal.state ∧ q = principal.state)
  /- Every coordinate can be printed, and acts that are printed alike are genuine. -/
  | command, this, other => ∀ c d : CommandState, this = .held c → other = .held d →
      ∃ s t, c.shown = .ok s ∧ d.shown = .ok t ∧
        (s = t → (∃ command : Command, c = command.state) ∧ ∃ command : Command, d = command.state)
  | query, this, other => ∀ q r : QueryState, this = .held q → other = .held r →
      ∃ s t, q.shown = .ok s ∧ r.shown = .ok t ∧
        (s = t → (∃ query : Query, q = query.state) ∧ ∃ query : Query, r = query.state)

namespace Exact

variable {α β γ : Type}

/-- An object has a private state when it holds it. -/
theorem held?_eq_some {a : Exact α} {state : α} : a.held? = some state ↔ a = held state := by
  cases a <;> simp [held?]

/-- A private field is read of an object that holds it, and of no other. -/
theorem read_eq_ok {field : String} {a : Exact α} {state : α} :
    a.read field = .ok state ↔ a = held state := by
  cases a <;> simp [read]

/-- A comparison answers a boolean, and true for values of one canonical value only. -/
def Safe (genuine? : α → Option β) (body : Exact α → Exact α → Except NativeError Answer)
    (this other : Exact α) : Prop :=
  ∃ r, body this other = .ok (.boolean r) ∧
    (r = true → ∃ value, this.held?.bind genuine? = some value ∧
      other.held?.bind genuine? = some value)

/-- Behind the prototype tests only objects on the prototype are compared. -/
theorem safe_guarded {genuine? : α → Option β}
    {body : Exact α → Exact α → Except NativeError Answer} {this other : Option (Exact α)} :
    (∃ r, guarded (.boolean false) body this other = .ok (.boolean r) ∧ (r = true → ∃ value,
      (this.bind fun object => object.held?.bind genuine?) = some value ∧
        (other.bind fun object => object.held?.bind genuine?) = some value)) ↔
      ∀ a b, this = some a → other = some b → Safe genuine? body a b := by
  cases this with
  | none => simp [guarded]
  | some a =>
    cases other with
    | none => simp [guarded]
    | some b =>
      simp only [guarded, Option.bind_some, Option.some.injEq]
      exact ⟨by rintro h _ _ rfl rfl; exact h, fun h => h a b rfl rfl⟩

/-- What is done with the answer of a guarded comparison is done in both of its cases. -/
theorem map_guarded {no : β} {body : Exact α → Exact α → Except NativeError β} (f : β → γ)
    (this other : Option (Exact α)) :
    (guarded no body this other).map f =
      guarded (f no) (fun a b => (body a b).map f) this other := by
  cases this with
  | none => rfl
  | some a => cases other <;> rfl

/-- And so where the comparison answers a boolean. -/
theorem safe_map_guarded {genuine? : α → Option β}
    {body : Exact α → Exact α → Except NativeError Bool} {this other : Option (Exact α)} :
    (∃ r, (guarded false body this other).map Answer.boolean = .ok (.boolean r) ∧
      (r = true → ∃ value,
        (this.bind fun object => object.held?.bind genuine?) = some value ∧
          (other.bind fun object => object.held?.bind genuine?) = some value)) ↔
      ∀ a b, this = some a → other = some b →
        Safe genuine? (fun a b => (body a b).map Answer.boolean) a b := by
  rw [map_guarded]
  exact safe_guarded

/-- An answer is a boolean when the comparison returns it. -/
theorem map_boolean_eq_ok {x : Except NativeError Bool} {r : Bool} :
    x.map Answer.boolean = .ok (.boolean r) ↔ x = .ok r := by
  cases x <;> simp [Except.map]

/-- Comparing by a value that determines the state is safe. -/
theorem safe_equalsBy {field : String} {value : α → JsString}
    (hvalue : ∀ a b, value a = value b → a = b) {this other : Exact α} :
    Safe some (fun a b => (equalsBy field value a b).map .boolean) this other ↔
      this.IsHeld ∧ other.IsHeld := by
  simp only [Safe, map_boolean_eq_ok, equalsBy_eq_ok]
  constructor
  · rintro ⟨r, ⟨a, b, ha, hb, -⟩, -⟩
    exact ⟨⟨a, ha⟩, ⟨b, hb⟩⟩
  · rintro ⟨⟨a, rfl⟩, ⟨b, rfl⟩⟩
    refine ⟨_, ⟨a, b, rfl, rfl, rfl⟩, fun h => ⟨a, rfl, ?_⟩⟩
    obtain rfl := hvalue _ _ (beq_iff_eq.mp h)
    rfl

/-- A call of `equals` on a coordinate answers as the coordinates compare. -/
theorem callEquals_eq_ok {field : String} {value : α → JsString}
    (hvalue : ∀ a b, value a = value b → a = b) {theirs ours : Exact α} {answer : Answer} :
    callEquals (guarded false (equalsBy field value)) theirs ours = .ok answer ↔
      theirs.Compares ours answer := by
  cases theirs with
  | hollow members =>
    refine ⟨.hollow, fun h => ?_⟩
    cases h with
    | hollow h => exact h
  | held t =>
    cases ours with
    | hollow members =>
      refine iff_of_false (fun h => ?_) fun h => ?_
      · cases h
      · cases h
    | held u =>
      -- a value that is read of both decides as the states do
      have hsame : (value u == value t) = true ↔ t = u :=
        beq_iff_eq.trans ⟨fun h => (hvalue _ _ h).symm, fun h => h ▸ rfl⟩
      constructor
      · intro h
        obtain rfl := Except.ok.inj h
        exact .held hsame
      · intro h
        cases h with
        | held h =>
          refine congrArg (fun same => Except.ok (Answer.boolean same)) ?_
          rw [Bool.eq_iff_iff, hsame, h]

/-- Comparing by a text that determines the state is safe. -/
theorem safe_equalsByText {genuine? : α → Option β} {text : α → Except NativeError JsString}
    {shown : α → Except NativeError γ} {print : γ → JsString} (hprint : Function.Injective print)
    (htext : ∀ a, text a = (shown a).map print)
    (hgenuine : ∀ a b s value, shown a = .ok s → shown b = .ok s → genuine? a = some value →
      (genuine? b).isSome = true → genuine? b = some value) {this other : Exact α} :
    Safe genuine? (fun a b => (equalsByText text a b).map .boolean) this other ↔
      ∀ c d, this = held c → other = held d → ∃ s t, shown c = .ok s ∧ shown d = .ok t ∧
        (s = t → (genuine? c).isSome = true ∧ (genuine? d).isSome = true) := by
  cases this with
  | hollow members => exact iff_of_true ⟨false, rfl, by simp⟩ (by simp)
  | held c =>
    cases other with
    | hollow members => exact iff_of_true ⟨false, rfl, by simp⟩ (by simp)
    | held d =>
      -- both show something: the answer is whether they show the same
      simp only [Safe, map_boolean_eq_ok, equalsByText_held hprint htext, held.injEq, held?,
        Option.bind_some]
      constructor
      · rintro ⟨r, ⟨s, t, hs, ht, hr⟩, hsafe⟩ _ _ rfl rfl
        refine ⟨s, t, hs, ht, fun hst => ?_⟩
        obtain ⟨value, hc, hd⟩ := hsafe (hr.mpr hst)
        exact ⟨by rw [hc]; rfl, by rw [hd]; rfl⟩
      · intro h
        classical
        obtain ⟨s, t, hs, ht, hboth⟩ := h c d rfl rfl
        refine ⟨decide (s = t), ⟨s, t, hs, ht, decide_eq_true_iff⟩, fun hst => ?_⟩
        obtain rfl := of_decide_eq_true hst
        obtain ⟨hc, hd⟩ := hboth rfl
        obtain ⟨value, hvalue⟩ := Option.isSome_iff_exists.mp hc
        exact ⟨value, hvalue, hgenuine c d s value hs ht hvalue hd⟩

end Exact

/-- A principal is genuine when it is the one made of genuine parts. -/
theorem PrincipalState.genuine?_eq_some {p : PrincipalState} {principal : Principal} :
    p.genuine? = some principal ↔ p = principal.state := by
  obtain ⟨tenant, actor⟩ := p
  cases principal
  cases tenant <;> cases actor <;> simp [genuine?, Exact.held?, Principal.state]

/-- The causation id of an action is held when it is absent or an instance. -/
theorem heldCausation?_eq_some {id : Option (Exact CausationId)} {held : Option CausationId} :
    heldCausation? id = some held ↔ id = held.map Exact.held := by
  cases id with
  | none => cases held <;> simp [heldCausation?]
  | some id => cases held <;> cases id <;> simp [heldCausation?, Exact.held?]

/-- A command is genuine when it is the one made of genuine coordinates. -/
theorem CommandState.genuine?_eq_some {c : CommandState} {command : Command} :
    c.genuine? = some command ↔ c = command.state := by
  simp only [genuine?, Option.bind_eq_bind, Option.bind_eq_some_iff, Exact.held?_eq_some,
    PrincipalState.genuine?_eq_some, heldCausation?_eq_some]
  constructor
  · rintro ⟨p, hp, principal, rfl, id, hid, cause, hcause, key, hkey, h⟩
    obtain rfl := Option.some.inj h
    obtain ⟨⟨name, version, principal', id', cause', payload, _, _⟩, key'⟩ := c
    simp only at hp hid hcause hkey
    subst hp hid hcause hkey
    rfl
  · rintro rfl
    exact ⟨_, rfl, _, rfl, _, rfl, _, rfl, _, rfl, rfl⟩

/-- A query is genuine when it is the one made of genuine coordinates. -/
theorem QueryState.genuine?_eq_some {q : QueryState} {query : Query} :
    q.genuine? = some query ↔ q = query.state := by
  simp only [genuine?, Option.bind_eq_bind, Option.bind_eq_some_iff, Exact.held?_eq_some,
    PrincipalState.genuine?_eq_some, heldCausation?_eq_some]
  constructor
  · rintro ⟨p, hp, principal, rfl, id, hid, cause, hcause, h⟩
    obtain rfl := Option.some.inj h
    obtain ⟨⟨name, version, principal', id', cause', payload, _, _⟩⟩ := q
    simp only at hp hid hcause
    subst hp hid hcause
    rfl
  · rintro rfl
    exact ⟨_, rfl, _, rfl, _, rfl, _, rfl, rfl⟩

/-- The state of a command is genuine when it is that of a command made by the constructor. -/
theorem CommandState.isSome_genuine? {c : CommandState} :
    c.genuine?.isSome = true ↔ ∃ command : Command, c = command.state := by
  simp only [Option.isSome_iff_exists, genuine?_eq_some]

/-- The state of a query is genuine when it is that of a query made by the constructor. -/
theorem QueryState.isSome_genuine? {q : QueryState} :
    q.genuine?.isSome = true ↔ ∃ query : Query, q = query.state := by
  simp only [Option.isSome_iff_exists, genuine?_eq_some]

/-- The comparison of principals asks the tenants first, and the actors when their answer passes. -/
theorem PrincipalState.equals_eq_ok {this other : Exact PrincipalState} {answer : Answer} :
    equals this other = .ok answer ↔ ∃ p q, this = .held p ∧ other = .held q ∧
      ∃ same, q.tenantId.Compares p.tenantId same ∧
        (same.isTruthy = true ∧ q.actorId.Compares p.actorId answer ∨
          same.isTruthy = false ∧ answer = same) := by
  have htenant {a b : Exact TenantId} {r : Answer} :
      a.callEquals TenantId.equals b = .ok r ↔ a.Compares b r :=
    Exact.callEquals_eq_ok fun _ _ => TenantId.ext
  have hactor {a b : Exact ActorId} {r : Answer} :
      a.callEquals ActorId.equals b = .ok r ↔ a.Compares b r :=
    Exact.callEquals_eq_ok fun _ _ => ActorId.value_inj
  -- `&&`: the actors are compared when the comparison of the tenants is truthy
  simp only [equals, bind_eq_ok, Exact.read_eq_ok, htenant]
  constructor
  · rintro ⟨q, hq, p, hp, same, hsame, h⟩
    refine ⟨p, q, hp, hq, same, hsame, ?_⟩
    split_ifs at h with htruthy
    · exact .inl ⟨htruthy, hactor.mp h⟩
    · exact .inr ⟨Bool.eq_false_of_not_eq_true htruthy, (Except.ok.inj h).symm⟩
  · rintro ⟨p, q, hp, hq, same, hsame, ⟨htruthy, h⟩ | ⟨hfalse, rfl⟩⟩
    · exact ⟨q, hq, p, hp, same, hsame, by rw [if_pos htruthy]; exact hactor.mpr h⟩
    · exact ⟨q, hq, p, hp, _, hsame, by rw [hfalse]; rfl⟩

/-- When the comparison of principals answers. -/
theorem PrincipalState.safe_equals {this other : Exact PrincipalState} :
    Exact.Safe genuine? equals this other ↔ Kind.HoldsOn .principal this other := by
  simp only [Exact.Safe, equals_eq_ok, Kind.HoldsOn]
  constructor
  · rintro ⟨r, ⟨p, q, rfl, rfl, same, hsame, ⟨htruthy, hactors⟩ | ⟨hfalse, rfl⟩⟩, hgenuine⟩
    · refine ⟨p, q, rfl, rfl, .inr ?_⟩
      cases r with
      | false => exact .inl ⟨same, htruthy, hsame, hactors⟩
      | true =>
        obtain ⟨principal, hp, hq⟩ := hgenuine rfl
        exact .inr ⟨principal, genuine?_eq_some.mp hp, genuine?_eq_some.mp hq⟩
    · obtain rfl : r = false := hfalse
      exact ⟨p, q, rfl, rfl, .inl hsame⟩
  · rintro ⟨p, q, rfl, rfl, htenants | ⟨same, htruthy, hsame, hactors⟩ | ⟨principal, rfl, rfl⟩⟩
    · exact ⟨false, ⟨p, q, rfl, rfl, _, htenants, .inr ⟨rfl, rfl⟩⟩, by simp⟩
    · exact ⟨false, ⟨p, q, rfl, rfl, same, hsame, .inl ⟨htruthy, hactors⟩⟩, by simp⟩
    · exact ⟨true, ⟨_, _, rfl, rfl, .boolean true, .held (by simp), .inl ⟨rfl, .held (by simp)⟩⟩,
        fun _ => ⟨principal, genuine?_eq_some.mpr rfl, genuine?_eq_some.mpr rfl⟩⟩

/-- When the comparison of commands answers. -/
theorem CommandState.safe_equalsByText {this other : Exact CommandState} :
    Exact.Safe genuine? (fun a b => (Exact.equalsByText toString a b).map .boolean) this other ↔
      Kind.HoldsOn .command this other := by
  refine (Exact.safe_equalsByText commandText_injective toString_eq ?_).trans ?_
  · intro c d s command hc hd hcommand hgenuine
    obtain ⟨command', rfl⟩ := isSome_genuine?.mp hgenuine
    obtain rfl := genuine?_eq_some.mp hcommand
    rw [Command.eq_of_shown (hc.trans hd.symm)]
    exact genuine?_eq_some.mpr rfl
  · simp only [isSome_genuine?]
    rfl

/-- When the comparison of queries answers. -/
theorem QueryState.safe_equalsByText {this other : Exact QueryState} :
    Exact.Safe genuine? (fun a b => (Exact.equalsByText toString a b).map .boolean) this other ↔
      Kind.HoldsOn .query this other := by
  refine (Exact.safe_equalsByText queryText_injective toString_eq ?_).trans ?_
  · intro q r s query hq hr hquery hgenuine
    obtain ⟨query', rfl⟩ := isSome_genuine?.mp hgenuine
    obtain rfl := genuine?_eq_some.mp hquery
    rw [Query.eq_of_shown (hq.trans hr.symm)]
    exact genuine?_eq_some.mpr rfl
  · simp only [isSome_genuine?]
    rfl

/-- On any receiver and argument, `equals` answers, and answers true for genuine instances of one
canonical value only, when the objects it finds on the prototype hold or answer what it reads. -/
theorem Kind.totalAndBrandSafe_iff (kind : Kind) (this other : Value) :
    kind.TotalAndBrandSafe this other ↔
      ∀ a b, this.exactly? kind = some a → other.exactly? kind = some b → kind.HoldsOn a b := by
  -- the five identities compare by a value that determines them, the other three by what they show
  cases kind with
  | tenantId =>
    exact Exact.safe_map_guarded.trans
      (forall₄_congr fun _ _ _ _ => Exact.safe_equalsBy fun _ _ => TenantId.ext)
  | correlationId =>
    exact Exact.safe_map_guarded.trans
      (forall₄_congr fun _ _ _ _ => Exact.safe_equalsBy fun _ _ => CorrelationId.value_inj)
  | causationId =>
    exact Exact.safe_map_guarded.trans
      (forall₄_congr fun _ _ _ _ => Exact.safe_equalsBy fun _ _ => CausationId.value_inj)
  | actorId =>
    exact Exact.safe_map_guarded.trans
      (forall₄_congr fun _ _ _ _ => Exact.safe_equalsBy fun _ _ => ActorId.value_inj)
  | idempotencyKey =>
    exact Exact.safe_map_guarded.trans
      (forall₄_congr fun _ _ _ _ => Exact.safe_equalsBy fun _ _ => IdempotencyKey.ext_fingerprint)
  | principal =>
    exact Exact.safe_guarded.trans (forall₄_congr fun _ _ _ _ => PrincipalState.safe_equals)
  | command =>
    exact Exact.safe_map_guarded.trans
      (forall₄_congr fun _ _ _ _ => CommandState.safe_equalsByText)
  | query =>
    exact Exact.safe_map_guarded.trans
      (forall₄_congr fun _ _ _ _ => QueryState.safe_equalsByText)

/-- A tenant, for examples. -/
def TenantId.sample : TenantId :=
  ⟨⟨lit "10000000-0000-0000-0000-000000000001", by decide, by decide⟩⟩

/-- An actor, for examples. -/
def ActorId.sample : ActorId := ⟨lit "operator", by decide⟩

/-- A genuine tenant compared with an object made directly on its prototype throws, and so does a
principal the constructor made around such an object, compared with itself. -/
theorem Kind.not_totalAndBrandSafe_hollow :
    ¬ Kind.TotalAndBrandSafe .tenantId (.onPrototype .tenantId (.held TenantId.sample))
      (.onPrototype .tenantId (.created "TenantId")) ∧
    ∃ p, PrincipalState.construct (some (.created "TenantId")) (some (.held ActorId.sample)) =
        .ok p ∧
      ¬ Kind.TotalAndBrandSafe .principal (.onPrototype .principal (.held p))
        (.onPrototype .principal (.held p)) := by
  constructor
  · rintro ⟨r, h, -⟩
    cases h
  · refine ⟨⟨.created "TenantId", .held ActorId.sample⟩, rfl, ?_⟩
    rintro ⟨r, h, -⟩
    cases h

end MetaframerKernel
