import MetaframerKernel.Adapters.DecisionLogRow
import MetaframerKernel.Application.EntryHash
import MetaframerKernel.Domain.HexDigest

/-!
# Integrity of persisted decisions

What the hash of a persisted row says about its payload, and that the row the adapter writes for a
genuine entry is one it accepts again, whatever key order the database gives the payload back in.

## Main results

* `sameValue_iff_agreeOnProto`: among accepted rows of one hash, payloads are the same JSON value
  exactly when their `__proto__` members agree;
* `verify_persisted_entry`: a stored entry is accepted, with its own receipt.
-/

namespace MetaframerKernel.DecisionLogRow

open Js Json

/-! ## Tamper evidence -/

/-- The keys of a payload are distinct. -/
theorem nodup_payloadKeys : (payloadKeys.map lit).Nodup := by decide

/-- The keys of an actor are distinct. -/
theorem nodup_actorKeys : (["tenantId", "actorId"].map lit).Nodup := by decide

/-- The payload that is hashed again is well formed. -/
theorem wellFormed_canonicalPayload {payload : Json} (h : payload.wellFormed = true) :
    (canonicalPayload payload).wellFormed = true := by
  have hactor := wellFormed_present h "requestActor"
  have hfield (key : String) := wellFormed_present h key
  refine (wellFormed_obj _).mpr ⟨nodup_payloadKeys, ?_⟩
  simp only [List.forall_mem_cons, List.not_mem_nil, false_implies, implies_true, and_true]
  refine ⟨hfield _, ?_, hfield _, wellFormed_reorderDescending (hfield _),
    wellFormed_reorderDescending (hfield _), hfield _, hfield _, hfield _, hfield _, hfield _,
    hfield _, hfield _⟩
  refine (wellFormed_obj _).mpr ⟨nodup_actorKeys, ?_⟩
  simp only [List.forall_mem_cons, List.not_mem_nil, false_implies, implies_true, and_true]
  exact ⟨wellFormed_present hactor _, wellFormed_present hactor _⟩

/-- Values with the same listed keys are the same when every listed field is. -/
theorem canonical_eq_of_fields {v w : Json} {keys : List String} (hv : HasExactly v keys)
    (hw : HasExactly w keys) (hkeys : (keys.map lit).Nodup) (hvw : v.wellFormed = true)
    (hww : w.wellFormed = true)
    (h : ∀ key ∈ keys, canonical (present v key) = canonical (present w key)) :
    canonical v = canonical w := by
  have hvm : (v.members.map Prod.fst).Nodup := by
    rw [hv.1] at hvw
    exact ((wellFormed_obj _).mp hvw).1
  have hwm : (w.members.map Prod.fst).Nodup := by
    rw [hw.1] at hww
    exact ((wellFormed_obj _).mp hww).1
  rw [hv.1, hw.1, canonical_obj_eq_iff hvm hwm]
  refine hv.forall_lookup hw hkeys (R := fun a b => a.map canonical = b.map canonical) rfl
    fun key hkey => ?_
  rw [hv.field_eq hkey, hw.field_eq hkey, Option.map_some, Option.map_some, h key hkey]

/-- Such values are the same without their `__proto__` members when every listed field is. -/
theorem canonical_withoutProto_eq_of_fields {v w : Json} {keys : List String}
    (hv : HasExactly v keys) (hw : HasExactly w keys) (hkeys : (keys.map lit).Nodup)
    (hvw : v.wellFormed = true) (hww : w.wellFormed = true)
    (h : ∀ key ∈ keys,
      canonical (withoutProto (present v key)) = canonical (withoutProto (present w key))) :
    canonical (withoutProto v) = canonical (withoutProto w) := by
  have hvk := wellFormed_withoutProto hvw
  have hwk := wellFormed_withoutProto hww
  rw [hv.1, withoutProto_obj] at hvk ⊢
  rw [hw.1, withoutProto_obj] at hwk ⊢
  rw [canonical_obj_eq_iff ((wellFormed_obj _).mp hvk).1 ((wellFormed_obj _).mp hwk).1]
  intro k
  rw [lookup_map, lookup_map, lookup_dropProto, lookup_dropProto]
  by_cases hk : k = protoKey
  · rw [if_pos hk, if_pos hk]
  · rw [if_neg hk, if_neg hk]
    -- both objects have the same keys, so it is enough to compare them key by key
    refine hv.forall_lookup hw hkeys
      (R := fun a b => (a.map withoutProto).map canonical = (b.map withoutProto).map canonical)
      rfl (fun key hkey => ?_) k
    rw [hv.field_eq hkey, hw.field_eq hkey]
    exact congrArg some (h key hkey)

/-- Well-shaped payloads that are rebuilt to the same value are the same without their `__proto__`
members. -/
theorem canonical_withoutProto_of_rebuilt {p q : Json} (hp : p.wellFormed = true)
    (hq : q.wellFormed = true) (hsp : WellShaped p) (hsq : WellShaped q)
    (h : canonical (canonicalPayload p) = canonical (canonicalPayload q)) :
    canonical (withoutProto p) = canonical (withoutProto q) := by
  have hread {k : JsString} {x y : Json} :=
    canonical_eq_of_lookup (k := k) (x := x) (y := y)
      ((wellFormed_obj _).mp (wellFormed_canonicalPayload hp)).1
      ((wellFormed_obj _).mp (wellFormed_canonicalPayload hq)).1 h
  -- the fields that are copied agree, and so do the reordered ones up to `__proto__`
  have hcopied (key : String) (hx : canonical (present p key) = canonical (present q key)) :
      canonical (withoutProto (present p key)) = canonical (withoutProto (present q key)) :=
    canonical_withoutProto_congr (wellFormed_present hp key) (wellFormed_present hq key) hx
  have hreordered (key : String)
      (hx : canonical (descendingKeyOrder (present p key)) =
        canonical (descendingKeyOrder (present q key))) :
      canonical (withoutProto (present p key)) = canonical (withoutProto (present q key)) := by
    rwa [descendingKeyOrder, canonical_reorderDescending (wellFormed_present hp key),
      canonical_reorderDescending (wellFormed_present hq key)] at hx
  have hactor : canonical (present p "requestActor") = canonical (present q "requestActor") := by
    have hrebuilt := hread (k := lit "requestActor") rfl rfl
    have hfield {k : JsString} {x y : Json} := canonical_eq_of_lookup (k := k) (x := x) (y := y)
      (by exact nodup_actorKeys) (by exact nodup_actorKeys) hrebuilt
    refine canonical_eq_of_fields hsp.actorKeys hsq.actorKeys nodup_actorKeys
      (wellFormed_present hp _) (wellFormed_present hq _) ?_
    simp only [List.forall_mem_cons, List.not_mem_nil, false_implies, implies_true, and_true]
    exact ⟨hfield (k := lit "tenantId") rfl rfl, hfield (k := lit "actorId") rfl rfl⟩
  refine canonical_withoutProto_eq_of_fields hsp.keys hsq.keys nodup_payloadKeys hp hq ?_
  simp only [payloadKeys, List.forall_mem_cons, List.not_mem_nil, false_implies, implies_true,
    and_true]
  exact ⟨hcopied _ (hread (k := lit "id") rfl rfl), hcopied _ hactor,
    hcopied _ (hread (k := lit "requestAction") rfl rfl),
    hreordered _ (hread (k := lit "requestResource") rfl rfl),
    hreordered _ (hread (k := lit "requestContext") rfl rfl),
    hcopied _ (hread (k := lit "decision") rfl rfl),
    hcopied _ (hread (k := lit "reason") rfl rfl),
    hcopied _ (hread (k := lit "matchedPolicyId") rfl rfl),
    hcopied _ (hread (k := lit "layerResolved") rfl rfl),
    hcopied _ (hread (k := lit "traceId") rfl rfl), hcopied _ (hread (k := lit "ts") rfl rfl),
    hcopied _ (hread (k := lit "prevHash") rfl rfl)⟩

/-- Among accepted rows of one hash, the payloads are the same JSON value exactly when they have the
same `__proto__` members at every depth. -/
theorem sameValue_iff_agreeOnProto {sha256 : ByteArray → JsString}
    (hinj : Function.Injective sha256) {row₁ row₂ : Json} {receipt₁ receipt₂ : AppendReceipt}
    (h₁ : verifyPersistedDecisionLogRow sha256 row₁ = .ok receipt₁)
    (h₂ : verifyPersistedDecisionLogRow sha256 row₂ = .ok receipt₂)
    (hw₁ : (present row₁ "payload").wellFormed = true)
    (hw₂ : (present row₂ "payload").wellFormed = true)
    (hhash : field row₁ "entry_hash" = field row₂ "entry_hash") :
    sameValue (present row₁ "payload") (present row₂ "payload") = true ↔
      agreeOnProto (present row₁ "payload") (present row₂ "payload") = true := by
  obtain ⟨-, hs₁, -, hhash₁, -⟩ := verify_eq_ok_iff.mp h₁
  obtain ⟨-, hs₂, -, hhash₂, -⟩ := verify_eq_ok_iff.mp h₂
  rw [hhash₁, hhash₂, Option.some.injEq, Json.str.injEq,
    DecisionLogEntry.sha256Of_inj sha256 hinj] at hhash
  have hrebuilt := stringify_inj (wellFormed_canonicalPayload hw₁)
    (wellFormed_canonicalPayload hw₂) hhash
  rw [sameValue_iff_canonical hw₁ hw₂]
  exact canonical_eq_iff_agreeOnProto hw₁ hw₂
    (canonical_withoutProto_of_rebuilt hw₁ hw₂ hs₁ hs₂ hrebuilt)

/-- A payload whose request names a resource with one `__proto__` member. -/
def protoPayload (resource : List (JsString × Json)) : Json :=
  .obj
    [(lit "id", .str (lit "01ARZ3NDEKTSV4RRFFQ69G5FAV")),
      (lit "requestActor", .obj
        [(lit "tenantId", .str (lit "11111111-1111-4111-8111-111111111111")),
          (lit "actorId", .str (lit "clerk"))]),
      (lit "requestAction", .str (lit "customer.create")),
      (lit "requestResource", .obj resource),
      (lit "requestContext", .obj []),
      (lit "decision", .str (lit "deny")),
      (lit "reason", .str (lit "no grant")),
      (lit "matchedPolicyId", .null),
      (lit "layerResolved", .null),
      (lit "traceId", .str (lit "22222222-2222-4222-8222-222222222222")),
      (lit "ts", .str (lit "2026-01-01T00:00:00.000Z")),
      (lit "prevHash", .null)]

/-- The SHA-256 of the text that is hashed for such a payload. -/
def protoHash : JsString := lit "908f689d88ba14573dc4df95285e426d916ca162dbc2c27cffa39f4648b3d784"

/-- The row of such a payload. -/
def protoRow (resource : List (JsString × Json)) : Json :=
  .obj
    [(lit "id", .str (lit "01ARZ3NDEKTSV4RRFFQ69G5FAV")),
      (lit "tenant_id", .str (lit "11111111-1111-4111-8111-111111111111")),
      (lit "entry_hash", .str protoHash),
      (lit "prev_hash", .null),
      (lit "payload", protoPayload resource)]

/-- An injective digest that is SHA-256 on the text hashed for these rows. -/
def protoDigest (bytes : ByteArray) : JsString :=
  if bytes = utf8Bytes (ofText (canonicalPayload (protoPayload [])).stringify) then protoHash
  else 0x67 :: bytes.data.toList.map fun b => Fin.ofNat 65536 b.toNat

/-- The sample's digest has no collisions. -/
theorem injective_protoDigest : Function.Injective protoDigest :=
  DecisionLogEntry.injective_markedDigest (by decide)

/-- Every row whose resource is emptied on rebuilding is accepted. -/
theorem verify_protoRow {resource : List (JsString × Json)}
    (h : descendingKeyOrder (.obj resource) = .obj []) :
    verifyPersistedDecisionLogRow protoDigest (protoRow resource) =
      .ok (receiptOf (protoRow resource)) := by
  have hrebuilt : canonicalPayload (protoPayload resource) =
    canonicalPayload (protoPayload []) := by
    have hread (resource : List (JsString × Json)) :
        present (protoPayload resource) "requestResource" = .obj resource := rfl
    have hempty : descendingKeyOrder (.obj []) = .obj [] := rfl
    rw [canonicalPayload, canonicalPayload, hread, hread, h, hempty]
    rfl
  -- the fields are constants, and the text that is hashed again is that of an empty resource
  refine verify_eq_ok_iff.mpr ⟨⟨⟨rfl, rfl, ?_⟩, rfl, rfl, rfl, rfl⟩, ?_, ⟨rfl, rfl, rfl⟩, ?_, rfl⟩
  · simp only [rowKeys, List.forall_mem_cons, List.not_mem_nil, false_implies, implies_true,
      and_true]
    exact ⟨rfl, rfl, rfl, rfl, rfl⟩
  · refine ⟨⟨rfl, rfl, ?_⟩, ⟨rfl, rfl, ?_⟩, rfl, rfl, rfl, rfl, rfl, rfl, rfl, rfl, rfl, rfl, rfl⟩
    · simp only [payloadKeys, List.forall_mem_cons, List.not_mem_nil, false_implies, implies_true,
        and_true]
      exact ⟨rfl, rfl, rfl, rfl, rfl, rfl, rfl, rfl, rfl, rfl, rfl, rfl⟩
    · simp only [List.forall_mem_cons, List.not_mem_nil, false_implies, implies_true, and_true]
      exact ⟨rfl, rfl⟩
  · have hhash : DecisionLogEntry.sha256Of protoDigest (canonicalPayload (protoPayload resource)) =
        protoHash := by
      rw [DecisionLogEntry.sha256Of, hrebuilt, protoDigest, if_pos rfl]
    exact congrArg (fun s => some (Json.str s)) hhash.symm

/-- A resource with one member, of key `__proto__`. -/
def protoResource (text : String) : List (JsString × Json) := [(protoKey, .str (lit text))]

/-- A resource of one `__proto__` member is written as an empty object. -/
theorem descendingKeyOrder_protoResource (text : String) :
    descendingKeyOrder (.obj (protoResource text)) = .obj [] := by
  have hnodup : ((protoResource text).map Prod.fst).Nodup := List.nodup_singleton protoKey
  rw [descendingKeyOrder, reorderDescending_obj hnodup, assignDescending_eq hnodup]
  rfl

/-- Two accepted rows of one hash may differ in a nested `__proto__` member. -/
theorem sameValue_proto_fails :
    ¬ ∀ (sha256 : ByteArray → JsString), Function.Injective sha256 →
      ∀ (row₁ row₂ : Json) (receipt₁ receipt₂ : AppendReceipt),
        verifyPersistedDecisionLogRow sha256 row₁ = .ok receipt₁ →
        verifyPersistedDecisionLogRow sha256 row₂ = .ok receipt₂ →
        (present row₁ "payload").wellFormed = true →
        (present row₂ "payload").wellFormed = true →
        field row₁ "entry_hash" = field row₂ "entry_hash" →
        sameValue (present row₁ "payload") (present row₂ "payload") = true := by
  intro h
  have hsame := h protoDigest injective_protoDigest (protoRow (protoResource "a"))
    (protoRow (protoResource "b")) _ _
    (verify_protoRow (descendingKeyOrder_protoResource "a"))
    (verify_protoRow (descendingKeyOrder_protoResource "b")) (by decide) (by decide) rfl
  exact absurd hsame (by decide)

theorem sameValue_iff_agreeOnProto_proto :
    sameValue (protoPayload (protoResource "a")) (protoPayload (protoResource "b")) = true ↔
      agreeOnProto (protoPayload (protoResource "a")) (protoPayload (protoResource "b")) = true :=
  sameValue_iff_agreeOnProto injective_protoDigest
    (verify_protoRow (descendingKeyOrder_protoResource "a"))
    (verify_protoRow (descendingKeyOrder_protoResource "b")) (by decide) (by decide) rfl

/-! ## Reading back what was written -/

/-- Objects whose members print alike print alike. -/
theorem stringify_obj_congr {m m' : List (JsString × Json)}
    (h : m.map (fun p => (p.1, p.2.stringify)) = m'.map fun p => (p.1, p.2.stringify)) :
    stringify (.obj m) = stringify (.obj m') := by
  have htexts (m : List (JsString × Json)) : memberTexts m =
      (m.map fun p => (p.1, p.2.stringify)).map fun q => (q.1, quote q.1 ++ ':' :: q.2) := by
    rw [memberTexts_eq, List.map_map]
    rfl
  rw [stringify, stringify, htexts, htexts, h]

/-- A value of the same canonical form as an object has the same keys. -/
theorem hasExactly_of_canonical {v : Json} {m : List (JsString × Json)} {keys : List String}
    (hv : v.wellFormed = true) (hm : (m.map Prod.fst).Nodup) (hkeys : m.map Prod.fst = keys.map lit)
    (h : canonical v = canonical (.obj m)) : HasExactly v keys := by
  cases v with
  | obj n =>
    have hn := ((wellFormed_obj n).mp hv).1
    have hread := (canonical_obj_eq_iff hn hm).mp h
    have hisSome (k : JsString) : (n.lookup k).isSome = (m.lookup k).isSome := by
      rw [← Option.isSome_map, hread, Option.isSome_map]
    have hperm : (n.map Prod.fst).Perm (m.map Prod.fst) := by
      refine (List.perm_ext_iff_of_nodup hn hm).mpr fun k => ?_
      rw [← lookup_isSome_iff, ← lookup_isSome_iff, hisSome]
    refine ⟨rfl, ?_, fun key hkey => ?_⟩
    · have hlength := hperm.length_eq
      rwa [hkeys, List.length_map, List.length_map] at hlength
    · rw [field, members, hisSome, lookup_isSome_iff, hkeys]
      exact List.mem_map_of_mem hkey
  | _ => simp [canonical, rebuild] at h

/-- What is read under a key of such an object. -/
theorem canonical_present {v : Json} {m : List (JsString × Json)} (hv : v.wellFormed = true)
    (hm : (m.map Prod.fst).Nodup) (h : canonical v = canonical (.obj m)) {key : String} {x : Json}
    (hx : m.lookup (lit key) = some x) : canonical (present v key) = canonical x := by
  cases v with
  | obj n =>
    have hread := (canonical_obj_eq_iff ((wellFormed_obj n).mp hv).1 hm).mp h (lit key)
    rw [hx, Option.map_some] at hread
    obtain ⟨y, hy, hyx⟩ := Option.map_eq_some_iff.mp hread
    rw [present, field, members, hy, Option.getD_some, hyx]
  | _ => simp [canonical, rebuild] at h

/-- The payload carries the fields of the entry. -/
structure Carries (payload : Json) (e : DecisionLogEntry) : Prop where
  keys : HasExactly payload payloadKeys
  actorKeys : HasExactly (present payload "requestActor") ["tenantId", "actorId"]
  id : present payload "id" = .str e.id
  tenantId : present (present payload "requestActor") "tenantId" = .str e.request.tenantId.value
  actorId : present (present payload "requestActor") "actorId" = .str e.request.actorId.value
  requestAction : present payload "requestAction" = .str e.request.action.name
  requestResource : canonical (present payload "requestResource") =
    canonical (DecisionLogEntry.descendingKeyOrder e.request.resource.toJson)
  requestContext : canonical (present payload "requestContext") =
    canonical (DecisionLogEntry.descendingKeyOrder e.request.context.toJson)
  decision : present payload "decision" = .str e.decision.effect.name
  reason : present payload "reason" = .str e.decision.reason
  matchedPolicyId : present payload "matchedPolicyId" =
    DecisionLogEntry.nullable e.decision.matchedPolicyId
  layerResolved : present payload "layerResolved" =
    DecisionLogEntry.nullable (e.layerResolved.map Layer.name)
  traceId : present payload "traceId" = .str e.decision.traceId.value
  ts : present payload "ts" = .str e.ts
  prevHash : present payload "prevHash" = DecisionLogEntry.nullable e.prevHash

/-- Whatever is the same value as the payload of an entry carries its fields. -/
theorem carries_of_canonical {payload : Json} {e : DecisionLogEntry}
    (hw : payload.wellFormed = true) (h : canonical payload = canonical e.plainPayloadOf) :
    Carries payload e := by
  -- under each key the payload has what the entry has, up to the order of keys
  have hread {key : String} {x : Json} (hx : e.plainPayloadOf.members.lookup (lit key) = some x) :
      canonical (present payload key) = canonical x :=
    canonical_present hw (by exact nodup_payloadKeys) h hx
  have hactor : canonical (present payload "requestActor") = canonical (.obj
      [(lit "tenantId", .str e.request.tenantId.value),
        (lit "actorId", .str e.request.actorId.value)]) := hread rfl
  have hactorRead {key : String} {x : Json} (hx : List.lookup (lit key)
      [(lit "tenantId", Json.str e.request.tenantId.value),
        (lit "actorId", .str e.request.actorId.value)] = some x) :
      canonical (present (present payload "requestActor") key) = canonical x :=
    canonical_present (wellFormed_present hw _) (by exact nodup_actorKeys) hactor hx
  exact {
    keys := hasExactly_of_canonical hw (by exact nodup_payloadKeys) rfl h
    actorKeys := hasExactly_of_canonical (wellFormed_present hw _) (by exact nodup_actorKeys) rfl
      hactor
    id := eq_str_of_canonical (hread rfl)
    tenantId := eq_str_of_canonical (hactorRead rfl)
    actorId := eq_str_of_canonical (hactorRead rfl)
    requestAction := eq_str_of_canonical (hread rfl)
    requestResource := hread rfl
    requestContext := hread rfl
    decision := eq_str_of_canonical (hread rfl)
    reason := eq_str_of_canonical (hread rfl)
    matchedPolicyId := eq_nullable_of_canonical (hread rfl)
    layerResolved := eq_nullable_of_canonical (hread rfl)
    traceId := eq_str_of_canonical (hread rfl)
    ts := eq_str_of_canonical (hread rfl)
    prevHash := eq_nullable_of_canonical (hread rfl) }

/-- A field that may be `null` passes the check of its text. -/
theorem isNullOr_nullable {test : Option Json → Bool} {s : Option JsString}
    (h : ∀ t ∈ s, test (some (.str t)) = true) :
    isNullOr test (some (DecisionLogEntry.nullable s)) = true := by
  cases s with
  | none => rfl
  | some t => exact h t rfl

/-- Such a payload passes every check of its fields. -/
theorem Carries.wellShaped {payload : Json} {e : DecisionLogEntry} (h : Carries payload e) :
    WellShaped payload := by
  -- each field is that of an entry, which was checked when it was made
  have hfield {key : String} (hkey : key ∈ payloadKeys) := h.keys.field_eq hkey
  have hactor {key : String} (hkey : key ∈ ["tenantId", "actorId"]) := h.actorKeys.field_eq hkey
  exact {
    keys := h.keys
    actorKeys := h.actorKeys
    id := by
      rw [hfield (by decide), h.id]
      exact e.idOk
    tenantId := by
      rw [hactor (by decide), h.tenantId]
      exact e.request.tenantId.form
    actorId := by rw [hactor (by decide), h.actorId]; rfl
    requestAction := by rw [hfield (by decide), h.requestAction]; rfl
    decision := by rw [hfield (by decide), h.decision]; rfl
    reason := by rw [hfield (by decide), h.reason]; rfl
    matchedPolicyId := by
      rw [hfield (by decide), h.matchedPolicyId]
      exact isNullOr_nullable fun _ _ => rfl
    layerResolved := by
      rw [hfield (by decide), h.layerResolved]
      exact isNullOr_nullable fun _ _ => rfl
    traceId := by
      rw [hfield (by decide), h.traceId]
      exact e.decision.traceId.form
    ts := by
      rw [hfield (by decide), h.ts]
      exact isTimestampForm_of_isInstant e.tsOk
    prevHash := by
      rw [hfield (by decide), h.prevHash]
      exact isNullOr_nullable e.prevHashOk }

/-- The verifier hashes the text the entry was hashed by. -/
theorem Carries.stringify_eq {payload : Json} {e : DecisionLogEntry} (h : Carries payload e)
    (hw : payload.wellFormed = true) :
    stringify (canonicalPayload payload) = stringify e.plainPayloadOf := by
  have hreordered {o : CanonicalObject} {key : String} (hkey : canonical (present payload key) =
      canonical (DecisionLogEntry.descendingKeyOrder o.toJson)) :
      stringify (descendingKeyOrder (present payload key)) =
        stringify (DecisionLogEntry.descendingKeyOrder o.toJson) := by
    have ho : o.toJson.wellFormed = true := wellFormed_of_isHardened o.hardened
    rw [DecisionLogEntry.descendingKeyOrder, canonical_reorderDescending ho] at hkey
    refine (stringify_reorderDescending_eq_iff (wellFormed_present hw key) ho).mpr ?_
    rw [canonical_withoutProto_congr (wellFormed_present hw key) (wellFormed_withoutProto ho) hkey,
      withoutProto_withoutProto]
  refine stringify_obj_congr ?_
  simp only [List.map_cons, List.map_nil, h.id, h.tenantId, h.actorId, h.requestAction,
    hreordered h.requestResource, hreordered h.requestContext, h.decision, h.reason,
    h.matchedPolicyId, h.layerResolved, h.traceId, h.ts, h.prevHash]

/-- A field that may be `null` is equal to itself. -/
theorem strictlyEqual_nullable (s : Option JsString) :
    strictlyEqual (some (DecisionLogEntry.nullable s)) (some (DecisionLogEntry.nullable s)) =
      true := by
  cases s with
  | none => rfl
  | some t => exact beq_self_eq_true t

/-- A field that may be `null` is read back as it was. -/
theorem asString_nullable (s : Option JsString) :
    asString (some (DecisionLogEntry.nullable s)) = s := by
  cases s <;> rfl

/-- The row the adapter keeps of an entry, around the payload the database gives back. -/
def rowFor (sha256 : ByteArray → JsString) (e : DecisionLogEntry) (payload : Json) : Json :=
  .obj
    [(lit "id", .str e.id),
      (lit "tenant_id", .str e.request.tenantId.value),
      (lit "entry_hash", .str (e.entryHash sha256)),
      (lit "prev_hash", DecisionLogEntry.nullable e.prevHash),
      (lit "payload", payload)]

/-- The row of an entry is accepted around any payload that is the same value as the one hashed. -/
theorem verify_rowFor {sha256 : ByteArray → JsString} {e : DecisionLogEntry}
    (hhash : isHex64 (e.entryHash sha256) = true) {payload : Json}
    (hw : payload.wellFormed = true) (hsame : canonical payload = canonical e.plainPayloadOf) :
    verifyPersistedDecisionLogRow sha256 (rowFor sha256 e payload) =
      .ok ⟨e.id, e.request.tenantId.value, e.entryHash sha256, e.prevHash⟩ := by
  have hcarries := carries_of_canonical hw hsame
  have hpayload : present (rowFor sha256 e payload) "payload" = payload := rfl
  have hfield {key : String} (hkey : key ∈ payloadKeys) := hcarries.keys.field_eq hkey
  -- the fields of the row are the entry's own, those of the payload are what it carries
  refine verify_eq_ok_iff.mpr ⟨?_, hpayload ▸ hcarries.wellShaped, ?_, ?_, ?_⟩
  · refine ⟨⟨rfl, rfl, ?_⟩, e.idOk, e.request.tenantId.form, hhash,
      isNullOr_nullable e.prevHashOk⟩
    simp [rowKeys, rowFor, field, members]
  · rw [hpayload]
    refine ⟨?_, ?_, ?_⟩
    · rw [hfield (by decide), hcarries.id]
      exact beq_self_eq_true e.id
    · rw [hcarries.actorKeys.field_eq (by decide), hcarries.tenantId]
      exact beq_self_eq_true e.request.tenantId.value
    · rw [hfield (by decide), hcarries.prevHash]
      exact strictlyEqual_nullable e.prevHash
  · rw [hpayload, DecisionLogEntry.sha256Of, hcarries.stringify_eq hw]
    rfl
  · exact congrArg (AppendReceipt.mk _ _ _) (asString_nullable e.prevHash).symm

/-- What `JSON.parse` reads back of the payload of an entry is the same value. -/
theorem canonical_readBack_plainPayloadOf {e : DecisionLogEntry} {stored : Json}
    (hstored : stored.wellFormed = true) (hsame : sameValue stored e.plainPayloadOf = true) :
    canonical stored.readBack = canonical e.plainPayloadOf := by
  rw [canonical_readBack hstored]
  exact (sameValue_iff_canonical hstored (wellFormed_plainPayloadOf e)).mp hsame

/-- The row of a genuine entry is accepted with any payload that is the same JSON value as the one
hashed, once `JSON.parse` has read it back. -/
theorem verify_persisted_entry {sha256 : ByteArray → JsString}
    (hhex : ∀ bytes, isHex64 (sha256 bytes) = true) (e : DecisionLogEntry) {stored : Json}
    (hstored : stored.wellFormed = true) (hsame : sameValue stored e.plainPayloadOf = true) :
    ∃ payload, jsonParse stored.stringify = some payload ∧
      verifyPersistedDecisionLogRow sha256 (rowFor sha256 e payload) =
        .ok ⟨e.id, e.request.tenantId.value, e.entryHash sha256, e.prevHash⟩ :=
  ⟨stored.readBack, jsonParse_stringify hstored,
    verify_rowFor (hhex _) (wellFormed_readBack hstored)
      (canonical_readBack_plainPayloadOf hstored hsame)⟩

/-- The SHA-256 of the sample entry. -/
def sampleHash : JsString :=
  lit "139e848efd7b93137cf0139d62ae5b3a4503f97d3afdf565d4504cad729f901a"

/-- That is the hash of the sample entry. -/
theorem entryHash_sample : DecisionLogEntry.sample.entryHash sha256Hex = sampleHash := by
  decide +kernel

/-- An entry after the sample one, with objects in its resource and in its context. -/
def nestedEntry : DecisionLogEntry :=
  { DecisionLogEntry.sample with
    id := lit "01ARZ3NDEKTSV4RRFFQ69G5FAW"
    request := { PolicyRequest.sample with
      resource := ⟨[(lit "id", .str (lit "c-1")), (lit "owner", .obj
        [(lit "name", .str (lit "Ada")), (lit "region", .str (lit "eu"))])], by decide⟩
      context := ⟨[(lit "app", .str (lit "web")), (lit "device", .obj
        [(lit "os", .str (lit "linux")), (lit "trusted", .bool true)])], by decide⟩ }
    prevHash := some sampleHash
    idOk := by decide
    prevHashOk := by decide }

/-- The SHA-256 of the entry after it. -/
def nestedHash : JsString :=
  lit "94c8255a4cf15e56334f3c4fd8ac4d73399b576443033a5246e22c9d97468160"

/-- That is the hash of the nested entry. -/
theorem entryHash_nestedEntry : nestedEntry.entryHash sha256Hex = nestedHash := by decide +kernel

/-- The payload of that entry as `jsonb` gives it back, with the members of every object in another
order. -/
def permutedPayload : Json :=
  .obj
    [(lit "id", .str nestedEntry.id),
      (lit "ts", .str nestedEntry.ts),
      (lit "reason", .str (lit "no grant")),
      (lit "traceId", .str nestedEntry.decision.traceId.value),
      (lit "decision", .str (lit "deny")),
      (lit "prevHash", .str sampleHash),
      (lit "requestActor", .obj
        [(lit "actorId", .str (lit "clerk")),
          (lit "tenantId", .str nestedEntry.request.tenantId.value)]),
      (lit "layerResolved", .null),
      (lit "requestAction", .str (lit "customer.create")),
      (lit "requestContext", .obj
        [(lit "app", .str (lit "web")),
          (lit "device", .obj [(lit "os", .str (lit "linux")), (lit "trusted", .bool true)])]),
      (lit "matchedPolicyId", .null),
      -- PostgreSQL orders the keys of JSONB by length, and then by bytes
      (lit "requestResource", .obj
        [(lit "id", .str (lit "c-1")),
          (lit "owner", .obj [(lit "name", .str (lit "Ada")), (lit "region", .str (lit "eu"))])])]

theorem wellFormed_permutedPayload : permutedPayload.wellFormed = true := by decide +kernel

/-- It is the same JSON value, though no object is written as it was. -/
theorem sameValue_permutedPayload :
    sameValue permutedPayload nestedEntry.plainPayloadOf = true := by decide +kernel

theorem verify_persisted_entry_nested :
    ∃ payload, jsonParse permutedPayload.stringify = some payload ∧
      verifyPersistedDecisionLogRow sha256Hex (rowFor sha256Hex nestedEntry payload) =
        .ok ⟨nestedEntry.id, nestedEntry.request.tenantId.value, nestedEntry.entryHash sha256Hex,
          some sampleHash⟩ :=
  verify_persisted_entry isHex64_sha256Hex nestedEntry wellFormed_permutedPayload
    sameValue_permutedPayload

end MetaframerKernel.DecisionLogRow
