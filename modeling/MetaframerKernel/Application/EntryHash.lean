import MetaframerKernel.Application.CanonicalText
import MetaframerKernel.Application.DecisionLogEntry

/-!
# What an entry hash determines

Every field an entry hash covers can be read back from the text that is hashed, so two entries of
one hash agree on all of them.

## Main results

* `wellFormed_plainPayloadOf`: the payload of an entry is a JSON value `JSON.stringify` spells out;
* `DecisionLogEntry.fields_eq_of_entryHash_eq`: one hash, one set of covered fields.
-/

namespace MetaframerKernel

open Js Json

/-! ## Reading a value through its canonical form -/

/-- A text that may be `null` has a canonical form of its own. -/
theorem eq_nullable_of_canonical {v : Json} {s : Option JsString}
    (h : canonical v = canonical (DecisionLogEntry.nullable s)) :
    v = DecisionLogEntry.nullable s := by
  cases s with
  | none => exact eq_null_of_canonical h
  | some s => exact eq_str_of_canonical h

/-! ## The payload -/

/-- The key rule leaves hardened data without `__proto__` members as it is. -/
theorem withoutProto_of_isHardened {v : Json} {depth : ℕ} (h : isHardened v depth = true) :
    withoutProto v = v := by
  induction v using Json.ind generalizing depth with
  | arr l ih =>
    rw [isHardened_arr] at h
    have hmap : l.map withoutProto = l.map id :=
      List.map_congr_left fun v hv => ih v hv (h.2 v hv)
    rw [withoutProto_arr, hmap, List.map_id]
  | obj m ih =>
    obtain ⟨-, -, hrefused, hmembers⟩ := (isHardened_obj m depth).mp h
    have hdrop : dropProto m = m := by
      refine List.filter_eq_self.mpr fun p hp => decide_eq_true fun hproto => ?_
      exact hrefused p hp (hproto ▸ List.mem_cons_self)
    have hmap : m.map (Prod.map id withoutProto) = m.map id :=
      List.map_congr_left fun p hp => Prod.ext rfl (ih p hp (hmembers p hp))
    rw [withoutProto_obj, hdrop, hmap, List.map_id]
  | _ => rfl

/-- The reordered data of a request represents the data itself. -/
theorem canonical_descendingKeyOrder (o : CanonicalObject) :
    canonical (DecisionLogEntry.descendingKeyOrder o.toJson) = o.toJson := by
  rw [DecisionLogEntry.descendingKeyOrder, CanonicalObject.toJson,
    canonical_reorderDescending (wellFormed_of_isHardened o.hardened),
    withoutProto_of_isHardened o.hardened, canonical_of_isHardened o.hardened]

/-- A text that may be `null` is well formed. -/
theorem wellFormed_nullable (s : Option JsString) :
    (DecisionLogEntry.nullable s).wellFormed = true := by
  cases s <;> rfl

/-- The keys of a payload, and those of its actor, are distinct. -/
theorem nodup_plainPayloadKeys : (["id", "requestActor", "requestAction", "requestResource",
    "requestContext", "decision", "reason", "matchedPolicyId", "layerResolved", "traceId", "ts",
    "prevHash"].map lit).Nodup := by decide

/-- The keys of the actor are distinct. -/
theorem nodup_requestActorKeys : (["tenantId", "actorId"].map lit).Nodup := by decide

/-- The payload of an entry is well formed. -/
theorem wellFormed_plainPayloadOf (e : DecisionLogEntry) :
    e.plainPayloadOf.wellFormed = true := by
  have hobject (o : CanonicalObject) :
      (DecisionLogEntry.descendingKeyOrder o.toJson).wellFormed = true :=
    wellFormed_reorderDescending (wellFormed_of_isHardened o.hardened)
  refine (wellFormed_obj _).mpr ⟨nodup_plainPayloadKeys, ?_⟩
  simp only [List.forall_mem_cons, List.not_mem_nil, false_implies, implies_true, and_true]
  exact ⟨rfl, (wellFormed_obj _).mpr ⟨nodup_requestActorKeys, by simp [wellFormed]⟩, rfl, hobject _,
    hobject _, rfl, rfl, wellFormed_nullable _, wellFormed_nullable _, rfl, rfl,
    wellFormed_nullable _⟩

/-! ## What the hash determines -/

/-- Texts that may be `null` are told apart by their values. -/
theorem DecisionLogEntry.nullable_inj {s t : Option JsString} (h : nullable s = nullable t) :
    s = t := by
  cases s <;> cases t <;> simp_all [nullable]

/-- Effects are told apart by their names. -/
theorem Effect.name_inj {e f : Effect} (h : e.name = f.name) : e = f := by
  have hname := Effect.ofName?_name e
  rw [h, Effect.ofName?_name] at hname
  exact (Option.some.inj hname).symm

/-- Layers are told apart by their names. -/
theorem Layer.name_inj {l k : Layer} (h : l.name = k.name) : l = k := by
  have hname := Layer.ofName?_name l
  rw [h, Layer.ofName?_name] at hname
  exact (Option.some.inj hname).symm

namespace DecisionLogEntry

variable {sha256 : ByteArray → JsString}

/-- Entries of one hash are payloads of one value. -/
theorem canonical_plainPayloadOf_eq (hinj : Function.Injective sha256) {e e' : DecisionLogEntry}
    (h : e.entryHash sha256 = e'.entryHash sha256) :
    canonical e.plainPayloadOf = canonical e'.plainPayloadOf :=
  stringify_inj (wellFormed_plainPayloadOf e) (wellFormed_plainPayloadOf e')
    ((sha256Of_inj sha256 hinj).mp h)

/-- Entries of one hash agree on every field the hash covers. -/
theorem fields_eq_of_entryHash_eq (hinj : Function.Injective sha256) {e e' : DecisionLogEntry}
    (h : e.entryHash sha256 = e'.entryHash sha256) :
    e.id = e'.id ∧ e.request.tenantId = e'.request.tenantId ∧
      e.request.actorId = e'.request.actorId ∧ e.request.action.name = e'.request.action.name ∧
      e.request.resource = e'.request.resource ∧ e.request.context = e'.request.context ∧
      e.decision.effect = e'.decision.effect ∧ e.decision.reason = e'.decision.reason ∧
      e.decision.matchedPolicyId = e'.decision.matchedPolicyId ∧
      e.layerResolved = e'.layerResolved ∧ e.decision.traceId = e'.decision.traceId ∧
      e.ts = e'.ts ∧ e.prevHash = e'.prevHash := by
  -- a field is read from the payload by its key, and back from the JSON it was written as
  have hread {k : String} {x y : Json} (hx : e.plainPayloadOf.members.lookup (lit k) = some x)
      (hy : e'.plainPayloadOf.members.lookup (lit k) = some y) : canonical x = canonical y :=
    canonical_eq_of_lookup (by exact nodup_plainPayloadKeys) (by exact nodup_plainPayloadKeys)
      (canonical_plainPayloadOf_eq hinj h) hx hy
  have hstring {s t : JsString} (hst : canonical (.str s) = canonical (.str t)) : s = t :=
    Json.str.inj (eq_str_of_canonical hst)
  have hnullable {s t : Option JsString}
      (hst : canonical (nullable s) = canonical (nullable t)) : s = t :=
    nullable_inj (eq_nullable_of_canonical hst)
  have hobject {o o' : CanonicalObject} (ho : canonical (descendingKeyOrder o.toJson) =
      canonical (descendingKeyOrder o'.toJson)) : o = o' := by
    rw [canonical_descendingKeyOrder, canonical_descendingKeyOrder] at ho
    exact CanonicalObject.toJson_inj ho
  have hactor := hread (k := "requestActor") rfl rfl
  have hactorRead {k : String} {s t : JsString} (hs : List.lookup (lit k)
      [(lit "tenantId", Json.str e.request.tenantId.value),
        (lit "actorId", .str e.request.actorId.value)] = some (.str s))
      (ht : List.lookup (lit k) [(lit "tenantId", Json.str e'.request.tenantId.value),
        (lit "actorId", .str e'.request.actorId.value)] = some (.str t)) : s = t :=
    hstring (canonical_eq_of_lookup (by exact nodup_requestActorKeys)
      (by exact nodup_requestActorKeys) hactor hs ht)
  refine ⟨hstring (hread (k := "id") rfl rfl), ?_, ?_,
    hstring (hread (k := "requestAction") rfl rfl),
      hobject (hread (k := "requestResource") rfl rfl),
    hobject (hread (k := "requestContext") rfl rfl),
    Effect.name_inj (hstring (hread (k := "decision") rfl rfl)),
    hstring (hread (k := "reason") rfl rfl), hnullable (hread (k := "matchedPolicyId") rfl rfl), ?_,
    ?_, hstring (hread (k := "ts") rfl rfl), hnullable (hread (k := "prevHash") rfl rfl)⟩
  · exact TenantId.ext (hactorRead (k := "tenantId") rfl rfl)
  · exact ActorId.value_inj (hactorRead (k := "actorId") rfl rfl)
  · have hlayer := hnullable (hread (k := "layerResolved") rfl rfl)
    exact Option.map_injective (fun _ _ => Layer.name_inj) hlayer
  · exact CorrelationId.value_inj (hstring (hread (k := "traceId") rfl rfl))

/-- A digest that is the given one on one text and tells all others apart. -/
def markedDigest (text : ByteArray) (digest : JsString) (bytes : ByteArray) : JsString :=
  if bytes = text then digest else 0x67 :: bytes.data.toList.map fun b => Fin.ofNat 65536 b.toNat

/-- Marking one text keeps the digest without collisions. -/
theorem injective_markedDigest {text : ByteArray} {digest : JsString}
    (hdigest : digest.head? ≠ some 0x67) : Function.Injective (markedDigest text digest) := by
  have hhead (l : List CodeUnit) : digest ≠ 0x67 :: l := by
    rintro rfl
    exact hdigest rfl
  intro a b h
  unfold markedDigest at h
  split_ifs at h with ha hb hb
  · rw [ha, hb]
  · exact absurd h (hhead _)
  · exact absurd h.symm (hhead _)
  · rw [List.cons.injEq] at h
    exact ByteArray.ext (Array.toList_inj.mp (unitOfByte_injective.list_map h.2))

/-- The sample entry, asked for by a query of the same coordinates. -/
def sampleOfQuery : DecisionLogEntry where
  id := sample.id
  request := { PolicyRequest.sample with
    action := .query {
      name := lit "customer.create"
      version := 1
      principal := PolicyRequest.sample.action.principal
      correlationId := PolicyRequest.sample.action.correlationId
      causationId := none
      payload := ⟨[], isHardened_empty⟩
      nameOk := isActionName_create
      versionOk := isActionVersion_one } }
  decision := sample.decision
  layerResolved := sample.layerResolved
  ts := sample.ts
  prevHash := sample.prevHash
  idOk := sample.idOk
  sameTrace := sample.sameTrace
  layerOk := sample.layerOk
  tsOk := sample.tsOk
  prevHashOk := sample.prevHashOk

/-- A digest that is SHA-256 on the text of the sample entry. -/
def sampleDigest : ByteArray → JsString :=
  markedDigest (utf8Bytes (ofText sample.plainPayloadOf.stringify))
    (lit "139e848efd7b93137cf0139d62ae5b3a4503f97d3afdf565d4504cad729f901a")

theorem fields_eq_of_entryHash_eq_sample : sample.ts = sampleOfQuery.ts ∧
    sample.prevHash = sampleOfQuery.prevHash := by
  have hinj : Function.Injective sampleDigest := injective_markedDigest (by decide)
  obtain ⟨-, -, -, -, -, -, -, -, -, -, -, hts, hprev⟩ :=
    @fields_eq_of_entryHash_eq _ hinj sample sampleOfQuery rfl
  exact ⟨hts, hprev⟩

end DecisionLogEntry

end MetaframerKernel
