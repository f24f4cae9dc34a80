import MetaframerKernel.Application.DecisionLogEntry

/-!
# Commit receipts

The value of one successful commit: eight fields, each checked at construction.

## Main definitions

* `CommitReceipt`, `CommitReceipt.ofRaw`.
-/

namespace MetaframerKernel

open Js

/-- A string with a character that `trim` leaves. -/
def isNonBlank (s : JsString) : Bool := !(trim s).isEmpty

/-- A unit that `trim` keeps makes a string non-blank. -/
theorem isNonBlank_of_mem {s : JsString} {u : CodeUnit} (hu : u ∈ s)
    (hkept : isTrimmed u = false) : isNonBlank s = true := by
  have hdrop (l : JsString) (hu : u ∈ l) : u ∈ l.dropWhile isTrimmed := by
    have hsplit := (List.takeWhile_append_dropWhile (p := isTrimmed) (l := l)).symm ▸ hu
    refine (List.mem_append.mp hsplit).resolve_left fun htake => ?_
    rw [List.all_eq_true.mp List.all_takeWhile u htake] at hkept
    cases hkept
  have hmem : u ∈ trim s :=
    List.mem_reverse.mpr (hdrop _ (List.mem_reverse.mpr (hdrop s hu)))
  rw [isNonBlank, Bool.not_eq_true', List.isEmpty_eq_false_iff]
  exact List.ne_nil_of_mem hmem

/-- A genuine commit receipt; its `outcome` is the constant `COMMITTED`. -/
structure CommitReceipt where
  requestId : JsString
  tenantId : JsString
  resourceId : JsString
  committedAt : JsString
  auditId : JsString
  outboxEventIds : List JsString
  idempotencyKey : JsString
  committedAtOk : isInstant committedAt = true
  outboxEventIdsOk : outboxEventIds ≠ [] ∧ outboxEventIds.Nodup
  nonBlank : ∀ s ∈ [requestId, tenantId, resourceId, auditId, idempotencyKey] ++ outboxEventIds,
    isNonBlank s = true
deriving DecidableEq

namespace CommitReceipt

/-- `outcome` -/
def outcome (_ : CommitReceipt) : JsString := lit "COMMITTED"

/-- `nonEmptyString` -/
def nonEmptyString (value : JsString) (field : String) :
    Except NativeError {s : JsString // s = value ∧ isNonBlank s = true} :=
  if h : isNonBlank value = true then .ok ⟨value, rfl, h⟩
  else .error (.typeError
    (lit "CommitReceipt " ++ lit field ++ lit " needs a non-empty primitive string"))

/-- `committedAtValue` -/
def committedAtValue (value : JsString) :
    Except NativeError {s : JsString // s = value ∧ isInstant s = true} :=
  match h : timestampRefusal (lit "CommitReceipt committedAt") value with
  | some e => .error e
  | none => .ok ⟨value, rfl, timestampRefusal_eq_none.mp h⟩

/-- The loop of `outboxEventIdsValue`, after the ids `seen`. -/
def checkEventIds (seen : List JsString) : List JsString → Except NativeError Unit
  | [] => .ok ()
  | id :: ids =>
      if !isNonBlank id then
        .error (.typeError
          (lit "CommitReceipt outboxEventIds elements must be non-empty primitive strings"))
      else if id ∈ seen then
        .error (.typeError (lit "CommitReceipt outboxEventIds must be unique"))
      else checkEventIds (id :: seen) ids

theorem checkEventIds_eq_ok {seen ids : List JsString} {u : Unit}
    (h : checkEventIds seen ids = .ok u) :
    (∀ id ∈ ids, isNonBlank id = true ∧ id ∉ seen) ∧ ids.Nodup := by
  induction ids generalizing seen with
  | nil => exact ⟨by simp, List.nodup_nil⟩
  | cons id ids ih =>
    rw [checkEventIds] at h
    split_ifs at h with hblank hseen
    obtain ⟨hids, hnodup⟩ := ih h
    rw [Bool.not_eq_true', Bool.not_eq_false] at hblank
    refine ⟨List.forall_mem_cons.mpr ⟨⟨hblank, hseen⟩, fun id' hid' => ?_⟩,
      List.nodup_cons.mpr ⟨fun hid => ?_, hnodup⟩⟩
    · obtain ⟨hnonBlank, hfresh⟩ := hids id' hid'
      exact ⟨hnonBlank, fun hmem => hfresh (List.mem_cons_of_mem _ hmem)⟩
    · exact (hids id hid).2 List.mem_cons_self

/-- `outboxEventIdsValue` on a dense ordinary array of strings. -/
def outboxEventIdsValue (value : List JsString) : Except NativeError
    {l : List JsString // l = value ∧ (l ≠ [] ∧ l.Nodup) ∧ ∀ s ∈ l, isNonBlank s = true} :=
  if hempty : value = [] then
    .error (.typeError (lit "CommitReceipt outboxEventIds needs a non-empty ordinary array"))
  else
    match h : checkEventIds [] value with
    | .error e => .error e
    | .ok _ =>
        .ok ⟨value, rfl, ⟨hempty, (checkEventIds_eq_ok h).2⟩,
          fun s hs => ((checkEventIds_eq_ok h).1 s hs).1⟩

/-- `new CommitReceipt(options)` on string fields. -/
def ofRaw (requestId tenantId resourceId committedAt auditId : JsString)
    (outboxEventIds : List JsString) (idempotencyKey : JsString) :
    Except NativeError CommitReceipt := do
  let requestId ← nonEmptyString requestId "requestId"
  let tenantId ← nonEmptyString tenantId "tenantId"
  let resourceId ← nonEmptyString resourceId "resourceId"
  let committedAt ← committedAtValue committedAt
  let auditId ← nonEmptyString auditId "auditId"
  let outboxEventIds ← outboxEventIdsValue outboxEventIds
  let idempotencyKey ← nonEmptyString idempotencyKey "idempotencyKey"
  return {
    requestId := requestId
    tenantId := tenantId
    resourceId := resourceId
    committedAt := committedAt
    auditId := auditId
    outboxEventIds := outboxEventIds
    idempotencyKey := idempotencyKey
    committedAtOk := committedAt.2.2
    outboxEventIdsOk := outboxEventIds.2.2.1
    nonBlank := by
      have h₁ := requestId.2.2
      have h₂ := tenantId.2.2
      have h₃ := resourceId.2.2
      have h₄ := auditId.2.2
      have h₅ := idempotencyKey.2.2
      have h₆ := outboxEventIds.2.2.2
      simp only [List.cons_append, List.nil_append, List.forall_mem_cons]
      exact ⟨h₁, h₂, h₃, h₄, h₅, h₆⟩ }

section Fields

variable {requestId tenantId resourceId committedAt auditId idempotencyKey : JsString}
  {outboxEventIds : List JsString}

/-- A receipt carries what it was made from. -/
theorem ofRaw_eq_ok {r : CommitReceipt}
    (h : ofRaw requestId tenantId resourceId committedAt auditId outboxEventIds idempotencyKey =
      .ok r) :
    r.requestId = requestId ∧ r.tenantId = tenantId ∧ r.resourceId = resourceId ∧
      r.committedAt = committedAt ∧ r.auditId = auditId ∧ r.outboxEventIds = outboxEventIds ∧
      r.idempotencyKey = idempotencyKey := by
  simp only [ofRaw, bind_eq_ok] at h
  obtain ⟨a₁, -, a₂, -, a₃, -, a₄, -, a₅, -, a₆, -, a₇, -, h⟩ := h
  obtain rfl := Except.ok.inj h
  exact ⟨a₁.2.1, a₂.2.1, a₃.2.1, a₄.2.1, a₅.2.1, a₆.2.1, a₇.2.1⟩

end Fields

end CommitReceipt

end MetaframerKernel
