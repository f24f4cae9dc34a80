import MetaframerKernel.Adapters.PostgresDecisionLog
import MetaframerKernel.Stores.HashChain

/-!
# Tamper evidence of the decision log

Rows that `verifyPersistedDecisionLogRow` accepts and whose receipts form a chain are a verified
log, wherever they come from. The rows of a tenant that the adapter has committed are one, and any
other verified log that ends in a hash of theirs tells what they tell: one hash of the head vouches
for the whole log.

## Main definitions

* `IsRead`: the ways the database gives back a row;
* `IsVerifiedLog`: what an auditor can check of a list of rows.

## Main results

* `isVerifiedLog_of_committed`: the committed rows of a tenant are a verified log;
* `committed_isTamperEvident`: a verified log of the same head has the same payloads.
-/

namespace MetaframerKernel.PostgresDecisionLog

open Js Json Async Stores DecisionLogRow

/-! ## Verified logs -/

/-- The row the database gives back: its payload has the members of the stored one in some order. -/
structure IsRead (r : LogRow) (row : Json) : Prop where
  wellFormed : (present row "payload").wellFormed = true
  payload : ∃ stored, r.payload = some stored ∧
    canonical (present row "payload") = canonical stored
  row : row = .obj
    [(lit "id", .str r.id),
      (lit "tenant_id", .str r.tenantId),
      (lit "entry_hash", .str r.entryHash),
      (lit "prev_hash", DecisionLogEntry.nullable r.prevHash),
      (lit "payload", present row "payload")]

/-- The hash of a row, in its receipt. -/
def hashOf (row : Json) : JsString := (receiptOf row).entryHash

/-- What a row links to, in its receipt. -/
def linkOf (row : Json) : Option JsString := (receiptOf row).prevHash

/-- The bytes that are hashed for a row. -/
def hashedBytes (row : Json) : ByteArray :=
  utf8Bytes (ofText (canonicalPayload (present row "payload")).stringify)

/-- The payload of a row as a JSON value, without the `__proto__` members, which no hash covers. -/
def payloadOf (row : Json) : Json := canonical (withoutProto (present row "payload"))

section Verified

variable (sha256 : ByteArray → JsString)

/-- Every row is accepted, and each receipt links to the one before. -/
structure IsVerifiedLog (log : List Json) : Prop where
  wellFormed : ∀ row ∈ log, (present row "payload").wellFormed = true
  accepted : ∀ row ∈ log, verifyPersistedDecisionLogRow sha256 row = .ok (receiptOf row)
  chained : Chained hashOf linkOf log

variable {sha256} {log log' : List Json}

/-- The hash of an accepted row is the digest of its bytes. -/
theorem IsVerifiedLog.hashOf_eq (h : IsVerifiedLog sha256 log) {row : Json} (hrow : row ∈ log) :
    hashOf row = sha256 (hashedBytes row) := by
  obtain ⟨-, -, -, hhash, -⟩ := verify_eq_ok_iff.mp (h.accepted row hrow)
  rw [hashOf, receiptOf, hhash]
  rfl

/-- What a row links to is the `prevHash` of its payload. -/
theorem IsVerifiedLog.linkOf_eq (h : IsVerifiedLog sha256 log) {row : Json} (hrow : row ∈ log) :
    linkOf row = asString (field (present row "payload") "prevHash") := by
  obtain ⟨-, -, hbound, -, -⟩ := verify_eq_ok_iff.mp (h.accepted row hrow)
  rw [linkOf, receiptOf]
  rcases strictlyEqual_iff.mp hbound.prevHash with ⟨hp, hr⟩ | ⟨s, hp, hr⟩ <;> rw [hp, hr]

/-- Accepted rows of one hash link to the same and have the same payload, when no two of the texts
hashed for them have one digest. -/
theorem IsVerifiedLog.binds (h : IsVerifiedLog sha256 log) (h' : IsVerifiedLog sha256 log')
    (hinj : Set.InjOn sha256 {bytes | bytes ∈ (log ++ log').map hashedBytes}) :
    Binds hashOf linkOf payloadOf hashOf linkOf payloadOf log log' := by
  intro r hr r' hr' hkey
  rw [h.hashOf_eq hr, h'.hashOf_eq hr'] at hkey
  have hbytes := hinj (List.mem_map_of_mem (List.mem_append_left _ hr))
    (List.mem_map_of_mem (List.mem_append_right _ hr')) hkey
  rw [hashedBytes, hashedBytes, utf8Bytes_ofText_inj] at hbytes
  -- the payloads are rebuilt to one value
  have hw := h.wellFormed r hr
  have hw' := h'.wellFormed r' hr'
  have hrebuilt := stringify_inj (wellFormed_canonicalPayload hw)
    (wellFormed_canonicalPayload hw') hbytes
  obtain ⟨-, hs, -, -, -⟩ := verify_eq_ok_iff.mp (h.accepted r hr)
  obtain ⟨-, hs', -, -, -⟩ := verify_eq_ok_iff.mp (h'.accepted r' hr')
  refine ⟨?_, canonical_withoutProto_of_rebuilt hw hw' hs hs' hrebuilt⟩
  have hprev := canonical_eq_of_lookup (k := lit "prevHash")
    ((wellFormed_obj _).mp (wellFormed_canonicalPayload hw)).1
    ((wellFormed_obj _).mp (wellFormed_canonicalPayload hw')).1 hrebuilt rfl rfl
  have hasString {v : Json} (hv : isNullOr (isStringOf isHex64) (some v) = true) :
      v = DecisionLogEntry.nullable (asString (some v)) := by
    rcases isNullOr_iff.mp hv with hnull | hstring
    · rw [Option.some.inj hnull]
      rfl
    · obtain ⟨s, hsome, -⟩ := isStringOf_iff.mp hstring
      rw [Option.some.inj hsome]
      rfl
  have hfield {row : Json} (hshape : WellShaped (present row "payload")) :
      field (present row "payload") "prevHash" =
        some (present (present row "payload") "prevHash") :=
    hshape.keys.field_eq (by decide)
  rw [h.linkOf_eq hr, h'.linkOf_eq hr', hfield hs, hfield hs']
  have hnull := hasString (hfield hs ▸ hs.prevHash)
  have hnull' := hasString (hfield hs' ▸ hs'.prevHash)
  rw [hnull, hnull'] at hprev
  exact DecisionLogEntry.nullable_inj (eq_nullable_of_canonical hprev ▸ rfl)

end Verified

/-! ## Committed rows -/

section Committed

variable {sha256 : ByteArray → JsString} {table rows : List LogRow}

/-- Each of the rows that are admitted meets the constraint on its hash. -/
theorem Admitted.entryHash_isHex64 (h : Admitted table rows) {r : LogRow} (hr : r ∈ rows) :
    isHex64 r.entryHash = true := by
  induction rows generalizing table with
  | nil => cases hr
  | cons s rows ih =>
    rcases List.mem_cons.mp hr with rfl | hr
    · exact h.1.entryHashIsHex64
    · exact ih h.2 hr

/-- The row of an entry holds its payload as it is read back. -/
theorem payload_rowOf (entry : DecisionLogEntry) :
    (rowOf sha256 entry).payload = some entry.plainPayloadOf.readBack :=
  jsonParse_stringify (wellFormed_plainPayloadOf entry)

/-- A row the adapter has written is read back as the row of its entry. -/
theorem IsRead.eq_rowFor {entry : DecisionLogEntry} {row : Json}
    (h : IsRead (rowOf sha256 entry) row) :
    row = rowFor sha256 entry (present row "payload") ∧
      canonical (present row "payload") = canonical entry.plainPayloadOf := by
  refine ⟨h.row, ?_⟩
  obtain ⟨stored, hstored, hsame⟩ := h.payload
  rw [payload_rowOf, Option.some.injEq] at hstored
  rw [hsame, ← hstored, canonical_readBack (wellFormed_plainPayloadOf entry)]

/-- An exported row has the hash of its row. -/
theorem IsRead.hashOf_eq {r : LogRow} {row : Json} (h : IsRead r row) :
    hashOf row = r.entryHash := by
  rw [h.row]
  rfl

/-- An exported row has the link of its row. -/
theorem IsRead.linkOf_eq {r : LogRow} {row : Json} (h : IsRead r row) :
    linkOf row = r.prevHash := by
  rw [h.row]
  exact asString_nullable r.prevHash

/-- Every row given back is one of the rows asked for. -/
theorem exists_of_isRead {exported : List Json} (h : List.Forall₂ IsRead rows exported)
    {row : Json} (hrow : row ∈ exported) : ∃ r ∈ rows, IsRead r row := by
  induction h with
  | nil => cases hrow
  | cons hread _ ih =>
    rcases List.mem_cons.mp hrow with rfl | hrow
    · exact ⟨_, List.mem_cons_self, hread⟩
    · obtain ⟨r, hr, hread⟩ := ih hrow
      exact ⟨r, List.mem_cons_of_mem _ hr, hread⟩

/-- The hashes and links of the rows are those of the table. -/
theorem links_of_isRead {exported : List Json} (h : List.Forall₂ IsRead rows exported) :
    rows.map (fun r => (r.entryHash, r.prevHash)) =
      exported.map fun row => (hashOf row, linkOf row) := by
  rw [← List.forall₂_eq_eq_eq, List.forall₂_map_left_iff, List.forall₂_map_right_iff]
  exact h.imp fun r row hread => by rw [hread.hashOf_eq, hread.linkOf_eq]

/-- Exported rows have the hashes of the rows. -/
theorem hashes_of_isRead {exported : List Json} (h : List.Forall₂ IsRead rows exported) :
    rows.map LogRow.entryHash = exported.map hashOf := by
  simpa [Function.comp_def] using congrArg (List.map Prod.fst) (links_of_isRead h)

variable {requests : ℕ → LogRequest} {cfg : Config driver ℕ (Store ℕ ClientId LogRow) LogReply}
  {tenantId : JsString} {exported : List Json}

/-- The committed rows of a tenant, as the database gives them back, are a verified log. -/
theorem isVerifiedLog_of_committed (h : (logSystem sha256 requests).Reachable .empty cfg)
    (hread : List.Forall₂ IsRead (rowsOf tenantId cfg.state.rows) exported) :
    IsVerifiedLog sha256 exported := by
  have hadmitted := (views_of_calls sha256 h).admitted
  have hsource {row : Json} (hrow : row ∈ exported) :
      ∃ entry, IsRead (rowOf sha256 entry) row ∧ isHex64 (entry.entryHash sha256) = true := by
    obtain ⟨r, hr, hisRead⟩ := exists_of_isRead hread hrow
    have hmem := (mem_rowsOf.mp hr).1
    obtain ⟨entry, rfl⟩ := exists_entry_of_mem_rows sha256 h hmem
    -- the transaction that wrote the row was admitted
    obtain ⟨writes, hwrites, hr⟩ := List.mem_flatten.mp hmem
    obtain ⟨tx, htx, rfl⟩ := List.mem_map.mp hwrites
    obtain ⟨before, after, hcommitted⟩ := List.append_of_mem htx
    exact ⟨entry, hisRead, (hadmitted before tx after hcommitted).entryHash_isHex64 hr⟩
  refine ⟨fun row hrow => ?_, fun row hrow => ?_, ?_⟩
  · obtain ⟨entry, hisRead, -⟩ := hsource hrow
    exact hisRead.wellFormed
  · obtain ⟨entry, hisRead, hhash⟩ := hsource hrow
    obtain ⟨hrow, hsame⟩ := hisRead.eq_rowFor
    have hverify := verify_rowFor hhash hisRead.wellFormed hsame
    rw [← hrow] at hverify
    rw [hverify, (verify_eq_ok_iff.mp hverify).2.2.2.2]
  · have hlinked : Linked LogRow.entryHash LogRow.prevHash (rowsOf tenantId cfg.state.rows) :=
      allLinked_of_admitted hadmitted tenantId
    exact hlinked.chained.congr (links_of_isRead hread)

/-- What the query of the chain head selects is the hash of the last row that is read. -/
theorem getLast?_hashOf (h : (logSystem sha256 requests).Reachable .empty cfg)
    (hread : List.Forall₂ IsRead (rowsOf tenantId cfg.state.rows) exported) {hash : JsString}
    (hhead : chainHeadQuery tenantId cfg.state.rows = [hash]) :
    exported.getLast?.map hashOf = some hash := by
  have hlinked : Linked LogRow.entryHash LogRow.prevHash (rowsOf tenantId cfg.state.rows) :=
    allLinked_of_admitted (views_of_calls sha256 h).admitted tenantId
  rw [chainHeadQuery_eq, hlinked.heads_eq] at hhead
  rw [← List.getLast?_map, ← hashes_of_isRead hread, List.getLast?_map]
  cases hlast : (rowsOf tenantId cfg.state.rows).getLast? with
  | none => simp [hlast] at hhead
  | some r =>
    rw [hlast] at hhead
    exact congrArg some (List.cons.inj hhead).1

/-- The committed rows of a tenant are a verified log. Another one that ends in a hash of theirs
tells an initial part of it, and one that ends in the head tells all of it, unless two of the texts
that are hashed have one digest. -/
theorem committed_isTamperEvident (h : (logSystem sha256 requests).Reachable .empty cfg)
    (hread : List.Forall₂ IsRead (rowsOf tenantId cfg.state.rows) exported) :
    IsVerifiedLog sha256 exported ∧
      ∀ log, IsVerifiedLog sha256 log →
        Set.InjOn sha256 {bytes | bytes ∈ (log ++ exported).map hashedBytes} →
        ∀ hash, log.getLast?.map hashOf = some hash →
          (hash ∈ (rowsOf tenantId cfg.state.rows).map LogRow.entryHash →
            log.map payloadOf <+: exported.map payloadOf) ∧
          (chainHeadQuery tenantId cfg.state.rows = [hash] →
            log.map payloadOf = exported.map payloadOf) := by
  have hexported := isVerifiedLog_of_committed h hread
  refine ⟨hexported, fun log hlog hinj hash hlast => ⟨fun hmem => ?_, fun hhead => ?_⟩⟩
  · rw [hashes_of_isRead hread] at hmem
    exact hlog.chained.map_prefix hexported.chained (hlog.binds hexported hinj) hlast hmem
  · refine hlog.chained.map_eq hexported.chained (hlog.binds hexported hinj) ?_
    rw [hlast, getLast?_hashOf h hread hhead]

/-- A row with the members of its payload in some order is one the database may give back. -/
theorem isRead_rowFor {entry : DecisionLogEntry} {payload : Json} (hw : payload.wellFormed = true)
    (hsame : canonical payload = canonical entry.plainPayloadOf) :
    IsRead (rowOf sha256 entry) (rowFor sha256 entry payload) where
  wellFormed := hw
  payload := ⟨_, payload_rowOf entry, by
    rw [canonical_readBack (wellFormed_plainPayloadOf entry)]
    exact hsame⟩
  row := rfl

/-- Its hash is that of the entry. -/
theorem hashOf_rowFor (entry : DecisionLogEntry) (payload : Json) :
    hashOf (rowFor sha256 entry payload) = entry.entryHash sha256 := rfl

/-- Whatever the order, the bytes that are hashed are those of the entry. -/
theorem hashedBytes_rowFor {entry : DecisionLogEntry} {payload : Json}
    (hw : payload.wellFormed = true) (hsame : canonical payload = canonical entry.plainPayloadOf) :
    hashedBytes (rowFor sha256 entry payload) = utf8Bytes (ofText entry.plainPayloadOf.stringify) :=
  congrArg (fun text => utf8Bytes (ofText text)) ((carries_of_canonical hw hsame).stringify_eq hw)

end Committed

/-! ## Two logs of the same rows -/

section Linked

/-- The rows of the two entries, with the payload of the second one as it is given. -/
def linkedLog (payload : Json) : List Json :=
  [rowFor sha256Hex .sample DecisionLogEntry.sample.plainPayloadOf,
    rowFor sha256Hex nestedEntry payload]

/-- The permuted payload has the canonical form of the payload. -/
theorem canonical_permutedPayload :
    canonical permutedPayload = canonical nestedEntry.plainPayloadOf :=
  (sameValue_iff_canonical wellFormed_permutedPayload (wellFormed_plainPayloadOf _)).mp
    sameValue_permutedPayload

/-- The database may give them back so. -/
theorem isRead_linkedLog {payload : Json} (hw : payload.wellFormed = true)
    (hsame : canonical payload = canonical nestedEntry.plainPayloadOf) :
    List.Forall₂ IsRead linkedRows (linkedLog payload) :=
  .cons (isRead_rowFor (wellFormed_plainPayloadOf _) rfl) (.cons (isRead_rowFor hw hsame) .nil)

/-- No two of the texts that are hashed have one digest. -/
theorem injOn_linkedLog : Set.InjOn sha256Hex {bytes | bytes ∈
    (linkedLog nestedEntry.plainPayloadOf ++ linkedLog permutedPayload).map hashedBytes} := by
  have hdistinct : nestedEntry.entryHash sha256Hex ≠ DecisionLogEntry.sample.entryHash
    sha256Hex := by
    rw [entryHash_nestedEntry, entryHash_sample]
    decide
  rw [DecisionLogEntry.entryHash_eq, DecisionLogEntry.entryHash_eq] at hdistinct
  -- there are two texts, each in both logs
  have hbytes : ∀ bytes ∈ (linkedLog nestedEntry.plainPayloadOf ++
      linkedLog permutedPayload).map hashedBytes,
      bytes = utf8Bytes (ofText DecisionLogEntry.sample.plainPayloadOf.stringify) ∨
        bytes = utf8Bytes (ofText nestedEntry.plainPayloadOf.stringify) := by
    simp only [linkedLog, List.cons_append, List.nil_append, List.map_cons, List.map_nil,
      List.forall_mem_cons, hashedBytes_rowFor (wellFormed_plainPayloadOf _) rfl,
      hashedBytes_rowFor wellFormed_permutedPayload canonical_permutedPayload]
    simp
  exact (Set.injOn_pair.mpr fun h => absurd h.symm hdistinct).mono hbytes

theorem committed_isTamperEvident_linked :
    ∃ cfg, (logSystem sha256Hex linkedRequests).Reachable .empty cfg ∧
      IsVerifiedLog sha256Hex (linkedLog permutedPayload) ∧
      (linkedLog nestedEntry.plainPayloadOf).map payloadOf =
        (linkedLog permutedPayload).map payloadOf := by
  obtain ⟨cfg, h, hrows⟩ := exists_linkedRows
  have hread {payload : Json} (hw : payload.wellFormed = true)
      (hsame : canonical payload = canonical nestedEntry.plainPayloadOf) :
      List.Forall₂ IsRead
        (rowsOf DecisionLogEntry.sample.request.tenantId.value cfg.state.rows)
        (linkedLog payload) := by
    rw [hrows, rowsOf_linkedRows]
    exact isRead_linkedLog hw hsame
  obtain ⟨hexported, hbinds⟩ := committed_isTamperEvident h
    (hread wellFormed_permutedPayload canonical_permutedPayload)
  -- the other log is read off the same rows, and ends in the head
  have hlog := isVerifiedLog_of_committed h (hread (wellFormed_plainPayloadOf _) rfl)
  have hlast : (linkedLog nestedEntry.plainPayloadOf).getLast?.map hashOf =
      some (nestedEntry.entryHash sha256Hex) := by
    rw [linkedLog, List.getLast?_cons_cons, List.getLast?_singleton, Option.map_some, hashOf_rowFor]
  have hhead : chainHeadQuery DecisionLogEntry.sample.request.tenantId.value cfg.state.rows =
      [nestedEntry.entryHash sha256Hex] := by
    have hboth : rowsOf DecisionLogEntry.sample.request.tenantId.value cfg.state.rows =
        [rowOf sha256Hex .sample] ++ [rowOf sha256Hex nestedEntry] := by
      rw [hrows, rowsOf_linkedRows]
      rfl
    rw [chainHeadQuery_of_rowsOf h hboth, entryHash_rowOf]
  exact ⟨cfg, h, hexported, (hbinds _ hlog injOn_linkedLog _ hlast).2 hhead⟩

end Linked

end MetaframerKernel.PostgresDecisionLog
