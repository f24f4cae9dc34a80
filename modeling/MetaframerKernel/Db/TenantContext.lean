import Mathlib.Algebra.Group.Nat.Defs
import Mathlib.Data.List.Basic
import Mathlib.Data.Nat.Notation
import Mathlib.Logic.Function.Basic
import Mathlib.Tactic.Common
import MetaframerKernel.Codec.Sha256

/-!
# The tenant context

The tenant that row-level security works with. Both settings it is read from can be written by
anyone, so the tenant counts only with an attestation that is bound to it and to the transaction,
and `mfk_begin_tenant_context` is the only source of attestations.

A statement outside a transaction block is one of a transaction of its own, so every statement here
is one inside a transaction. The attestation is a parameter: the hexadecimal HMAC of a message
under the secret of the database. A setting that was never set reads as `NULL` here, also where it
reads as the empty text once it has been set and taken back; the functions do not tell these apart.

## Main definitions

* `Uuid`, `uuidIn`, `uuidOut`: the type `uuid` and its casts from and to `text`;
* `Settings`, `Session`: the two settings with their transactional values;
* `mfkAttestation`, `mfkCurrentTenant`: the functions of the migration;
* `Step`, `Run`: what a runtime role can do, in any number of sessions.

## Main results

* `called_of_currentTenant`: a tenant the role is taken for has been asked for by
  `mfk_begin_tenant_context` in the same transaction.
-/

namespace MetaframerKernel.TenantContext

/-- A PostgreSQL `text`. -/
abbrev Text : Type := List Char

/-! ## The type `uuid` -/

/-- A `uuid`, by its hexadecimal digits. -/
structure Uuid where
  digits : List (Fin 16)
  lengthOk : digits.length = 32
deriving DecidableEq

/-- A lowercase hexadecimal digit. -/
def hexDigit (d : Fin 16) : Char := Nat.digitChar d

/-- The text of some digits. -/
def hexText (digits : List (Fin 16)) : Text := digits.map hexDigit

/-- `uuid_out`, the cast to `text`. -/
def uuidOut (u : Uuid) : Text :=
  hexText (u.digits.take 8) ++ '-' :: hexText ((u.digits.drop 8).take 4) ++
    '-' :: hexText ((u.digits.drop 12).take 4) ++ '-' :: hexText ((u.digits.drop 16).take 4) ++
    '-' :: hexText (u.digits.drop 20)

/-- The value of a hexadecimal digit of either case. -/
def hexValue? (c : Char) : Option (Fin 16) :=
  (List.finRange 16).find? fun d => hexDigit d = c || (hexDigit d).toUpper = c

/-- A hyphen is passed over after every second byte but the last; `left` bytes are to come. -/
def skipHyphen (left : ℕ) : Text → Text
  | '-' :: src => if left % 2 = 0 ∧ 0 < left then src else '-' :: src
  | src => src

/-- The loop of `string_to_uuid` over the bytes. -/
def readBytes : ℕ → Text → Option (List (Fin 16) × Text)
  | 0, src => some ([], src)
  | left + 1, a :: b :: src => do
      let x ← hexValue? a
      let y ← hexValue? b
      let (digits, rest) ← readBytes left (skipHyphen left src)
      return (x :: y :: digits, rest)
  | _ + 1, _ => none

/-- The digits of a text, which may stand between braces. -/
def readUuid : Text → Option (List (Fin 16))
  | '{' :: src =>
      match readBytes 16 src with
      | some (digits, ['}']) => some digits
      | _ => none
  | src =>
      match readBytes 16 src with
      | some (digits, []) => some digits
      | _ => none

/-- `uuid_in`, the cast from `text`. -/
def uuidIn (src : Text) : Option Uuid := do
  let digits ← readUuid src
  if h : digits.length = 32 then some ⟨digits, h⟩ else none

/-- No hexadecimal digit is a hyphen. -/
theorem hexDigit_ne_hyphen (d : Fin 16) : hexDigit d ≠ '-' := by
  decide +revert

/-- Hexadecimal digits are printed differently. -/
theorem hexDigit_injective : Function.Injective hexDigit := by
  intro d d' h
  revert d d'
  decide

/-- Hexadecimal text has no hyphens to take out. -/
theorem filter_hexText (digits : List (Fin 16)) :
    (hexText digits).filter (fun c => c ≠ '-') = hexText digits := by
  rw [List.filter_eq_self]
  intro c hc
  obtain ⟨d, -, rfl⟩ := List.mem_map.mp hc
  exact decide_eq_true (hexDigit_ne_hyphen d)

/-- The digits of a `uuid` are what its text has beside the hyphens. -/
theorem filter_uuidOut (u : Uuid) :
    (uuidOut u).filter (fun c => c ≠ '-') = hexText u.digits := by
  have h₁ : u.digits.drop 8 = (u.digits.drop 8).take 4 ++ u.digits.drop 12 := by
    rw [← List.drop_drop (i := 4) (j := 8), List.take_append_drop]
  have h₂ : u.digits.drop 12 = (u.digits.drop 12).take 4 ++ u.digits.drop 16 := by
    rw [← List.drop_drop (i := 4) (j := 12), List.take_append_drop]
  have h₃ : u.digits.drop 16 = (u.digits.drop 16).take 4 ++ u.digits.drop 20 := by
    rw [← List.drop_drop (i := 4) (j := 16), List.take_append_drop]
  -- the five groups, put together again, are the digits
  have hdigits : u.digits = u.digits.take 8 ++ ((u.digits.drop 8).take 4 ++
      ((u.digits.drop 12).take 4 ++ ((u.digits.drop 16).take 4 ++ u.digits.drop 20))) := by
    rw [← h₃, ← h₂, ← h₁, List.take_append_drop]
  have htext : hexText u.digits = hexText (u.digits.take 8) ++
      (hexText ((u.digits.drop 8).take 4) ++ (hexText ((u.digits.drop 12).take 4) ++
        (hexText ((u.digits.drop 16).take 4) ++ hexText (u.digits.drop 20)))) := by
    conv_lhs => rw [hdigits]
    simp only [hexText, List.map_append]
  have hhyphen (cs : Text) : ('-' :: cs).filter (fun c => c ≠ '-') = cs.filter (fun c => c ≠ '-') :=
    List.filter_cons_of_neg (by decide)
  rw [htext]
  simp only [uuidOut, List.filter_append, filter_hexText, hhyphen, List.append_assoc]

/-- UUIDs are printed differently. -/
theorem uuidOut_injective : Function.Injective uuidOut := by
  intro u v h
  have hdigits : hexText u.digits = hexText v.digits := by
    rw [← filter_uuidOut, h, filter_uuidOut]
  have hlists : u.digits = v.digits := hexDigit_injective.list_map hdigits
  cases u
  cases v
  congr

/-! ## Settings -/

/-- A setting: its value in the session, and that of `SET LOCAL` where there is one. -/
structure Setting where
  session : Option Text
  override : Option Text

namespace Setting

/-- `current_setting(…, true)` -/
def current (x : Setting) : Option Text := x.override.or x.session

/-- `SET LOCAL`, or `SET`, which also puts an end to an earlier `SET LOCAL`. -/
def set (x : Setting) (isLocal : Bool) (value : Text) : Setting :=
  if isLocal then { x with override := some value } else ⟨some value, none⟩

/-- What is left at the end of a transaction that is committed. -/
def commit (x : Setting) : Setting := ⟨x.session, none⟩

/-- The texts a setting holds. -/
def texts (x : Setting) : List Text := x.override.toList ++ x.session.toList

end Setting

/-- The two settings of the tenant context. -/
inductive SettingName where
  | tenantId
  | tenantAttestation

/-- Their values in a session. -/
structure Settings where
  tenantId : Setting
  tenantAttestation : Setting

namespace Settings

/-- `SET`, `SET LOCAL` and `set_config` -/
def set (x : Settings) (isLocal : Bool) (name : SettingName) (value : Text) : Settings :=
  match name with
  | .tenantId => { x with tenantId := x.tenantId.set isLocal value }
  | .tenantAttestation => { x with tenantAttestation := x.tenantAttestation.set isLocal value }

/-- What is left at the end of a transaction that is committed. -/
def commit (x : Settings) : Settings := ⟨x.tenantId.commit, x.tenantAttestation.commit⟩

end Settings

/-! ## Sessions -/

/-- A transaction identifier, `xid8`. -/
abbrev Xid : Type := Fin (2 ^ 64)

/-- A transaction: its identifier once it has one, the settings from before it, and its savepoints
with the settings from before them, the latest first. -/
structure Tx where
  xid : Option Xid
  before : Settings
  savepoints : List (Text × Settings)

/-- A session, and the transaction it is in. -/
structure Session where
  settings : Settings
  tx : Option Tx

/-- The savepoints from the latest one of the name on. -/
def Tx.from (tx : Tx) (name : Text) : List (Text × Settings) :=
  tx.savepoints.dropWhile fun savepoint => savepoint.1 ≠ name

/-! ## The functions of the migration -/

section Functions

variable (hmac : Text → Text → Text)

/-- The message that is signed. -/
def message (tenant : Uuid) (xid : Xid) : Text := uuidOut tenant ++ ':' :: Nat.toDigits 10 xid

/-- `mfk_attestation`, over the secret in the row of `mfk_context_key`. -/
def mfkAttestation (secret : Option Text) (tenant : Uuid) (xid : Xid) : Option Text :=
  secret.map fun key => hmac key (message tenant xid)

/-- `btrim(…) = ''` -/
def isBlank (text : Text) : Bool := text.all fun c => c = ' '

/-- `mfk_current_tenant` in a session of the given user. -/
def mfkCurrentTenant (secret : Option Text) (sessionUser objectOwner : Text) (session : Session) :
    Option Uuid :=
  match session.settings.tenantId.current with
  | none => none
  | some raw =>
    if isBlank raw then none
    else
      match uuidIn raw with
      | none => none
      | some tenant =>
        if sessionUser = objectOwner then some tenant
        else
          match session.settings.tenantAttestation.current with
          | none => none
          | some attestation =>
            if isBlank attestation then none
            else
              match session.tx.bind Tx.xid with
              | none => none
              | some xid =>
                match mfkAttestation hmac secret tenant xid with
                -- a comparison with `NULL` is not true
                | none => some tenant
                | some expected => if attestation ≠ expected then none else some tenant

/-- What is signed determines the tenant and the transaction. -/
theorem message_injective {tenant tenant' : Uuid} {xid xid' : Xid}
    (h : message tenant xid = message tenant' xid') : tenant = tenant' ∧ xid = xid' := by
  have hlength : (uuidOut tenant).length = (uuidOut tenant').length := by
    simp [uuidOut, hexText, tenant.lengthOk, tenant'.lengthOk]
  obtain ⟨htenant, hxid⟩ := List.append_inj h hlength
  refine ⟨uuidOut_injective htenant, Fin.ext ?_⟩
  rw [← Nat.ofDigitChars_ten_toDigits (n := xid), (List.cons.inj hxid).2,
    Nat.ofDigitChars_ten_toDigits]

end Functions

/-! ## What a runtime role can do -/

/-- A statement of a runtime role. -/
inductive Statement where
  | begin
  | commit
  | rollback
  | savepoint (name : Text)
  | rollbackTo (name : Text)
  | release (name : Text)
  /-- `SET`, `SET LOCAL` or `set_config` of a setting. -/
  | set (isLocal : Bool) (name : SettingName) (value : Text)
  /-- Any statement by which the transaction is given its identifier. -/
  | assignXid
  | beginTenantContext (tenant : Uuid)

variable {ι : Type}

/-- The sessions of the role, the transaction identifiers that have been given out, and what
attestations have been made for. -/
structure State (ι : Type) where
  sessions : ι → Session
  used : List Xid
  issued : List (Uuid × Xid)

/-- Sessions that have just been opened. -/
def State.initial : State ι where
  sessions _ := ⟨⟨⟨none, none⟩, ⟨none, none⟩⟩, none⟩
  used := []
  issued := []

section Steps

variable (hmac : Text → Text → Text) (secret : Text) [DecidableEq ι]

/-- The texts the role can write: the attestations it has been given, and whatever is not an
attestation. It cannot come to another one without the secret. -/
def Writable (issued : List (Uuid × Xid)) (value : Text) : Prop :=
  (∃ signed ∈ issued, value = hmac secret (message signed.1 signed.2)) ∨
    ∀ tenant xid, value ≠ hmac secret (message tenant xid)

/-- The identifier of a transaction, which is given out now if it has none yet. -/
def Assigns (used : List Xid) (tx : Tx) (xid : Xid) : Prop :=
  tx.xid = some xid ∨ tx.xid = none ∧ xid ∉ used

/-- The settings after `mfk_begin_tenant_context`. -/
def Settings.beginTenantContext (x : Settings) (tenant : Uuid) (xid : Xid) : Settings :=
  (x.set true .tenantId (uuidOut tenant)).set true .tenantAttestation
    (hmac secret (message tenant xid))

/-- The state after a session has come to another one. -/
def State.withSession (s : State ι) (i : ι) (session : Session) : State ι :=
  { s with sessions := Function.update s.sessions i session }

/-- A session is what it has been set to. -/
@[simp]
theorem State.withSession_self (s : State ι) (i : ι) (session : Session) :
    (s.withSession i session).sessions i = session := Function.update_self ..

/-- The other sessions stay as they were. -/
@[simp]
theorem State.withSession_of_ne (s : State ι) {i j : ι} (session : Session) (h : j ≠ i) :
    (s.withSession i session).sessions j = s.sessions j := Function.update_of_ne h ..

/-- One statement in one session. -/
inductive Step (s : State ι) : ι × Statement → State ι → Prop
  | begin {i : ι} {settings : Settings} : s.sessions i = ⟨settings, none⟩ →
      Step s (i, .begin) (s.withSession i ⟨settings, some ⟨none, settings, []⟩⟩)
  | commit {i : ι} {settings : Settings} {tx : Tx} : s.sessions i = ⟨settings, some tx⟩ →
      Step s (i, .commit) (s.withSession i ⟨settings.commit, none⟩)
  | rollback {i : ι} {settings : Settings} {tx : Tx} : s.sessions i = ⟨settings, some tx⟩ →
      Step s (i, .rollback) (s.withSession i ⟨tx.before, none⟩)
  | savepoint {i : ι} {settings : Settings} {tx : Tx} (name : Text) :
      s.sessions i = ⟨settings, some tx⟩ →
      Step s (i, .savepoint name) (s.withSession i
        ⟨settings, some { tx with savepoints := (name, settings) :: tx.savepoints }⟩)
  | rollbackTo {i : ι} {settings : Settings} {tx : Tx} {name : Text} {saved : Text × Settings}
      {earlier : List (Text × Settings)} : s.sessions i = ⟨settings, some tx⟩ →
      tx.from name = saved :: earlier →
      Step s (i, .rollbackTo name)
        (s.withSession i ⟨saved.2, some { tx with savepoints := saved :: earlier }⟩)
  | release {i : ι} {settings : Settings} {tx : Tx} {name : Text} {saved : Text × Settings}
      {earlier : List (Text × Settings)} : s.sessions i = ⟨settings, some tx⟩ →
      tx.from name = saved :: earlier →
      Step s (i, .release name)
        (s.withSession i ⟨settings, some { tx with savepoints := earlier }⟩)
  | set {i : ι} {settings : Settings} {tx : Tx} (isLocal : Bool) (name : SettingName)
      {value : Text} : s.sessions i = ⟨settings, some tx⟩ → Writable hmac secret s.issued value →
      Step s (i, .set isLocal name value)
        (s.withSession i ⟨settings.set isLocal name value, some tx⟩)
  | assignXid {i : ι} {settings : Settings} {tx : Tx} {xid : Xid} :
      s.sessions i = ⟨settings, some tx⟩ → Assigns s.used tx xid →
      Step s (i, .assignXid)
        { s.withSession i ⟨settings, some { tx with xid := some xid }⟩ with
          used := xid :: s.used }
  | beginTenantContext {i : ι} {settings : Settings} {tx : Tx} (tenant : Uuid) {xid : Xid} :
      s.sessions i = ⟨settings, some tx⟩ → Assigns s.used tx xid →
      Step s (i, .beginTenantContext tenant)
        { s.withSession i ⟨settings.beginTenantContext hmac secret tenant xid,
            some { tx with xid := some xid }⟩ with
          used := xid :: s.used
          issued := (tenant, xid) :: s.issued }

/-- A run of statements, the latest first, from newly opened sessions. -/
inductive Run : List (ι × Statement) → State ι → Prop
  | start : Run [] .initial
  | step {past : List (ι × Statement)} {s s' : State ι} {ev : ι × Statement} :
      Run past s → Step hmac secret s ev s' → Run (ev :: past) s'

/-- The tenants for which `mfk_begin_tenant_context` has been called in the transaction a session
is in. -/
def calledInTransaction (i : ι) : List (ι × Statement) → List Uuid
  | [] => []
  | (j, .begin) :: past => if j = i then [] else calledInTransaction i past
  | (j, .beginTenantContext tenant) :: past =>
      if j = i then tenant :: calledInTransaction i past else calledInTransaction i past
  | _ :: past => calledInTransaction i past

end Steps

/-! ## The invariant -/

/-- The identifier of the transaction a session is in. -/
def Session.xid? (session : Session) : Option Xid := session.tx.bind Tx.xid

/-- What holds of the attestations in some settings. -/
def Settings.All (P : Text → Prop) (x : Settings) : Prop :=
  ∀ text ∈ x.tenantAttestation.texts, P text

/-- What holds of all attestations a session can come back to. -/
structure Session.All (P : Text → Prop) (session : Session) : Prop where
  settings : session.settings.All P
  before : ∀ tx, session.tx = some tx → tx.before.All P
  savepoints : ∀ tx, session.tx = some tx → ∀ savepoint ∈ tx.savepoints, savepoint.2.All P

section All

variable {P Q : Text → Prop} {x : Settings}

/-- Setting a value adds no other text. -/
theorem Setting.mem_texts_of_set {y : Setting} {isLocal : Bool} {value text : Text}
    (h : text ∈ (y.set isLocal value).texts) : text = value ∨ text ∈ y.texts := by
  cases isLocal with
  | true =>
    rcases List.mem_append.mp h with hoverride | hsession
    · exact .inl (List.mem_singleton.mp hoverride)
    · exact .inr (List.mem_append_right _ hsession)
  | false => exact .inl (List.mem_singleton.mp h)

/-- The current value is one of the texts of a setting. -/
theorem Setting.mem_texts_of_current {y : Setting} {text : Text} (h : y.current = some text) :
    text ∈ y.texts := by
  rw [Setting.current, Option.or_eq_some_iff] at h
  rcases h with hoverride | ⟨-, hsession⟩
  · exact List.mem_append_left _ (Option.mem_toList.mpr hoverride)
  · exact List.mem_append_right _ (Option.mem_toList.mpr hsession)

/-- Setting a value keeps what holds of every attestation and of that value. -/
theorem Settings.All.set (h : x.All P) {isLocal : Bool} {name : SettingName} {value : Text}
    (hvalue : name = .tenantAttestation → P value) : (x.set isLocal name value).All P := by
  cases name with
  | tenantId => exact h
  | tenantAttestation =>
    intro text htext
    rcases Setting.mem_texts_of_set htext with rfl | hold
    · exact hvalue rfl
    · exact h text hold

/-- A commit keeps what holds of every attestation. -/
theorem Settings.All.commit (h : x.All P) : x.commit.All P :=
  fun text htext => h text (List.mem_append_right _ htext)

/-- What holds of every attestation implies what is weaker. -/
theorem Settings.All.mono (h : x.All P) (hPQ : ∀ text, P text → Q text) : x.All Q :=
  fun text htext => hPQ text (h text htext)

/-- What holds of every attestation of a session implies what is weaker. -/
theorem Session.All.mono {session : Session} (h : session.All P) (hPQ : ∀ text, P text → Q text) :
    session.All Q :=
  ⟨h.settings.mono hPQ, fun tx htx => (h.before tx htx).mono hPQ,
    fun tx htx savepoint hmem => (h.savepoints tx htx savepoint hmem).mono hPQ⟩

end All

section Invariant

variable [DecidableEq ι] {hmac : Text → Text → Text} {secret : Text}

/-- A text is the attestation only of what attestations have been made for. -/
def Known (hmac : Text → Text → Text) (secret : Text) (issued : List (Uuid × Xid)) (text : Text) :
    Prop :=
  ∀ tenant xid, text = hmac secret (message tenant xid) → (tenant, xid) ∈ issued

/-- Every attestation around has been issued, each identifier belongs to one transaction, and the
attestations of a transaction were issued to its own calls. -/
structure Inv (hmac : Text → Text → Text) (secret : Text) (past : List (ι × Statement))
    (s : State ι) : Prop where
  known : ∀ i, (s.sessions i).All (Known hmac secret s.issued)
  used : ∀ i xid, (s.sessions i).xid? = some xid → xid ∈ s.used
  issued : ∀ tenant xid, (tenant, xid) ∈ s.issued → xid ∈ s.used
  own : ∀ i j xid, (s.sessions i).xid? = some xid → (s.sessions j).xid? = some xid → i = j
  called : ∀ i tenant xid, (s.sessions i).xid? = some xid → (tenant, xid) ∈ s.issued →
    tenant ∈ calledInTransaction i past

/-- The invariant holds before any statement. -/
theorem inv_initial : Inv hmac secret [] (State.initial : State ι) where
  known _ := ⟨nofun, nofun, nofun⟩
  used _ _ := nofun
  issued _ _ := nofun
  own _ _ _ := nofun
  called _ _ _ := nofun

/-- A call in one session is none in the transactions of the others. -/
theorem calledInTransaction_of_ne {i j : ι} (h : j ≠ i) (stmt : Statement)
    (past : List (ι × Statement)) :
    calledInTransaction j ((i, stmt) :: past) = calledInTransaction j past := by
  cases stmt <;> simp [calledInTransaction, h.symm]

variable {past : List (ι × Statement)} {s s' : State ι} {i : ι}

/-- A session may do anything by which all attestations around have been issued, with its own
identifier for its own calls. -/
theorem Inv.update (h : Inv hmac secret past s) {session : Session} {stmt : Statement}
    {used : List Xid} {issued : List (Uuid × Xid)} (hused : ∀ xid ∈ s.used, xid ∈ used)
    (hissued : ∀ signed ∈ s.issued, signed ∈ issued)
    (hall : session.All (Known hmac secret issued))
    (hown : ∀ xid, session.xid? = some xid → xid ∈ used ∧
      (∀ j, (s.sessions j).xid? = some xid → j = i) ∧
      ∀ tenant, (tenant, xid) ∈ issued → tenant ∈ calledInTransaction i ((i, stmt) :: past))
    (hnew : ∀ tenant xid, (tenant, xid) ∈ issued →
      (tenant, xid) ∈ s.issued ∨ session.xid? = some xid) :
    Inv hmac secret ((i, stmt) :: past)
      { s.withSession i session with used := used, issued := issued } := by
  -- for each part: the session that acted has what is given, another has what it had
  refine ⟨fun j => ?_, fun j xid hj => ?_, fun tenant xid hsigned => ?_, fun j k xid hj hk => ?_,
    fun j tenant xid hj hsigned => ?_⟩
  · by_cases hji : j = i
    · subst hji
      rw [State.withSession_self]
      exact hall
    · rw [State.withSession_of_ne _ _ hji]
      exact (h.known j).mono fun text hknown tenant xid htext => hissued _ (hknown tenant xid htext)
  · by_cases hji : j = i
    · subst hji
      rw [State.withSession_self] at hj
      exact (hown xid hj).1
    · rw [State.withSession_of_ne _ _ hji] at hj
      exact hused xid (h.used j xid hj)
  · rcases hnew tenant xid hsigned with hold | hxid
    · exact hused xid (h.issued tenant xid hold)
    · exact (hown xid hxid).1
  · by_cases hji : j = i
    · subst hji
      rw [State.withSession_self] at hj
      by_cases hkj : k = j
      · exact hkj.symm
      · rw [State.withSession_of_ne _ _ hkj] at hk
        exact ((hown xid hj).2.1 k hk).symm
    · rw [State.withSession_of_ne _ _ hji] at hj
      by_cases hki : k = i
      · subst hki
        rw [State.withSession_self] at hk
        exact (hown xid hk).2.1 j hj
      · rw [State.withSession_of_ne _ _ hki] at hk
        exact h.own j k xid hj hk
  · by_cases hji : j = i
    · subst hji
      rw [State.withSession_self] at hj
      exact (hown xid hj).2.2 tenant hsigned
    · rw [State.withSession_of_ne _ _ hji] at hj
      rw [calledInTransaction_of_ne hji]
      rcases hnew tenant xid hsigned with hold | hxid
      · exact h.called j tenant xid hj hold
      · exact absurd ((hown xid hxid).2.1 j hj) hji

/-- A session may do anything that brings in no attestation that was not issued, and that keeps or
drops the identifier of its transaction. -/
theorem Inv.withSession (h : Inv hmac secret past s) {session : Session} {stmt : Statement}
    (hall : session.All (Known hmac secret s.issued))
    (hxid : session.xid? = none ∨ session.xid? = (s.sessions i).xid? ∧
      calledInTransaction i ((i, stmt) :: past) = calledInTransaction i past) :
    Inv hmac secret ((i, stmt) :: past) (s.withSession i session) := by
  refine h.update (fun _ hxid => hxid) (fun _ hsigned => hsigned) hall (fun xid hsession => ?_)
    fun _ _ hsigned => .inl hsigned
  rcases hxid with hnone | ⟨hsame, hcalled⟩
  · rw [hnone] at hsession
    cases hsession
  · rw [hsame] at hsession
    refine ⟨h.used i xid hsession, fun j hj => h.own j i xid hj hsession, fun tenant hsigned => ?_⟩
    rw [hcalled]
    exact h.called i tenant xid hsession hsigned

/-- What a session has, by its parts. -/
theorem Inv.all (h : Inv hmac secret past s) {settings : Settings} {tx : Option Tx}
    (hi : s.sessions i = ⟨settings, tx⟩) : Session.All (Known hmac secret s.issued)
      ⟨settings, tx⟩ :=
  hi ▸ h.known i

/-- The identifier a transaction has, or is given, is that of no other one. -/
theorem Inv.own_of_assigns (h : Inv hmac secret past s) {settings : Settings} {tx : Tx} {xid : Xid}
    (hi : s.sessions i = ⟨settings, some tx⟩) (hassigns : Assigns s.used tx xid) (j : ι)
    (hj : (s.sessions j).xid? = some xid) : j = i := by
  rcases hassigns with hold | ⟨-, hnew⟩
  · exact h.own j i xid hj (by rw [hi]; exact hold)
  · exact absurd (h.used j xid hj) hnew

/-- The attestations of a transaction that has, or is given, an identifier were issued to its own
calls. -/
theorem Inv.called_of_assigns (h : Inv hmac secret past s) {settings : Settings} {tx : Tx}
    {xid : Xid} (hi : s.sessions i = ⟨settings, some tx⟩) (hassigns : Assigns s.used tx xid)
    {tenant : Uuid} (hsigned : (tenant, xid) ∈ s.issued) : tenant ∈ calledInTransaction i past := by
  rcases hassigns with hold | ⟨-, hnew⟩
  · exact h.called i tenant xid (by rw [hi]; exact hold) hsigned
  · exact absurd (h.issued tenant xid hsigned) hnew

/-- No two messages have the same attestation. -/
def CollisionFree (hmac : Text → Text → Text) (secret : Text) : Prop :=
  ∀ tenant tenant' xid xid', hmac secret (message tenant xid) = hmac secret (message tenant' xid') →
    message tenant xid = message tenant' xid'

/-- An attestation of what has been signed is known. -/
theorem known_attestation (hcollision : CollisionFree hmac secret) {issued : List (Uuid × Xid)}
    {tenant : Uuid} {xid : Xid} (hsigned : (tenant, xid) ∈ issued) :
    Known hmac secret issued (hmac secret (message tenant xid)) := by
  intro tenant' xid' htext
  obtain ⟨rfl, rfl⟩ := message_injective (hcollision _ _ _ _ htext)
  exact hsigned

/-- A value that can be written is known, as the keyed hash has no collisions. -/
theorem known_of_writable (hcollision : CollisionFree hmac secret) {issued : List (Uuid × Xid)}
    {value : Text} (h : Writable hmac secret issued value) : Known hmac secret issued value := by
  rcases h with ⟨signed, hsigned, rfl⟩ | hnone
  · exact known_attestation hcollision hsigned
  · exact fun tenant xid htext => absurd htext (hnone tenant xid)

/-- The savepoints from a name on are savepoints of the transaction. -/
theorem Tx.mem_of_from {tx : Tx} {name : Text} {saved : Text × Settings}
    {earlier : List (Text × Settings)} (h : tx.from name = saved :: earlier) :
    ∀ savepoint ∈ saved :: earlier, savepoint ∈ tx.savepoints := by
  rw [← h]
  exact fun savepoint hmem => List.dropWhile_suffix _ |>.subset hmem

/-- Every statement keeps the invariant. -/
theorem Inv.step (h : Inv hmac secret past s) (hcollision : CollisionFree hmac secret)
    {ev : ι × Statement} (hstep : Step hmac secret s ev s') :
    Inv hmac secret (ev :: past) s' := by
  cases hstep with
  | begin hi =>
    -- what a session can read is settings that were there before: a start copies the current ones
    refine h.withSession ⟨(h.all hi).settings, ?_, ?_⟩ (.inl rfl)
    · rintro _ ⟨⟩
      exact (h.all hi).settings
    · rintro _ ⟨⟩ savepoint hmem
      cases hmem
  | commit hi => exact h.withSession ⟨(h.all hi).settings.commit, nofun, nofun⟩ (.inl rfl)
  | rollback hi => exact h.withSession ⟨(h.all hi).before _ rfl, nofun, nofun⟩ (.inl rfl)
  | @savepoint i settings tx name hi =>
    refine h.withSession ⟨(h.all hi).settings, ?_, ?_⟩ (.inr ⟨by rw [hi]; rfl, rfl⟩)
    · rintro _ ⟨⟩
      exact (h.all hi).before tx rfl
    · rintro _ ⟨⟩ savepoint hmem
      rcases List.mem_cons.mp hmem with rfl | hearlier
      · exact (h.all hi).settings
      · exact (h.all hi).savepoints tx rfl savepoint hearlier
  | @rollbackTo i settings tx name saved earlier hi hfrom =>
    -- the settings come back from a savepoint, whose attestations were known when it was made
    have hsavepoints (savepoint : Text × Settings) (hmem : savepoint ∈ saved :: earlier) :
        savepoint.2.All (Known hmac secret s.issued) :=
      (h.all hi).savepoints tx rfl savepoint (Tx.mem_of_from hfrom savepoint hmem)
    refine h.withSession ⟨hsavepoints saved List.mem_cons_self, ?_, ?_⟩
      (.inr ⟨by rw [hi]; rfl, rfl⟩)
    · rintro _ ⟨⟩
      exact (h.all hi).before tx rfl
    · rintro _ ⟨⟩
      exact hsavepoints
  | @release i settings tx name saved earlier hi hfrom =>
    refine h.withSession ⟨(h.all hi).settings, ?_, ?_⟩ (.inr ⟨by rw [hi]; rfl, rfl⟩)
    · rintro _ ⟨⟩
      exact (h.all hi).before tx rfl
    · rintro _ ⟨⟩ savepoint hmem
      exact (h.all hi).savepoints tx rfl savepoint
        (Tx.mem_of_from hfrom savepoint (List.mem_cons_of_mem _ hmem))
  | set isLocal name hi hwritable =>
    -- a value that is written is an attestation that was issued, or none at all
    refine h.withSession ⟨(h.all hi).settings.set fun _ => known_of_writable hcollision hwritable,
      ?_, ?_⟩ (.inr ⟨by rw [hi]; rfl, rfl⟩)
    · rintro _ ⟨⟩
      exact (h.all hi).before _ rfl
    · rintro _ ⟨⟩
      exact (h.all hi).savepoints _ rfl
  | @assignXid i settings tx xid hi hassigns =>
    refine h.update (fun _ => List.mem_cons_of_mem _) (fun _ hsigned => hsigned)
      ⟨(h.all hi).settings, ?_, ?_⟩ ?_ fun _ _ hsigned => .inl hsigned
    · rintro _ ⟨⟩
      exact (h.all hi).before tx rfl
    · rintro _ ⟨⟩
      exact (h.all hi).savepoints tx rfl
    · rintro _ ⟨⟩
      exact ⟨List.mem_cons_self, h.own_of_assigns hi hassigns,
        fun tenant hsigned => h.called_of_assigns hi hassigns hsigned⟩
  | @beginTenantContext i settings tx tenant xid hi hassigns =>
    -- the only step that issues: the new pair joins those that are known,
    -- under the identifier of this
    -- transaction
    have hmono (text : Text) (hknown : Known hmac secret s.issued text) :
        Known hmac secret ((tenant, xid) :: s.issued) text :=
      fun tenant' xid' htext => List.mem_cons_of_mem _ (hknown tenant' xid' htext)
    have hsettings : (settings.beginTenantContext hmac secret tenant xid).All
        (Known hmac secret ((tenant, xid) :: s.issued)) := by
      unfold Settings.beginTenantContext
      refine Settings.All.set (Settings.All.set ((h.all hi).settings.mono hmono) ?_) fun _ => ?_
      · nofun
      · exact known_attestation hcollision List.mem_cons_self
    refine h.update (fun _ => List.mem_cons_of_mem _) (fun _ => List.mem_cons_of_mem _)
      ⟨hsettings, ?_, ?_⟩ ?_ ?_
    · rintro _ ⟨⟩
      exact ((h.all hi).before tx rfl).mono hmono
    · rintro _ ⟨⟩ savepoint hmem
      exact ((h.all hi).savepoints tx rfl savepoint hmem).mono hmono
    · rintro _ ⟨⟩
      refine ⟨List.mem_cons_self, h.own_of_assigns hi hassigns, fun tenant' hsigned => ?_⟩
      rw [calledInTransaction, if_pos rfl]
      rcases List.mem_cons.mp hsigned with hnew | hold
      · rw [(Prod.mk.inj hnew).1]
        exact List.mem_cons_self
      · exact List.mem_cons_of_mem _ (h.called_of_assigns hi hassigns hold)
    · intro tenant' xid' hsigned
      rcases List.mem_cons.mp hsigned with hnew | hold
      · rw [(Prod.mk.inj hnew).2]
        exact .inr rfl
      · exact .inl hold

/-- The invariant holds after every run. -/
theorem Run.inv (h : Run hmac secret past s) (hcollision : CollisionFree hmac secret) :
    Inv hmac secret past s := by
  induction h with
  | start => exact inv_initial
  | step _ hstep ih => exact ih.step hcollision hstep

/-! ## The tenant -/

/-- The tenant of a role that is not the owner, by its attestation. -/
theorem attested_of_currentTenant {sessionUser objectOwner : Text} {session : Session}
    {tenant : Uuid} (hrole : sessionUser ≠ objectOwner)
    (h : mfkCurrentTenant hmac (some secret) sessionUser objectOwner session = some tenant) :
    ∃ xid, session.xid? = some xid ∧
      hmac secret (message tenant xid) ∈ session.settings.tenantAttestation.texts := by
  unfold mfkCurrentTenant at h
  split at h
  · cases h
  split_ifs at h
  split at h
  · cases h
  split at h
  · cases h
  -- past the guards an attestation is set, and it is that of the transaction
  next attestation hattestation =>
    split_ifs at h
    split at h
    · cases h
    next xid hxid =>
      simp only [mfkAttestation, Option.map_some] at h
      split_ifs at h with hattested
      obtain rfl := Option.some.inj h
      rw [ne_eq, Decidable.not_not] at hattested
      exact ⟨xid, hxid, hattested ▸ Setting.mem_texts_of_current hattestation⟩

/-- A session holds the attestation of a tenant for its transaction only when it has asked for
it. -/
theorem Run.called_of_attested (h : Run hmac secret past s) (hcollision : CollisionFree hmac secret)
    {i : ι} {tenant : Uuid} {xid : Xid} (hxid : (s.sessions i).xid? = some xid)
    (hattested : hmac secret (message tenant xid) ∈
      (s.sessions i).settings.tenantAttestation.texts) : tenant ∈ calledInTransaction i past := by
  have hinv := h.inv hcollision
  exact hinv.called i tenant xid hxid ((hinv.known i).settings _ hattested tenant xid rfl)

/-- Whoever is not the owner of the objects, whatever it sets and whatever it takes back, is taken
for a tenant only after it has asked for that tenant by `mfk_begin_tenant_context` in the same
transaction. -/
theorem called_of_currentTenant (hcollision : CollisionFree hmac secret)
    {sessionUser objectOwner : Text} (hrole : sessionUser ≠ objectOwner)
    (h : Run hmac secret past s) (i : ι) (tenant : Uuid)
    (htenant : mfkCurrentTenant hmac (some secret) sessionUser objectOwner (s.sessions i) =
      some tenant) : tenant ∈ calledInTransaction i past := by
  obtain ⟨xid, hxid, hattested⟩ := attested_of_currentTenant hrole htenant
  exact h.called_of_attested hcollision hxid hattested

end Invariant

/-! ## A sample run -/

/-- A tenant, and a secret of 32 bytes. -/
def sampleTenant : Uuid := ⟨List.replicate 32 10, rfl⟩

def sampleSecret : Text := List.replicate 32 'k'

/-- `encode(hmac(…, 'sha256'), 'hex')` -/
def hmacHex (secret text : Text) : Text :=
  Sha256.hex (Sha256.hmac (secret.map Char.toNat) (text.map Char.toNat))

/-- The HMAC of the only message of the sample runs, and a code that tells the other ones apart. -/
def sampleHmac (secret text : Text) : Text :=
  if text = message sampleTenant 7 then hmacHex secret text else 'x' :: text

/-- A text that is neither hexadecimal nor begins as the other codes do is the HMAC of nothing. -/
theorem ne_sampleHmac {secret text value : Text} {c : Char} (hc : c ∈ value)
    (hhex : ¬Sha256.IsHexDigit c) (hcode : value.head? ≠ some 'x') :
    value ≠ sampleHmac secret text := by
  rintro rfl
  unfold sampleHmac at hc hcode
  split_ifs at hc hcode
  · exact hhex (Sha256.isHexDigit_of_mem_hex hc)
  · exact hcode rfl

/-- The sample's keyed hash has no collisions with its secret. -/
theorem collisionFree_sampleHmac (secret : Text) : CollisionFree sampleHmac secret := by
  have hcode (text : Text) : 'x' :: text ≠ hmacHex secret (message sampleTenant 7) := by
    intro h
    have hx : 'x' ∈ hmacHex secret (message sampleTenant 7) := h ▸ List.mem_cons_self
    exact absurd (Sha256.isHexDigit_of_mem_hex hx) (by unfold Sha256.IsHexDigit; decide)
  intro tenant tenant' xid xid' h
  unfold sampleHmac at h
  split_ifs at h with hfirst hsecond hsecond
  · rw [hfirst, hsecond]
  · exact absurd (hfirst ▸ h).symm (hcode _)
  · exact absurd (hsecond ▸ h) (hcode _)
  · exact (List.cons.inj h).2

/-- The text of the tenant is no attestation, so anyone can write it. -/
theorem writable_sampleTenant (issued : List (Uuid × Xid)) :
    Writable sampleHmac sampleSecret issued (uuidOut sampleTenant) :=
  .inr fun _ _ => ne_sampleHmac (c := '-') (by decide) (by unfold Sha256.IsHexDigit; decide)
    (by decide)

theorem called_of_currentTenant_sample :
    ∃ (past : List (Unit × Statement)) (s : State Unit), Run sampleHmac sampleSecret past s ∧
      mfkCurrentTenant sampleHmac (some sampleSecret) ['a', 'p', 'p'] ['o', 'w', 'n', 'e', 'r']
        (s.sessions ()) = some sampleTenant ∧
      sampleTenant ∈ calledInTransaction () past := by
  -- the context is rolled back and then set again with the attestation it had
  have h₁ : Run sampleHmac sampleSecret [((), .begin)] _ := .step .start (.begin rfl)
  have h₂ := h₁.step (.savepoint (i := ()) ['s'] rfl)
  have h₃ := h₂.step (.beginTenantContext (i := ()) sampleTenant rfl
    (show Assigns _ _ (7 : Xid) from .inr ⟨rfl, List.not_mem_nil⟩))
  have h₄ := h₃.step (show Step _ _ _ ((), .rollbackTo ['s']) _ from .rollbackTo rfl rfl)
  have h₅ := h₄.step (.set (i := ()) false .tenantId rfl (writable_sampleTenant _))
  have h₆ := h₅.step (.set (i := ()) false .tenantAttestation rfl
    (.inl ⟨(sampleTenant, 7), List.mem_cons_self, rfl⟩))
  have hrole : (['a', 'p', 'p'] : Text) ≠ ['o', 'w', 'n', 'e', 'r'] := by decide
  refine ⟨_, _, h₆, ?_, called_of_currentTenant (collisionFree_sampleHmac _) hrole h₆ ()
    sampleTenant ?_⟩
  · decide +kernel
  · decide +kernel

end MetaframerKernel.TenantContext
