import MetaframerKernel.Domain.Identity

/-!
# The canonical JSON value

The canonicaliser that `action-primitives.mjs`, `policy-decision.mjs` and `policy-statement.mjs`
each carry a copy of. The copies differ in the message of one refusal, which is a parameter here.
A canonical value is a frozen null-prototype structure; it is represented by the JSON value with
the same contents, members in the order they were created.

## Main definitions

* `canonicalValue`: validate, clone, sort and freeze one value;
* `isHardened`: the values it returns;
* `CanonicalObject`: a hardened value whose root is an object.

## Main results

* `isHardened_of_canonicalValue`: whatever the canonicaliser admits, it returns hardened.
-/

namespace MetaframerKernel

open Js

/-- `REFUSED_KEYS` -/
def refusedKeys : List JsString := [lit "__proto__", lit "constructor", lit "prototype"]

/-- `MAX_DEPTH` -/
def maxDepth : ℕ := 16

section Canonicalise

variable (nonFinite what : JsString)

/-- A `TypeError` that names what was being read. -/
def refusal (text : String) : NativeError := .typeError (what ++ lit text)

/-- The depth check every container is met with. -/
def checkDepth (depth : ℕ) : Except NativeError Unit :=
  throwIf (maxDepth < depth) (.rangeError (what ++ lit " nests at most 16 containers deep"))

/-- The descriptor checks of the elements of an array, in index order. -/
def checkElements : List (Option Descriptor × JsValue) → Except NativeError Unit
  | [] => .ok ()
  | (none, _) :: _ => .error (refusal what " admits no hole in an array")
  | (some d, _) :: elems =>
      if d.isEnumerableData then checkElements elems
      else .error (refusal what " admits only enumerable data elements in an array")

/-- The key and descriptor checks of the members of an object, in key order. -/
def checkMembers : List ((PropertyKey × Descriptor) × JsValue) → Except NativeError Unit
  | [] => .ok ()
  | ((.symbol, _), _) :: _ => .error (refusal what " admits no symbol-keyed member")
  | ((.string k, d), _) :: props =>
      if k ∈ refusedKeys then
        .error (.typeError (what ++ lit " refuses the key " ++ k ++ lit " at any depth"))
      else if d.accessor then .error (refusal what " admits no accessor property")
      else if !d.enumerable then .error (refusal what " admits no non-enumerable own property")
      else checkMembers props

/-- The results of the members, in the order they are asked for; the first failure is the one
that is thrown. -/
def collect : List (JsString × Except NativeError Json) →
    Except NativeError (List (JsString × Json))
  | [] => .ok []
  | (k, r) :: rest => do
      let v ← r
      let rest ← collect rest
      return (k, v) :: rest

mutual

/-- `canonicalValue`: one value at the given depth, the root container being at depth one. -/
def canonicalValue : JsValue → ℕ → Except NativeError Json
  | .null, _ => .ok .null
  | .boolean b, _ => .ok (.bool b)
  | .string s, _ => .ok (.str s)
  | .number n, _ =>
      if n.isFinite then .ok (.num n.unsignZero)
      else .error (.rangeError (what ++ lit " admits only finite numbers" ++ nonFinite))
  | .undefined, _ => .error (refusal what " admits no undefined")
  | .bigint, _ => .error (refusal what " admits no bigint")
  | .symbol, _ => .error (refusal what " admits no symbol")
  | .function, _ => .error (refusal what " admits no function")
  | .again, depth => do
      checkDepth what depth
      .error (refusal what " admits no cycle and no value repeated by reference")
  | .array proto elems extra, depth => do
      checkDepth what depth
      throwIf (proto ≠ .arrayPrototype) (refusal what " admits only ordinary arrays")
      checkElements what elems
      throwIf (extra ≠ 0) (refusal what " admits no property on an array beside its elements")
      let elems ← canonicalElements elems (depth + 1)
      return .arr elems
  | .object proto props, depth => do
      checkDepth what depth
      throwIf (proto ≠ .objectPrototype) (refusal what " admits only ordinary object literals")
      checkMembers what props
      let members ← collect (sortMembers (canonicalMembers props (depth + 1)))
      -- `value[key]` is the first property of the key, and an object has only one
      return .obj (firstMembers members)

/-- The elements of an array, in index order. -/
def canonicalElements : List (Option Descriptor × JsValue) → ℕ → Except NativeError (List Json)
  | [], _ => .ok []
  | (_, v) :: elems, depth => do
      let v ← canonicalValue v depth
      let elems ← canonicalElements elems depth
      return v :: elems

/-- What becomes of each member of an object, under its key. -/
def canonicalMembers : List ((PropertyKey × Descriptor) × JsValue) → ℕ →
    List (JsString × Except NativeError Json)
  | [], _ => []
  | ((.symbol, _), _) :: props, depth => canonicalMembers props depth
  | ((.string k, _), v) :: props, depth =>
      (k, canonicalValue v depth) :: canonicalMembers props depth

end

end Canonicalise

/-! ## Hardened values -/

mutual

/-- A value the canonicaliser can return at the given depth: finite numbers without a signed
zero, the members of every object in strictly ascending key order under keys that are not
refused, and containers nested no deeper than the limit. -/
def isHardened : Json → ℕ → Bool
  | .null, _ => true
  | .bool _, _ => true
  | .str _, _ => true
  | .num n, _ => n.isFinite && n.unsignZero == n
  | .arr l, depth => decide (depth ≤ maxDepth) && isHardenedElems l (depth + 1)
  | .obj m, depth =>
      decide (depth ≤ maxDepth) && decide ((m.map Prod.fst).Pairwise (· < ·)) &&
        m.all (fun p => decide (p.1 ∉ refusedKeys)) && isHardenedMembers m (depth + 1)

/-- `isHardened` of every element. -/
def isHardenedElems : List Json → ℕ → Bool
  | [], _ => true
  | v :: l, depth => isHardened v depth && isHardenedElems l depth

/-- `isHardened` of every member. -/
def isHardenedMembers : List (JsString × Json) → ℕ → Bool
  | [], _ => true
  | (_, v) :: m, depth => isHardened v depth && isHardenedMembers m depth

end

/-- An array is canonical when it is not too deep and its elements are canonical. -/
@[simp]
theorem isHardened_arr (l : List Json) (depth : ℕ) :
    isHardened (.arr l) depth = true ↔
      depth ≤ maxDepth ∧ ∀ v ∈ l, isHardened v (depth + 1) = true := by
  rw [isHardened, Bool.and_eq_true, decide_eq_true_iff]
  refine and_congr_right fun _ => ?_
  induction l with
  | nil => simp [isHardenedElems]
  | cons v l ih => simp [isHardenedElems, ih]

/-- Members are canonical when their values are. -/
theorem isHardenedMembers_iff (m : List (JsString × Json)) (depth : ℕ) :
    isHardenedMembers m depth = true ↔ ∀ p ∈ m, isHardened p.2 depth = true := by
  induction m with
  | nil => simp [isHardenedMembers]
  | cons p m ih => simp [isHardenedMembers, ih]

/-- An object is canonical when it is not too deep, its keys are ascending and admitted, and its
values are canonical. -/
@[simp]
theorem isHardened_obj (m : List (JsString × Json)) (depth : ℕ) :
    isHardened (.obj m) depth = true ↔
      depth ≤ maxDepth ∧ (m.map Prod.fst).Pairwise (· < ·) ∧ (∀ p ∈ m, p.1 ∉ refusedKeys) ∧
        ∀ p ∈ m, isHardened p.2 (depth + 1) = true := by
  simp [isHardened, isHardenedMembers_iff, and_assoc]

/-! ## What the canonicaliser returns -/

section

variable {nonFinite what : JsString}

/-- A depth that passes is within the limit. -/
theorem checkDepth_eq_ok {depth : ℕ} {u : Unit} (h : checkDepth what depth = .ok u) :
    depth ≤ maxDepth := by
  exact Nat.le_of_not_lt (throwIf_eq_ok.mp h)

/-- The keys of checked members are strings that are not refused. -/
theorem checkMembers_eq_ok {props : List ((PropertyKey × Descriptor) × JsValue)} {u : Unit}
    (h : checkMembers what props = .ok u) :
    ∀ p ∈ props, ∃ k, p.1 = (.string k, .data) ∧ k ∉ refusedKeys := by
  induction props with
  | nil => simp
  | cons p props ih =>
    obtain ⟨⟨key, accessor, enumerable⟩, v⟩ := p
    cases key with
    | symbol => cases h
    | string k =>
      simp only [checkMembers] at h
      split_ifs at h with hrefused haccessor henumerable
      · refine List.forall_mem_cons.mpr ⟨⟨k, ?_, hrefused⟩, ih h⟩
        simp only [Bool.not_eq_true, Bool.not_eq_eq_eq_not] at haccessor henumerable
        simp_all [Descriptor.data]

/-- The members of an object come out in the order they are asked for. -/
theorem collect_eq_ok {results : List (JsString × Except NativeError Json)}
    {m : List (JsString × Json)} (h : collect results = .ok m) :
    results = m.map fun p => (p.1, .ok p.2) := by
  induction results generalizing m with
  | nil =>
    obtain rfl := Except.ok.inj h
    rfl
  | cons r results ih =>
    simp only [collect, bind_eq_ok] at h
    obtain ⟨v, hv, rest, hrest, hm⟩ := h
    obtain rfl := Except.ok.inj hm
    rw [ih hrest, List.map_cons, ← hv]

/-- Every element returned is the canonicalisation of an element. -/
theorem canonicalElements_eq_ok {elems : List (Option Descriptor × JsValue)} {depth : ℕ}
    {l : List Json} (h : canonicalElements nonFinite what elems depth = .ok l) :
    ∀ v ∈ l, ∃ e ∈ elems, canonicalValue nonFinite what e.2 depth = .ok v := by
  induction elems generalizing l with
  | nil =>
    obtain rfl := Except.ok.inj h
    simp
  | cons e elems ih =>
    simp only [canonicalElements, bind_eq_ok] at h
    obtain ⟨v, hv, rest, hrest, hl⟩ := h
    obtain rfl := Except.ok.inj hl
    refine List.forall_mem_cons.mpr ⟨⟨e, List.mem_cons_self, hv⟩, fun w hw => ?_⟩
    obtain ⟨e', he', hw'⟩ := ih hrest w hw
    exact ⟨e', List.mem_cons_of_mem e he', hw'⟩

/-- Each result of a member is the canonicalisation of a property of that name. -/
theorem mem_canonicalMembers {props : List ((PropertyKey × Descriptor) × JsValue)} {depth : ℕ}
    {p : JsString × Except NativeError Json}
    (h : p ∈ canonicalMembers nonFinite what props depth) :
    ∃ q ∈ props, q.1.1 = .string p.1 ∧ p.2 = canonicalValue nonFinite what q.2 depth := by
  induction props with
  | nil => simp [canonicalMembers] at h
  | cons q props ih =>
    obtain ⟨⟨key, d⟩, v⟩ := q
    have lift (hp : p ∈ canonicalMembers nonFinite what props depth) :
        ∃ q ∈ ((key, d), v) :: props, q.1.1 = .string p.1 ∧
          p.2 = canonicalValue nonFinite what q.2 depth := by
      obtain ⟨q, hq, hkey⟩ := ih hp
      exact ⟨q, List.mem_cons_of_mem _ hq, hkey⟩
    cases key with
    | symbol => exact lift h
    | string k =>
      rcases List.mem_cons.mp h with rfl | hp
      · exact ⟨_, List.mem_cons_self, rfl, rfl⟩
      · exact lift hp

/-- Whatever the canonicaliser admits, it returns hardened. -/
theorem isHardened_of_canonicalValue {v : JsValue} {depth : ℕ} {r : Json}
    (h : canonicalValue nonFinite what v depth = .ok r) : isHardened r depth = true := by
  induction v using JsValue.ind generalizing depth r with
  | undefined => cases h
  | bigint => cases h
  | symbol => cases h
  | function => cases h
  | null =>
    obtain rfl := Except.ok.inj h
    rfl
  | boolean b =>
    obtain rfl := Except.ok.inj h
    rfl
  | string s =>
    obtain rfl := Except.ok.inj h
    rfl
  | number n =>
    rw [canonicalValue] at h
    split_ifs at h with hfinite
    obtain rfl := Except.ok.inj h
    simp [isHardened, hfinite]
  | again =>
    rw [canonicalValue, bind_eq_ok] at h
    obtain ⟨-, -, hthrow⟩ := h
    cases hthrow
  | array proto elems extra ih =>
    simp only [canonicalValue, bind_eq_ok] at h
    obtain ⟨_, hdepth, _, -, _, -, _, -, l, hl, hr⟩ := h
    obtain rfl := Except.ok.inj hr
    refine (isHardened_arr l depth).mpr ⟨checkDepth_eq_ok hdepth, fun v hv => ?_⟩
    obtain ⟨e, he, hev⟩ := canonicalElements_eq_ok hl v hv
    exact ih e he hev
  | object proto props ih =>
    simp only [canonicalValue, bind_eq_ok] at h
    obtain ⟨_, hdepth, _, -, _, hchecked, m, hm, hr⟩ := h
    obtain rfl := Except.ok.inj hr
    have hresults := collect_eq_ok hm
    have hsorted : m.Pairwise fun p q => p.1 ≤ q.1 := by
      have hle := pairwise_le_sortMembers (canonicalMembers nonFinite what props (depth + 1))
      rw [hresults, List.pairwise_map] at hle
      exact hle
    -- each member of the result comes from a property of the object, which was checked
    have horigin (p : JsString × Json) (hp : p ∈ firstMembers m) :
        ∃ q ∈ props, q.1.1 = .string p.1 ∧
          canonicalValue nonFinite what q.2 (depth + 1) = .ok p.2 := by
      have hmem : (p.1, Except.ok p.2) ∈ canonicalMembers nonFinite what props (depth + 1) := by
        refine (sortMembers_perm _).subset ?_
        rw [hresults]
        exact List.mem_map_of_mem ((firstMembers_sublist m).subset hp)
      obtain ⟨q, hq, hkey, hval⟩ := mem_canonicalMembers hmem
      exact ⟨q, hq, hkey, hval.symm⟩
    refine (isHardened_obj _ depth).mpr
      ⟨checkDepth_eq_ok hdepth, pairwise_lt_firstMembers hsorted, fun p hp => ?_, fun p hp => ?_⟩
    · obtain ⟨q, hq, hkey, -⟩ := horigin p hp
      obtain ⟨k, hk, hrefused⟩ := checkMembers_eq_ok hchecked q hq
      rw [hk] at hkey
      exact PropertyKey.string.inj hkey ▸ hrefused
    · obtain ⟨q, hq, -, hval⟩ := horigin p hp
      exact ih q hq hval

end

/-- A canonical value whose root is an object, as a constructor keeps it. -/
structure CanonicalObject where
  members : List (JsString × Json)
  hardened : isHardened (.obj members) 1 = true

/-- The JSON value the frozen object holds. -/
def CanonicalObject.toJson (o : CanonicalObject) : Json := .obj o.members

/-- Canonical objects are told apart by their values. -/
theorem CanonicalObject.toJson_inj {o o' : CanonicalObject} (h : o.toJson = o'.toJson) :
    o = o' := by
  cases o
  cases o'
  obtain rfl := Json.obj.inj h
  rfl

/-- An object is canonicalised to an object. -/
theorem canonicalValue_object {nonFinite what : JsString} {proto : Proto}
    {props : List ((PropertyKey × Descriptor) × JsValue)} {depth : ℕ} {r : Json}
    (h : canonicalValue nonFinite what (.object proto props) depth = .ok r) :
    r = .obj r.members := by
  simp only [canonicalValue, bind_eq_ok] at h
  obtain ⟨_, -, _, -, _, -, m, -, hr⟩ := h
  obtain rfl := Except.ok.inj hr
  rfl

/-- `canonicalObject` and `canonicalRoot`: a canonical value whose root must be an object. -/
def canonicalRoot (nonFinite what : JsString) (value : JsValue) :
    Except NativeError CanonicalObject :=
  match value with
  | .object proto props =>
      match h : canonicalValue nonFinite what (.object proto props) 1 with
      | .ok r => .ok ⟨r.members, canonicalValue_object h ▸ isHardened_of_canonicalValue h⟩
      | .error e => .error e
  | _ => .error (refusal what " must be an ordinary object")

end MetaframerKernel
