import MetaframerKernel.Codec.Base64
import MetaframerKernel.Js.Utf8
import MetaframerKernel.Js.Values

/-!
# The scope envelope

The scope of a request on its way from the Python bridge to the JavaScript runner: bytes are tagged
as a dict of one key, the scope is printed and parsed as JSON, and the runner takes the tags off
again while it rebuilds every object by assignment.

## Main definitions

* `PyValue`: the values a scope is built of;
* `jsonSafeValue`, `unwrapJsonSafe`: the two ends;
* `expected`: the scope the runner should see;
* `Transparent`: the values that the tag and the assignment leave alone.

## Main results

* `unwrapJsonSafe_scope_iff`: the runner sees the scope it should exactly when it is transparent.
-/

namespace MetaframerKernel.ScopeEnvelope

open Js

/-! ## Python values -/

/-- A string: any code points, surrogates among them. -/
abbrev PyString := List (Fin 0x110000)

/-- The code units of a code point. -/
def unitsOfPoint (p : Fin 0x110000) : JsString :=
  if p.val < 0x10000 then [Fin.ofNat 65536 p.val]
  else
    [Fin.ofNat 65536 (0xD800 + (p.val - 0x10000) / 0x400),
      Fin.ofNat 65536 (0xDC00 + (p.val - 0x10000) % 0x400)]

/-- The code units of a string. -/
def units (s : PyString) : JsString := s.flatMap unitsOfPoint

/-- The code points of a text. -/
def points (cs : List Char) : PyString := cs.map fun c => Fin.ofNat 0x110000 c.toNat

/-- A value of a scope; its integers are exact as JavaScript numbers. -/
inductive PyValue where
  | none
  | bool (b : Bool)
  | int (z : {z : ℤ // z.natAbs ≤ 2 ^ 53})
  | str (s : PyString)
  | bytes (bytes : List UInt8)
  | list (values : List PyValue)
  | tuple (values : List PyValue)
  | dict (entries : List (PyString × PyValue))

/-- A value that `json.dumps` prints. -/
inductive PyJson where
  | none
  | bool (b : Bool)
  | int (z : {z : ℤ // z.natAbs ≤ 2 ^ 53})
  | str (s : PyString)
  | list (values : List PyJson)
  | dict (entries : List (PyString × PyJson))

/-- Induction over a value: what a container holds comes with the hypothesis. -/
@[elab_as_elim]
theorem PyValue.ind {P : PyValue → Prop} (none : P .none) (bool : ∀ b, P (.bool b))
    (int : ∀ z, P (.int z)) (str : ∀ s, P (.str s)) (bytes : ∀ b, P (.bytes b))
    (list : ∀ values, (∀ v ∈ values, P v) → P (.list values))
    (tuple : ∀ values, (∀ v ∈ values, P v) → P (.tuple values))
    (dict : ∀ entries, (∀ p ∈ entries, P p.2) → P (.dict entries)) (v : PyValue) : P v :=
  @PyValue.rec P (fun l => ∀ v ∈ l, P v) (fun l => ∀ p ∈ l, P p.2) (fun p => P p.2)
    none bool int str bytes list tuple dict
    (by simp) (fun _ _ hv hl => List.forall_mem_cons.mpr ⟨hv, hl⟩)
    (by simp) (fun _ _ hp hl => List.forall_mem_cons.mpr ⟨hp, hl⟩)
    (fun _ _ hv => hv) v

/-! ## The bridge -/

/-- The key of the tag, `"__bytesBase64__"`. -/
def bytesTag : List Char := "__bytesBase64__".toList

mutual

/-- `_json_safe_value` -/
def jsonSafeValue : PyValue → PyJson
  | .none => .none
  | .bool b => .bool b
  | .int z => .int z
  | .str s => .str s
  | .bytes b => .dict [(points bytesTag, .str (points (Base64.encode b)))]
  | .list values => .list (jsonSafeValues values)
  | .tuple values => .list (jsonSafeValues values)
  | .dict entries => .dict (jsonSafeEntries entries)

def jsonSafeValues : List PyValue → List PyJson
  | [] => []
  | v :: values => jsonSafeValue v :: jsonSafeValues values

def jsonSafeEntries : List (PyString × PyValue) → List (PyString × PyJson)
  | [] => []
  | (k, v) :: entries => (k, jsonSafeValue v) :: jsonSafeEntries entries

end

/-- `_json_safe_scope` -/
def jsonSafeScope (scope : List (PyString × PyValue)) : PyJson := .dict (jsonSafeEntries scope)

mutual

/-- What `JSON.parse` makes of the text that `json.dumps` prints. -/
def parsed : PyJson → Json
  | .none => .null
  | .bool b => .bool b
  | .int z => .num (.ofInt z)
  | .str s => .str (units s)
  | .list values => .arr (parsedValues values)
  | .dict entries => .obj (ownOrder (collectMembers (parsedEntries entries)))

def parsedValues : List PyJson → List Json
  | [] => []
  | v :: values => parsed v :: parsedValues values

def parsedEntries : List (PyString × PyJson) → List (JsString × Json)
  | [] => []
  | (k, v) :: entries => (units k, parsed v) :: parsedEntries entries

end

/-! ## The runner -/

/-- The property that an assignment makes. -/
def property (p : JsString × JsValue) : (PropertyKey × Descriptor) × JsValue :=
  ((.string p.1, .data), p.2)

/-- `unwrapped[key] = value`, for a key that is not there yet: under `__proto__` an object or `null`
becomes the prototype, and any other value is ignored. -/
def assign (unwrapped : JsValue) (p : JsString × JsValue) : JsValue :=
  match unwrapped with
  | .object proto props =>
      -- `out[key] = …` under `__proto__` sets the prototype where it can
      if p.1 = protoKey then
        match p.2 with
        | .null => .object .null props
        | .array .. => .object .other props
        | .object .. => .object .other props
        | _ => .object proto props
      else .object proto (props ++ [property p])
  | v => v

/-- `value.__bytesBase64__`, where it is a string and the only member. -/
def taggedText? : List (JsString × Json) → Option JsString
  | [(k, .str s)] => if k = ofText bytesTag then some s else none
  | _ => none

/-- `Buffer.from(text, "base64").toString("utf-8")` -/
def bufferText (text : JsString) : JsString := ofText (utf8Decode (Base64.decode (toScalars text)))

mutual

/-- `unwrapJsonSafe`, on a value that `JSON.parse` made. -/
def unwrapJsonSafe : Json → JsValue
  | .arr l => .array .arrayPrototype (unwrapElems l) 0
  | .obj m =>
      -- a tagged object is text, wherever it stands
      match taggedText? m with
      | some text => .string (bufferText text)
      | none => (unwrapMembers m).foldl assign (.object .objectPrototype [])
  | .null => .null
  | .bool b => .boolean b
  | .num n => .number n
  | .str s => .string s

def unwrapElems : List Json → List (Option Descriptor × JsValue)
  | [] => []
  | v :: l => (some .data, unwrapJsonSafe v) :: unwrapElems l

def unwrapMembers : List (JsString × Json) → List (JsString × JsValue)
  | [] => []
  | (k, v) :: m => (k, unwrapJsonSafe v) :: unwrapMembers m

end

/-! ## The scope the runner should see -/

mutual

/-- The value with every `bytes` decoded, every tuple a list, and all else unchanged. -/
def expected : PyValue → JsValue
  | .none => .null
  | .bool b => .boolean b
  | .int z => .number (.ofInt z)
  | .str s => .string (units s)
  | .bytes b => .string (ofText (utf8Decode b))
  | .list values => .array .arrayPrototype (expectedValues values) 0
  | .tuple values => .array .arrayPrototype (expectedValues values) 0
  | .dict entries => .object .objectPrototype ((ownOrder (expectedEntries entries)).map property)

def expectedValues : List PyValue → List (Option Descriptor × JsValue)
  | [] => []
  | v :: values => (some .data, expected v) :: expectedValues values

def expectedEntries : List (PyString × PyValue) → List (JsString × JsValue)
  | [] => []
  | (k, v) :: entries => (units k, expected v) :: expectedEntries entries

end

/-- Nothing in the value is taken for something else: no dict is a tag around a string, no key is
`__proto__`, and no two keys of a dict are spelled by the same code units. -/
inductive Transparent : PyValue → Prop
  | none : Transparent .none
  | bool (b : Bool) : Transparent (.bool b)
  | int (z : {z : ℤ // z.natAbs ≤ 2 ^ 53}) : Transparent (.int z)
  | str (s : PyString) : Transparent (.str s)
  | bytes (b : List UInt8) : Transparent (.bytes b)
  | list {values : List PyValue} : (∀ v ∈ values, Transparent v) → Transparent (.list values)
  | tuple {values : List PyValue} : (∀ v ∈ values, Transparent v) → Transparent (.tuple values)
  | dict {entries : List (PyString × PyValue)} : (∀ p ∈ entries, Transparent p.2) →
      (entries.map fun p => units p.1).Nodup → (∀ p ∈ entries, units p.1 ≠ protoKey) →
      (∀ k s, entries = [(k, .str s)] → units k ≠ ofText bytesTag) → Transparent (.dict entries)

/-! ## Texts -/

/-- The units of a character's code point are the character's. -/
theorem unitsOfPoint_ofNat (c : Char) : unitsOfPoint (Fin.ofNat 0x110000 c.toNat) = ofChar c := by
  have hbound : c.toNat < 0x110000 := by
    rcases char_bounds c with h | h <;> omega
  have hval : (Fin.ofNat 0x110000 c.toNat).val = c.toNat := Nat.mod_eq_of_lt hbound
  rw [unitsOfPoint, hval, ofChar]

/-- The units of a text's code points are the text's. -/
@[simp]
theorem units_points (cs : List Char) : units (points cs) = ofText cs := by
  rw [units, points, List.flatMap_map, ofText]
  simp only [unitsOfPoint_ofNat]

/-- The tag of some bytes is their decoding. -/
theorem bufferText_encode (b : List UInt8) :
    bufferText (ofText (Base64.encode b)) = ofText (utf8Decode b) := by
  rw [bufferText, toScalars_ofText, Base64.decode_encode]

/-! ## Containers -/

/-- Values are tagged one by one. -/
theorem jsonSafeValues_eq (values : List PyValue) :
    jsonSafeValues values = values.map jsonSafeValue := by
  induction values with
  | nil => rfl
  | cons v values ih => rw [jsonSafeValues, ih, List.map_cons]

/-- Values are parsed one by one. -/
theorem parsedValues_eq (values : List PyJson) : parsedValues values = values.map parsed := by
  induction values with
  | nil => rfl
  | cons v values ih => rw [parsedValues, ih, List.map_cons]

/-- Elements are unwrapped one by one. -/
theorem unwrapElems_eq (l : List Json) :
    unwrapElems l = l.map fun v => (some .data, unwrapJsonSafe v) := by
  induction l with
  | nil => rfl
  | cons v l ih => rw [unwrapElems, ih, List.map_cons]

/-- Members are unwrapped one by one. -/
theorem unwrapMembers_eq (m : List (JsString × Json)) :
    unwrapMembers m = m.map fun p => (p.1, unwrapJsonSafe p.2) := by
  induction m with
  | nil => rfl
  | cons p m ih => rw [unwrapMembers, ih, List.map_cons]

/-- The expected elements are those of each value. -/
theorem expectedValues_eq (values : List PyValue) :
    expectedValues values = values.map fun v => (some .data, expected v) := by
  induction values with
  | nil => rfl
  | cons v values ih => rw [expectedValues, ih, List.map_cons]

/-- The expected members are those of each entry. -/
theorem expectedEntries_eq (entries : List (PyString × PyValue)) :
    expectedEntries entries = entries.map fun p => (units p.1, expected p.2) := by
  induction entries with
  | nil => rfl
  | cons p entries ih => rw [expectedEntries, ih, List.map_cons]

/-- The members of a dict that has passed through the envelope. -/
theorem parsedEntries_jsonSafeEntries (entries : List (PyString × PyValue)) :
    parsedEntries (jsonSafeEntries entries) =
      entries.map fun p => (units p.1, parsed (jsonSafeValue p.2)) := by
  induction entries with
  | nil => rfl
  | cons p entries ih => rw [jsonSafeEntries, parsedEntries, ih, List.map_cons]

/-- What has passed through the envelope. -/
def received (v : PyValue) : JsValue := unwrapJsonSafe (parsed (jsonSafeValue v))

/-- Properties are made of different members differently. -/
theorem property_injective : Function.Injective property := by
  rintro ⟨k, v⟩ ⟨k', v'⟩ h
  simp only [property, Prod.mk.injEq, PropertyKey.string.injEq, and_true] at h
  exact Prod.ext h.1 h.2

/-- Assignments make the properties of all keys but `__proto__`. -/
theorem foldl_assign (m : List (JsString × JsValue)) (proto : Proto)
    (props : List ((PropertyKey × Descriptor) × JsValue)) :
    ∃ proto', m.foldl assign (.object proto props) =
        .object proto' (props ++ (m.filter fun p => p.1 ≠ protoKey).map property) ∧
      (protoKey ∉ m.map Prod.fst → proto' = proto) := by
  induction m generalizing proto props with
  | nil => exact ⟨proto, by simp, fun _ => rfl⟩
  | cons p m ih =>
    rw [List.foldl_cons]
    -- an assignment under `__proto__` touches the prototype, any other the properties
    by_cases hp : p.1 = protoKey
    · obtain ⟨proto₁, hassign⟩ : ∃ proto₁, assign (.object proto props) p =
          .object proto₁ props := by
        rw [assign, if_pos hp]
        split <;> exact ⟨_, rfl⟩
      obtain ⟨proto', hfold, -⟩ := ih proto₁ props
      rw [hassign, hfold, List.filter_cons_of_neg (by simp [hp])]
      exact ⟨proto', rfl, fun h => absurd (List.mem_cons.mpr (.inl hp.symm)) h⟩
    · obtain ⟨proto', hfold, hproto⟩ := ih proto (props ++ [property p])
      rw [assign, if_neg hp, hfold, List.filter_cons_of_pos (by simp [hp]), List.map_cons,
        List.append_assoc]
      exact ⟨proto', rfl, fun h => hproto fun hm => h (List.mem_cons_of_mem _ hm)⟩

/-! ## What has passed through the envelope -/

/-- A list is received element by element. -/
theorem received_list {values : List PyValue} :
    unwrapJsonSafe (.arr (parsedValues (jsonSafeValues values))) =
      .array .arrayPrototype (values.map fun v => (some .data, received v)) 0 := by
  rw [unwrapJsonSafe, unwrapElems_eq, parsedValues_eq, jsonSafeValues_eq, List.map_map,
    List.map_map]
  rfl

/-- A list comes through when every value in it does. -/
theorem received_list_iff {values : List PyValue} :
    unwrapJsonSafe (.arr (parsedValues (jsonSafeValues values))) =
        .array .arrayPrototype (expectedValues values) 0 ↔
      ∀ v ∈ values, received v = expected v := by
  rw [received_list, expectedValues_eq]
  simp only [JsValue.array.injEq, true_and, and_true, List.map_inj_left, Prod.mk.injEq]

section Dict

variable {entries : List (PyString × PyValue)}

/-- The members of a dict, as the runner parses them. -/
def members (entries : List (PyString × PyValue)) : List (JsString × Json) :=
  ownOrder (collectMembers (entries.map fun p => (units p.1, parsed (jsonSafeValue p.2))))

/-- A dict is received as the unwrapped object of its members. -/
theorem received_dict : received (.dict entries) = unwrapJsonSafe (.obj (members entries)) := by
  rw [received, jsonSafeValue, parsed, parsedEntries_jsonSafeEntries, members]

/-- No two members of it have one key. -/
theorem nodup_members : ((members entries).map Prod.fst).Nodup :=
  ((ownOrder_perm _).map Prod.fst).nodup_iff.mpr (nodup_collectMembers _)

/-- A dict that is no tag is rebuilt, without its key `__proto__`. -/
theorem exists_received_dict (h : taggedText? (members entries) = none) :
    ∃ proto, received (.dict entries) = .object proto
        ((((members entries).map fun p => (p.1, unwrapJsonSafe p.2)).filter
          fun p => p.1 ≠ protoKey).map property) ∧
      (protoKey ∉ (members entries).map Prod.fst → proto = .objectPrototype) := by
  obtain ⟨proto, hfold, hproto⟩ := foldl_assign
    ((members entries).map fun p => (p.1, unwrapJsonSafe p.2)) .objectPrototype []
  refine ⟨proto, ?_, fun hfree => hproto ?_⟩
  · rw [received_dict, unwrapJsonSafe, h]
    simp only [unwrapMembers_eq]
    exact hfold
  · rwa [List.map_map]

/-- Keys that coincide are not all there afterwards. -/
theorem received_dict_ne_of_collision (h : ¬(entries.map fun p => units p.1).Nodup) :
    received (.dict entries) ≠ expected (.dict entries) := by
  intro heq
  cases htag : taggedText? (members entries) with
  | some text =>
    rw [received_dict, unwrapJsonSafe, htag, expected] at heq
    cases heq
  | none =>
    obtain ⟨proto, hreceived, -⟩ := exists_received_dict htag
    rw [hreceived, expected, JsValue.object.injEq] at heq
    have hkeys := List.map_injective_iff.mpr property_injective heq.2
    refine h ?_
    have hperm := (ownOrder_perm (expectedEntries entries)).map Prod.fst
    rw [← hkeys, expectedEntries_eq, List.map_map] at hperm
    refine hperm.nodup_iff.mp ?_
    refine List.Nodup.sublist (List.filter_sublist.map Prod.fst) ?_
    rw [List.map_map]
    exact nodup_members

/-- The key `__proto__` is lost. -/
theorem received_dict_ne_of_protoKey {p : PyString × PyValue} (hp : p ∈ entries)
    (h : units p.1 = protoKey) : received (.dict entries) ≠ expected (.dict entries) := by
  intro heq
  cases htag : taggedText? (members entries) with
  | some text =>
    rw [received_dict, unwrapJsonSafe, htag, expected] at heq
    cases heq
  | none =>
    obtain ⟨proto, hreceived, -⟩ := exists_received_dict htag
    rw [hreceived, expected, JsValue.object.injEq] at heq
    have hkeys := List.map_injective_iff.mpr property_injective heq.2
    have hmem : (units p.1, expected p.2) ∈ ownOrder (expectedEntries entries) := by
      rw [(ownOrder_perm _).mem_iff, expectedEntries_eq]
      exact List.mem_map_of_mem hp
    rw [← hkeys, List.mem_filter, h] at hmem
    simp at hmem

/-- A string is what is parsed of a string only. -/
theorem eq_str_of_parsed {v : PyValue} {s : JsString} (h : parsed (jsonSafeValue v) = .str s) :
    ∃ t, v = .str t := by
  cases v with
  | str t => exact ⟨t, rfl⟩
  | _ => cases h

/-- A dict that is taken for a tag is one, around a string. -/
theorem exists_of_taggedText? (hnodup : (entries.map fun p => units p.1).Nodup) {text : JsString}
    (h : taggedText? (members entries) = some text) :
    ∃ k s, entries = [(k, .str s)] ∧ units k = ofText bytesTag := by
  have hcollect : collectMembers (entries.map fun p => (units p.1, parsed (jsonSafeValue p.2))) =
      entries.map fun p => (units p.1, parsed (jsonSafeValue p.2)) := by
    refine collectMembers_of_nodup ?_
    rwa [List.map_map]
  unfold taggedText? at h
  split at h
  · next k s hmembers =>
    split_ifs at h with hk
    rw [members, hcollect] at hmembers
    have hperm := ownOrder_perm (entries.map fun p => (units p.1, parsed (jsonSafeValue p.2)))
    rw [hmembers, List.singleton_perm] at hperm
    obtain ⟨p, hentries, hp⟩ := List.map_eq_singleton_iff.mp hperm.symm
    obtain ⟨hkey, hvalue⟩ := Prod.mk.inj hp
    obtain ⟨t, ht⟩ := eq_str_of_parsed hvalue
    exact ⟨p.1, t, by rw [hentries, ← ht], hkey.trans hk⟩
  · cases h

/-- A dict that is neither a tag nor has a key that is lost comes through when every value in it
does. -/
theorem received_dict_iff (hnodup : (entries.map fun p => units p.1).Nodup)
    (hproto : ∀ p ∈ entries, units p.1 ≠ protoKey)
    (htag : ∀ k s, entries = [(k, .str s)] → units k ≠ ofText bytesTag) :
    received (.dict entries) = expected (.dict entries) ↔
      ∀ p ∈ entries, received p.2 = expected p.2 := by
  have hnone : taggedText? (members entries) = none := by
    cases h : taggedText? (members entries) with
    | none => rfl
    | some text =>
      obtain ⟨k, s, hentries, hk⟩ := exists_of_taggedText? hnodup h
      exact absurd hk (htag k s hentries)
  -- no entry is lost while the text is read, since the keys are different
  have hcollect : collectMembers (entries.map fun p => (units p.1, parsed (jsonSafeValue p.2))) =
      entries.map fun p => (units p.1, parsed (jsonSafeValue p.2)) := by
    refine collectMembers_of_nodup ?_
    rwa [List.map_map]
  have hunwrapped : (members entries).map (fun p => (p.1, unwrapJsonSafe p.2)) =
      ownOrder (entries.map fun p => (units p.1, received p.2)) := by
    rw [members, hcollect, ← ownOrder_map (fun p => (p.1, unwrapJsonSafe p.2)) fun _ => rfl,
      List.map_map]
    rfl
  have hfree : ∀ p ∈ ownOrder (entries.map fun p => (units p.1, received p.2)),
      p.1 ≠ protoKey := by
    intro p hp
    rw [(ownOrder_perm _).mem_iff] at hp
    obtain ⟨q, hq, rfl⟩ := List.mem_map.mp hp
    exact hproto q hq
  -- and none becomes the prototype
  obtain ⟨proto, hreceived, hordinary⟩ := exists_received_dict hnone
  obtain rfl : proto = .objectPrototype := by
    refine hordinary fun hmem => ?_
    obtain ⟨p, hp, hkey⟩ := List.mem_map.mp hmem
    refine hfree (p.1, unwrapJsonSafe p.2) ?_ hkey
    rw [← hunwrapped]
    exact List.mem_map_of_mem hp
  rw [hreceived, hunwrapped, List.filter_eq_self.mpr (by simpa using hfree), expected,
    expectedEntries_eq, JsValue.object.injEq]
  simp only [true_and, property_injective.list_map.eq_iff]
  constructor
  · -- the members on both sides are in the order of properties, so they are compared by their keys
    intro heq p hp
    have hlookup (f : PyValue → JsValue) : (units p.1, f p.2) ∈
        ownOrder (entries.map fun p => (units p.1, f p.2)) := by
      rw [(ownOrder_perm _).mem_iff]
      exact List.mem_map_of_mem hp
    have hmem := hlookup received
    rw [heq, (ownOrder_perm _).mem_iff] at hmem
    obtain ⟨q, hq, hqp⟩ := List.mem_map.mp hmem
    obtain ⟨hkey, hvalue⟩ := Prod.mk.inj hqp
    obtain rfl : q = p := List.inj_on_of_nodup_map hnodup hq hp hkey
    exact hvalue.symm
  · intro hall
    congr 1
    exact List.map_congr_left fun p hp => by rw [hall p hp]

end Dict

/-- A value comes through the envelope exactly when it is transparent. -/
theorem received_iff (v : PyValue) : received v = expected v ↔ Transparent v := by
  induction v using PyValue.ind with
  | none => exact iff_of_true rfl .none
  | bool b => exact iff_of_true rfl (.bool b)
  | int z => exact iff_of_true rfl (.int z)
  | str s => exact iff_of_true rfl (.str s)
  | bytes b =>
    refine iff_of_true ?_ (.bytes b)
    -- bytes are what the tag is for
    have htag : taggedText? [(ofText bytesTag, .str (ofText (Base64.encode b)))] =
        some (ofText (Base64.encode b)) := by rw [taggedText?, if_pos rfl]
    have hparsed : parsed (jsonSafeValue (.bytes b)) =
        .obj [(ofText bytesTag, .str (ofText (Base64.encode b)))] := by
      simp only [jsonSafeValue, parsed, parsedEntries, units_points]
      rfl
    rw [received, hparsed, unwrapJsonSafe, htag, expected]
    exact congrArg JsValue.string (bufferText_encode b)
  | list values ih =>
    refine received_list_iff.trans ⟨fun h => .list fun v hv => (ih v hv).mp (h v hv), fun h => ?_⟩
    cases h with
    | list h => exact fun v hv => (ih v hv).mpr (h v hv)
  | tuple values ih =>
    refine received_list_iff.trans ⟨fun h => .tuple fun v hv => (ih v hv).mp (h v hv), fun h => ?_⟩
    cases h with
    | tuple h => exact fun v hv => (ih v hv).mpr (h v hv)
  | dict entries ih =>
    constructor
    · -- keys that collide, a `__proto__` and a tag each change the dict,
      -- so a transparent one has none
      intro heq
      have hnodup : (entries.map fun p => units p.1).Nodup :=
        not_not.mp fun h => received_dict_ne_of_collision h heq
      have hproto : ∀ p ∈ entries, units p.1 ≠ protoKey :=
        fun p hp h => received_dict_ne_of_protoKey hp h heq
      have htag : ∀ k s, entries = [(k, .str s)] → units k ≠ ofText bytesTag := by
        rintro k s rfl hk
        have hmembers : members [(k, .str s)] = [(units k, .str (units s))] := by
          rw [members, List.map_singleton, collectMembers, List.foldl_cons, List.foldl_nil,
            putMember_of_fresh List.not_mem_nil]
          exact List.perm_singleton.mp (ownOrder_perm _)
        rw [received_dict, hmembers, unwrapJsonSafe, taggedText?, if_pos hk, expected] at heq
        cases heq
      exact .dict (fun p hp => (ih p hp).mp ((received_dict_iff hnodup hproto htag).mp heq p hp))
        hnodup hproto htag
    · intro h
      cases h with
      | dict hvalues hnodup hproto htag =>
        exact (received_dict_iff hnodup hproto htag).mpr fun p hp => (ih p hp).mpr (hvalues p hp)

/-- The runner sees the scope it should exactly when nothing in it is taken for a tag, for a
prototype or for another key. -/
theorem unwrapJsonSafe_scope_iff (scope : List (PyString × PyValue)) :
    unwrapJsonSafe (parsed (jsonSafeScope scope)) = expected (.dict scope) ↔
      Transparent (.dict scope) :=
  received_iff (.dict scope)

/-- A scope whose state looks like the tag of some bytes, for examples. -/
def tagLikeScope : List (PyString × PyValue) :=
  [(points "state".toList, .dict [(points bytesTag, .str (points "YQ==".toList))])]

/-- A dict that looks like a tag is seen as a string. -/
theorem unwrapJsonSafe_tagLikeScope :
    unwrapJsonSafe (parsed (jsonSafeScope tagLikeScope)) ≠ expected (.dict tagLikeScope) := by
  intro h
  cases (received_iff (.dict tagLikeScope)).mp h with
  | dict hvalues _ _ _ =>
    cases hvalues _ List.mem_cons_self with
    | dict _ _ _ htag => exact htag _ _ rfl (units_points bytesTag)

end MetaframerKernel.ScopeEnvelope
