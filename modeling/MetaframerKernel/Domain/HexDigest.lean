import MetaframerKernel.Codec.Sha256
import MetaframerKernel.Domain.Identity

/-!
# The digest of the platform

The results take the digest as a parameter. The sources all pass the one defined here, SHA-256 as
hexadecimal text, and its text has the form their checks ask for.

## Main definitions

* `sha256Hex`: `createHash("sha256").update(bytes).digest("hex")`.
-/

namespace MetaframerKernel

open Js

/-- `createHash("sha256").update(bytes).digest("hex")` -/
def sha256Hex (bytes : ByteArray) : JsString :=
  ofText (Sha256.hex (Sha256.hash (bytes.data.toList.map UInt8.toNat)))

/-- A hexadecimal digit is one code unit of the class. -/
theorem exists_ofChar_of_isHexDigit {c : Char} (h : Sha256.IsHexDigit c) :
    ∃ u, ofChar c = [u] ∧ hexClass u = true := by
  have hsmall : c.toNat < 0x10000 := by
    rcases h with h | h <;> omega
  refine ⟨Fin.ofNat 65536 c.toNat, if_pos hsmall, ?_⟩
  have hval : (Fin.ofNat 65536 c.toNat).val = c.toNat := Nat.mod_eq_of_lt hsmall
  rw [hexClass, Bool.or_eq_true, CodeUnit.inRange, CodeUnit.inRange, hval]
  rcases h with h | h
  · exact .inl (by simpa using h)
  · exact .inr (by simpa using h)

/-- Text of hexadecimal digits has their form. -/
theorem matchesForm_ofText {cs : List Char} (h : ∀ c ∈ cs, Sha256.IsHexDigit c) :
    matchesForm (List.replicate cs.length hexClass) (ofText cs) = true := by
  induction cs with
  | nil => rfl
  | cons c cs ih =>
    rw [List.forall_mem_cons] at h
    obtain ⟨u, hu, hclass⟩ := exists_ofChar_of_isHexDigit h.1
    rw [ofText, List.flatMap_cons, hu, List.singleton_append, List.length_cons,
      List.replicate_succ, matchesForm, hclass, Bool.true_and]
    exact ih h.2

/-- The digest has the form the checks ask for. -/
theorem isHex64_sha256Hex (bytes : ByteArray) : isHex64 (sha256Hex bytes) = true := by
  have hform := matchesForm_ofText
    fun c (hc : c ∈ Sha256.hex (Sha256.hash (bytes.data.toList.map UInt8.toNat))) =>
      Sha256.isHexDigit_of_mem_hex hc
  rwa [Sha256.length_hex_hash] at hform

end MetaframerKernel
