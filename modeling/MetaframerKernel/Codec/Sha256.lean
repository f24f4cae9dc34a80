import Mathlib.Data.List.Basic
import Mathlib.Tactic

/-!
# SHA-256 and HMAC

The hash of FIPS 180-4 and the keyed hash of FIPS 198-1 over it, on lists of bytes. Bytes and words
are natural numbers, below `2 ^ 8` and `2 ^ 32`.

## Main definitions

* `hash`: the 32 bytes of a message;
* `hmac`: the 32 bytes of a key and a message;
* `hex`: bytes as lower-case hexadecimal digits.

## Main results

* `length_hex_hash`, `isHexDigit_of_mem_hex`: a hash is written with 64 hexadecimal digits.
-/

namespace Sha256

/-! ## Words -/

/-- Words are added modulo `2 ^ 32`. -/
def add (x y : ℕ) : ℕ := (x + y) % 2 ^ 32

/-- Rotation to the right. -/
def rotr (n x : ℕ) : ℕ := (x >>> n ||| x <<< (32 - n)) % 2 ^ 32

/-- `Ch`: the bits of `y` where those of `x` are set, else those of `z`. -/
def choose (x y z : ℕ) : ℕ := x &&& y ^^^ (2 ^ 32 - 1 ^^^ x) &&& z

/-- `Maj`: the bits most of the three have. -/
def majority (x y z : ℕ) : ℕ := x &&& y ^^^ x &&& z ^^^ y &&& z

/-- `Σ₀` -/
def upperSigma0 (x : ℕ) : ℕ := rotr 2 x ^^^ rotr 13 x ^^^ rotr 22 x

/-- `Σ₁` -/
def upperSigma1 (x : ℕ) : ℕ := rotr 6 x ^^^ rotr 11 x ^^^ rotr 25 x

/-- `σ₀` -/
def lowerSigma0 (x : ℕ) : ℕ := rotr 7 x ^^^ rotr 18 x ^^^ x >>> 3

/-- `σ₁` -/
def lowerSigma1 (x : ℕ) : ℕ := rotr 17 x ^^^ rotr 19 x ^^^ x >>> 10

/-! ## Compression -/

/-- The eight working variables. -/
structure State where
  a : ℕ
  b : ℕ
  c : ℕ
  d : ℕ
  e : ℕ
  f : ℕ
  g : ℕ
  h : ℕ

/-- The initial hash value. -/
def State.initial : State where
  a := 0x6a09e667
  b := 0xbb67ae85
  c := 0x3c6ef372
  d := 0xa54ff53a
  e := 0x510e527f
  f := 0x9b05688c
  g := 0x1f83d9ab
  h := 0x5be0cd19

/-- The constants of the 64 rounds. -/
def constants : List ℕ :=
  [0x428a2f98, 0x71374491, 0xb5c0fbcf, 0xe9b5dba5, 0x3956c25b, 0x59f111f1, 0x923f82a4, 0xab1c5ed5,
    0xd807aa98, 0x12835b01, 0x243185be, 0x550c7dc3, 0x72be5d74, 0x80deb1fe, 0x9bdc06a7, 0xc19bf174,
    0xe49b69c1, 0xefbe4786, 0x0fc19dc6, 0x240ca1cc, 0x2de92c6f, 0x4a7484aa, 0x5cb0a9dc, 0x76f988da,
    0x983e5152, 0xa831c66d, 0xb00327c8, 0xbf597fc7, 0xc6e00bf3, 0xd5a79147, 0x06ca6351, 0x14292967,
    0x27b70a85, 0x2e1b2138, 0x4d2c6dfc, 0x53380d13, 0x650a7354, 0x766a0abb, 0x81c2c92e, 0x92722c85,
    0xa2bfe8a1, 0xa81a664b, 0xc24b8b70, 0xc76c51a3, 0xd192e819, 0xd6990624, 0xf40e3585, 0x106aa070,
    0x19a4c116, 0x1e376c08, 0x2748774c, 0x34b0bcb5, 0x391c0cb3, 0x4ed8aa4a, 0x5b9cca4f, 0x682e6ff3,
    0x748f82ee, 0x78a5636f, 0x84c87814, 0x8cc70208, 0x90befffa, 0xa4506ceb, 0xbef9a3f7, 0xc67178f2]

/-- The message schedule: `n` words, of which the next 16 are given. -/
def schedule : ℕ → List ℕ → List ℕ
  | 0, _ => []
  | n + 1, words =>
      words.headD 0 :: schedule n (words.tail ++
        [add (add (lowerSigma1 (words.getD 14 0)) (words.getD 9 0))
          (add (lowerSigma0 (words.getD 1 0)) (words.headD 0))])

/-- One round, with its constant and its word of the schedule. -/
def State.round (s : State) (constant word : ℕ) : State :=
  let t₁ := add (add s.h (upperSigma1 s.e)) (add (choose s.e s.f s.g) (add constant word))
  let t₂ := add (upperSigma0 s.a) (majority s.a s.b s.c)
  ⟨add t₁ t₂, s.a, s.b, s.c, add s.d t₁, s.e, s.f, s.g⟩

/-- The hash value after a block of 16 words. -/
def State.compress (s : State) (block : List ℕ) : State :=
  let t := (constants.zip (schedule 64 block)).foldl (fun t round => t.round round.1 round.2) s
  ⟨add s.a t.a, add s.b t.b, add s.c t.c, add s.d t.d, add s.e t.e, add s.f t.f, add s.g t.g,
    add s.h t.h⟩

/-! ## Messages -/

/-- A number as bytes, the most significant first. -/
def bigEndian : ℕ → ℕ → List ℕ
  | 0, _ => []
  | n + 1, x => x / 256 ^ n % 256 :: bigEndian n x

/-- The padding of a message of `length` bytes: a bit, zeros up to the last eight bytes of a block,
and the number of bits. -/
def padding (length : ℕ) : List ℕ :=
  0x80 :: (List.replicate ((119 - length % 64) % 64) 0 ++ bigEndian 8 (8 * length))

/-- Words of four bytes each. -/
def wordsOf : List ℕ → List ℕ
  | b₀ :: b₁ :: b₂ :: b₃ :: rest =>
      (b₀ * 2 ^ 24 + b₁ * 2 ^ 16 + b₂ * 2 ^ 8 + b₃) :: wordsOf rest
  | _ => []

/-- The hash value after `n` blocks. -/
def State.absorb (s : State) : ℕ → List ℕ → State
  | 0, _ => s
  | n + 1, words => (s.compress (words.take 16)).absorb n (words.drop 16)

/-- The bytes of a hash value. -/
def State.bytes (s : State) : List ℕ :=
  [s.a, s.b, s.c, s.d, s.e, s.f, s.g, s.h].flatMap (bigEndian 4)

/-- The hash of a message. -/
def hash (message : List ℕ) : List ℕ :=
  let words := wordsOf (message ++ padding message.length)
  (State.initial.absorb (words.length / 16) words).bytes

/-- The number of bytes of a block. -/
def blockSize : ℕ := 64

/-- A key is as long as a block: a longer one is hashed, and zeros follow. -/
def blockKey (key : List ℕ) : List ℕ :=
  let key := if key.length ≤ blockSize then key else hash key
  key ++ List.replicate (blockSize - key.length) 0

/-- The keyed hash of a message. -/
def hmac (key message : List ℕ) : List ℕ :=
  hash ((blockKey key).map (· ^^^ 0x5c) ++ hash ((blockKey key).map (· ^^^ 0x36) ++ message))

/-! ## Hexadecimal digits -/

/-- The character of a hexadecimal digit. -/
def hexDigit (n : ℕ) : Char :=
  if n < 10 then Char.ofNat (48 + n) else Char.ofNat (97 + (n - 10))

/-- Bytes as hexadecimal digits. -/
def hex (bytes : List ℕ) : List Char :=
  bytes.flatMap fun b => [hexDigit (b / 16 % 16), hexDigit (b % 16)]

/-- The character is a digit or one of the first six letters. -/
def IsHexDigit (c : Char) : Prop :=
  (48 ≤ c.toNat ∧ c.toNat ≤ 57) ∨ (97 ≤ c.toNat ∧ c.toNat ≤ 102)

/-- A hexadecimal digit is written as one. -/
theorem isHexDigit_hexDigit {n : ℕ} (h : n < 16) : IsHexDigit (hexDigit n) := by
  unfold IsHexDigit
  interval_cases n <;> decide

/-- Hexadecimal text has no other characters. -/
theorem isHexDigit_of_mem_hex {bytes : List ℕ} {c : Char} (h : c ∈ hex bytes) : IsHexDigit c := by
  obtain ⟨b, -, hc⟩ := List.mem_flatMap.mp h
  rcases List.mem_cons.mp hc with rfl | hc
  · exact isHexDigit_hexDigit (Nat.mod_lt _ (by decide))
  · rw [List.mem_singleton.mp hc]
    exact isHexDigit_hexDigit (Nat.mod_lt _ (by decide))

/-- Two characters stand for a byte. -/
theorem length_hex (bytes : List ℕ) : (hex bytes).length = 2 * bytes.length := by
  simp [hex, List.length_flatMap, Nat.mul_comm]

/-- A number has as many bytes as asked for. -/
theorem length_bigEndian (n x : ℕ) : (bigEndian n x).length = n := by
  induction n with
  | zero => rfl
  | succ n ih => rw [bigEndian, List.length_cons, ih]

/-- A hash has 32 bytes. -/
theorem length_hash (message : List ℕ) : (hash message).length = 32 := by
  simp [hash, State.bytes, length_bigEndian]

/-- A hash is written with 64 digits. -/
theorem length_hex_hash (message : List ℕ) : (hex (hash message)).length = 64 := by
  rw [length_hex, length_hash]

example : hex (hash []) =
    "e3b0c44298fc1c149afbf4c8996fb92427ae41e4649b934ca495991b7852b855".toList := by decide +kernel

example : hex (hmac ("key".toList.map Char.toNat)
      ("The quick brown fox jumps over the lazy dog".toList.map Char.toNat)) =
    "f7bc83f430538424b13298e6aa6fb143ef4d59a14946175997479dbc2d1a3cd8".toList := by decide +kernel

end Sha256
