import Mathlib.Data.List.Basic
import Mathlib.Algebra.Group.Int

/-! # Standard base64

The storer mock names a missing key by `base64.StdEncoding.EncodeToString`,
computed as the standard library does: four characters per group of three bytes,
a last short group padded with `=`. `decode` is a left inverse of `encode`, so a
message names exactly one key.
-/
namespace ChainIndexer.Storage.Base64

def encodeStd : List Char := "ABCDEFGHIJKLMNOPQRSTUVWXYZabcdefghijklmnopqrstuvwxyz0123456789+/".toList

/-- `enc.encode[i]`. -/
def encodeChar (i : Nat) : Char := encodeStd.getD i '='

/-- The four characters of a 24-bit value: `val>>18&0x3F` down to `val&0x3F`. -/
def quantum (val : Nat) : List Char :=
  [encodeChar (val / 2^18 % 64), encodeChar (val / 2^12 % 64), encodeChar (val / 2^6 % 64),
    encodeChar (val % 64)]

/-- `Encode`: full groups, then the remaining one or two bytes with padding. -/
def encode : List UInt8 → List Char
  | b0 :: b1 :: b2 :: rest => quantum (b0.toNat * 2^16 + b1.toNat * 2^8 + b2.toNat) ++ encode rest
  | [b0] => (quantum (b0.toNat * 2^16)).take 2 ++ ['=', '=']
  | [b0, b1] => (quantum (b0.toNat * 2^16 + b1.toNat * 2^8)).take 3 ++ ['=']
  | [] => []

def encodeToString (src : List UInt8) : String := ⟨encode src⟩

def decodeChar (c : Char) : Option Nat := encodeStd.findIdx? (· = c)

/-- A character of the last two places of a group: padding carries zero bits. -/
def sextet (c : Char) : Option Nat := if c = '=' then some 0 else decodeChar c

/-- Four characters at a time, padding only in the last four. -/
def decode : List Char → Option (List UInt8)
  | c0 :: c1 :: c2 :: c3 :: rest => do
    let val := (← decodeChar c0) * 2^18 + (← decodeChar c1) * 2^12 + (← sextet c2) * 2^6 + (← sextet c3)
    let bytes := [UInt8.ofNat (val / 2^16), UInt8.ofNat (val / 2^8), UInt8.ofNat val]
    if c3 = '=' then
      if rest = [] then some (bytes.take (if c2 = '=' then 1 else 2)) else none
    else (bytes ++ ·) <$> decode rest
  | [] => some []
  | _ => none

/-! ## The alphabet -/

theorem decodeChar_encodeChar : ∀ i < 64, decodeChar (encodeChar i) = some i := by decide

theorem encodeChar_ne_pad : ∀ i < 64, encodeChar i ≠ '=' := by decide

theorem decodeChar_mod (v : Nat) : decodeChar (encodeChar (v % 64)) = some (v % 64) :=
  decodeChar_encodeChar _ (Nat.mod_lt _ (by decide))

theorem encodeChar_mod_ne_pad (v : Nat) : encodeChar (v % 64) ≠ '=' :=
  encodeChar_ne_pad _ (Nat.mod_lt _ (by decide))

theorem sextet_mod (v : Nat) : sextet (encodeChar (v % 64)) = some (v % 64) := by
  rw [sextet, if_neg (encodeChar_mod_ne_pad v), decodeChar_mod]

/-! ## Round trip -/

theorem sextets_value {val : Nat} (h : val < 2^24) :
    val / 2^18 % 64 * 2^18 + val / 2^12 % 64 * 2^12 + val / 2^6 % 64 * 2^6 + val % 64 = val := by
  omega

theorem decode_quantum {val : Nat} (h : val < 2^24) (rest : List Char) :
    decode (quantum val ++ rest) =
      ([UInt8.ofNat (val / 2^16), UInt8.ofNat (val / 2^8), UInt8.ofNat val] ++ ·) <$> decode rest := by
  simp only [quantum, List.cons_append, List.append_eq, List.nil_append, decode, decodeChar_mod,
    sextet_mod, Option.bind_eq_bind, Option.some_bind, if_neg (encodeChar_mod_ne_pad val), sextets_value h]

theorem ofNat_eq {b : UInt8} {n : Nat} (h : n % 256 = b.toNat) : UInt8.ofNat n = b :=
  UInt8.eq_of_val_eq (Fin.ext (by simpa [UInt8.ofNat, Fin.ofNat] using h))

theorem quantum_bytes (b0 b1 b2 : UInt8) :
    let val := b0.toNat * 2^16 + b1.toNat * 2^8 + b2.toNat
    [UInt8.ofNat (val / 2^16), UInt8.ofNat (val / 2^8), UInt8.ofNat val] = [b0, b1, b2] := by
  have h0 : b0.toNat < 256 := b0.toNat_lt_size
  have h1 : b1.toNat < 256 := b1.toNat_lt_size
  have h2 : b2.toNat < 256 := b2.toNat_lt_size
  simp only [List.cons.injEq, and_true]
  exact ⟨ofNat_eq (by omega), ofNat_eq (by omega), ofNat_eq (by omega)⟩

theorem decode_encode : ∀ bs : List UInt8, decode (encode bs) = some bs
  | b0 :: b1 :: b2 :: rest => by
    have h0 : b0.toNat < 256 := b0.toNat_lt_size
    have h1 : b1.toNat < 256 := b1.toNat_lt_size
    have h2 : b2.toNat < 256 := b2.toNat_lt_size
    rw [encode, decode_quantum (by omega), decode_encode rest, quantum_bytes]
    rfl
  | [b0] => by
    have h0 : b0.toNat < 256 := b0.toNat_lt_size
    simp only [encode, quantum, List.take, List.cons_append, List.nil_append, decode, decodeChar_mod,
      sextet, if_true, Option.bind_eq_bind, Option.some_bind, if_neg (encodeChar_mod_ne_pad _)]
    exact congrArg (fun b => some [b]) (ofNat_eq (by omega))
  | [b0, b1] => by
    have h0 : b0.toNat < 256 := b0.toNat_lt_size
    have h1 : b1.toNat < 256 := b1.toNat_lt_size
    simp only [encode, quantum, List.take, List.cons_append, List.nil_append, decode, decodeChar_mod,
      sextet_mod, sextet, if_true, Option.bind_eq_bind, Option.some_bind, if_neg (encodeChar_mod_ne_pad _)]
    exact congrArg some (congrArg₂ (fun a b => [a, b]) (ofNat_eq (by omega)) (ofNat_eq (by omega)))
  | [] => rfl

example : encodeToString [77, 97, 110] = "TWFu" ∧ decode "TWE=".toList = some [77, 97] := by decide

/-- `EncodedLen`: four characters for every started group of three bytes. -/
theorem encode_length : ∀ bs : List UInt8, (encode bs).length = 4 * ((bs.length + 2) / 3)
  | _ :: _ :: _ :: rest => by
    simp only [encode, quantum, List.length_append, encode_length rest, List.length_cons, List.length_nil]
    omega
  | [_] | [_, _] | [] => by simp [encode, quantum]

theorem encode_injective : Function.Injective encode := fun a b h =>
  Option.some.inj ((decode_encode a).symm.trans (h ▸ decode_encode b))

end ChainIndexer.Storage.Base64
