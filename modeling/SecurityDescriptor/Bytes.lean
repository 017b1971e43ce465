/-!
# Byte strings and the numbers they hold

A byte string is a list of bytes, and a field of `n` bytes holds a number below
`256 ^ n`.  Wire numbers are little-endian: `toNatLE` reads one and `ofNatLE`
writes one.  A field of a fixed width is restored from its number:

    ofNatLE bs.length bs.toNatLE = bs            (ofNatLE_toNatLE)
-/

namespace SecurityDescriptor

/-- A byte string. -/
abbrev Bytes := List UInt8

namespace Bytes

/-! ## Algorithm -/

/-- The number in a field, its first byte least significant. -/
def toNatLE : Bytes → Nat
  | [] => 0
  | b :: bs => b.toNat + 256 * toNatLE bs

/-- The number in a field, its first byte most significant. -/
def toNatBE (bs : Bytes) : Nat := toNatLE bs.reverse

/-- The field of `n` bytes that holds `v`, its first byte least significant;
what does not fit is dropped. -/
def ofNatLE : Nat → Nat → Bytes
  | 0, _ => []
  | n + 1, v => UInt8.ofNat v :: ofNatLE n (v / 256)

/-- The wire form of an 8-bit field. -/
def ofUInt8 (x : UInt8) : Bytes := [x]

/-- The wire form of a 16-bit field. -/
def ofUInt16 (x : UInt16) : Bytes := ofNatLE 2 x.toNat

/-- The wire form of a 32-bit field. -/
def ofUInt32 (x : UInt32) : Bytes := ofNatLE 4 x.toNat

/-! ## Lemmas -/

@[simp] theorem length_ofNatLE (n v : Nat) : (ofNatLE n v).length = n := by
  induction n generalizing v with
  | zero => rfl
  | succ n ih => simp [ofNatLE, ih]

@[simp] theorem length_ofUInt8 (x : UInt8) : (ofUInt8 x).length = 1 := rfl

@[simp] theorem length_ofUInt16 (x : UInt16) : (ofUInt16 x).length = 2 := length_ofNatLE ..

@[simp] theorem length_ofUInt32 (x : UInt32) : (ofUInt32 x).length = 4 := length_ofNatLE ..

/-- Writing back what was read restores the field. -/
theorem ofNatLE_toNatLE (bs : Bytes) : ofNatLE bs.length bs.toNatLE = bs := by
  induction bs with
  | nil => rfl
  | cons b bs ih =>
    have hb := b.toNat_lt
    have hdiv : (b.toNat + 256 * toNatLE bs) / 256 = toNatLE bs := by omega
    simp only [List.length_cons, toNatLE, ofNatLE, hdiv, ih]
    congr 1
    apply UInt8.toNat.inj
    rw [UInt8.toNat_ofNat']
    omega

end Bytes

/-- A byte string of exactly `n` bytes. -/
structure Block (n : Nat) where
  bytes : Bytes
  length_bytes : bytes.length = n
deriving DecidableEq

namespace Block

@[ext] theorem ext {n : Nat} {a b : Block n} (h : a.bytes = b.bytes) : a = b := by
  cases a
  cases b
  cases h
  rfl

end Block

end SecurityDescriptor
