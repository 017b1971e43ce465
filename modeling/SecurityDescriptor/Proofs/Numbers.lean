import Mathlib.Data.Nat.Bitwise
import SecurityDescriptor.Sid

/-!
# Numbers on the wire

A field of `n` bytes holds every number below `256 ^ n`, each in one way.

    (ofNatLE n v).toNatLE = v % 256 ^ n                                   (toNatLE_ofNatLE)
    v < 256 ^ n → (w = ofNatLE n v ↔ w.length = n ∧ w.toNatLE = v)         (eq_ofNatLE_iff)
-/

namespace SecurityDescriptor

namespace Bytes

theorem toNatLE_lt (bs : Bytes) : bs.toNatLE < 256 ^ bs.length := by
  induction bs with
  | nil => simp [toNatLE]
  | cons b bs ih =>
    have hb := b.toNat_lt
    simp only [toNatLE, List.length_cons, Nat.pow_succ]
    omega

theorem toNatBE_lt (bs : Bytes) : bs.toNatBE < 256 ^ bs.length := by
  have h := toNatLE_lt bs.reverse
  rwa [List.length_reverse] at h

/-- A field keeps of a number what its width can hold. -/
theorem toNatLE_ofNatLE (n v : Nat) : (ofNatLE n v).toNatLE = v % 256 ^ n := by
  induction n generalizing v with
  | zero => simp [ofNatLE, toNatLE, Nat.mod_one]
  | succ n ih =>
    have hb : (UInt8.ofNat v).toNat = v % 256 := by simp
    rw [ofNatLE, toNatLE, ih, hb, Nat.pow_succ, Nat.mul_comm (256 ^ n) 256, Nat.mod_mul]

/-- A field of `n` bytes is the wire form of the one number that it holds. -/
theorem eq_ofNatLE_iff {n v : Nat} (hv : v < 256 ^ n) (w : Bytes) :
    w = ofNatLE n v ↔ w.length = n ∧ w.toNatLE = v := by
  constructor
  · rintro rfl
    exact ⟨length_ofNatLE n v, by rw [toNatLE_ofNatLE, Nat.mod_eq_of_lt hv]⟩
  · rintro ⟨rfl, rfl⟩
    exact (ofNatLE_toNatLE w).symm

theorem ofUInt8_ofNat {w : Bytes} (h : w.length = 1) : ofUInt8 (.ofNat w.toNatLE) = w := by
  obtain ⟨x, rfl⟩ := List.length_eq_one_iff.1 h
  simp [toNatLE, ofUInt8]

theorem ofUInt16_ofNat {w : Bytes} (h : w.length = 2) : ofUInt16 (.ofNat w.toNatLE) = w := by
  have hv := w.toNatLE_lt
  rw [h] at hv
  exact ((eq_ofNatLE_iff (UInt16.toNat_lt _) w).2 ⟨h, (UInt16.toNat_ofNat_of_lt hv).symm⟩).symm

theorem ofUInt32_ofNat {w : Bytes} (h : w.length = 4) : ofUInt32 (.ofNat w.toNatLE) = w := by
  have hv := w.toNatLE_lt
  rw [h] at hv
  exact ((eq_ofNatLE_iff (UInt32.toNat_lt _) w).2 ⟨h, (UInt32.toNat_ofNat_of_lt hv).symm⟩).symm

theorem ofNat_ofUInt16 (x : UInt16) : UInt16.ofNat (ofUInt16 x).toNatLE = x := by
  have h := ((eq_ofNatLE_iff x.toNat_lt (ofUInt16 x)).1 rfl).2
  rw [h, UInt16.ofNat_toNat]

theorem ofNat_ofUInt32 (x : UInt32) : UInt32.ofNat (ofUInt32 x).toNatLE = x := by
  have h := ((eq_ofNatLE_iff x.toNat_lt (ofUInt32 x)).1 rfl).2
  rw [h, UInt32.ofNat_toNat]

end Bytes

theorem Authority.toNat_lt (a : Authority) : a.toNat < 2 ^ 48 := by
  have h := a.value.bytes.toNatBE_lt
  rwa [a.value.length_bytes] at h

end SecurityDescriptor
