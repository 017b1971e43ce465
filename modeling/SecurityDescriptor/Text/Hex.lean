import SecurityDescriptor.Bytes

/-!
# Hexadecimal text

`fixed w n` writes the last `w` digits of a number and `ofBytes` two lower-case
digits a byte.  `read` takes pairs of digits of either case back to bytes, skips
gaps between pairs but not inside one, and says at which character it stopped.

    read (ofBytes bs) = .ok bs                   (read_ofBytes)
-/

namespace SecurityDescriptor.Hex

/-! ## Algorithm -/

/-- The last `w` digits of `n`, lower-case, leading zeros kept. -/
def fixed : Nat → Nat → List Char
  | 0, _ => []
  | w + 1, n => fixed w (n / 16) ++ [Nat.digitChar (n % 16)]

/-- The last `w` digits of `n`, upper-case, leading zeros kept. -/
def fixedUpper (w n : Nat) : List Char := (fixed w n).map Char.toUpper

/-- A number in at least `w` places, sign included, zeros after the sign. -/
def signed (w : Nat) (n : Int) : String :=
  let sign := if n < 0 then ['-'] else []
  String.ofList (sign ++ (Nat.toDigits 16 n.natAbs).leftpad (w - sign.length) '0')

/-- Two lower-case digits a byte. -/
def ofBytes (bs : Bytes) : List Char := bs.flatMap fun b => fixed 2 b.toNat

/-- The text of a byte string, two lower-case digits a byte. -/
def text (bs : Bytes) : String := String.ofList (ofBytes bs)

/-- The value of a digit of either case. -/
def digitValue? (c : Char) : Option Nat :=
  if '0' ≤ c ∧ c ≤ '9' then some (c.toNat - 48)
  else if 'a' ≤ c ∧ c ≤ 'f' then some (c.toNat - 87)
  else if 'A' ≤ c ∧ c ≤ 'F' then some (c.toNat - 55)
  else none

/-- A character that may stand between pairs: a space, or one of U+0009 to U+000D. -/
def isGap (c : Char) : Bool := c == ' ' || (9 ≤ c.toNat && c.toNat ≤ 13)

/-- A character of the first 128. -/
def isAscii (c : Char) : Bool := c.toNat < 128

/-- The byte two digits stand for.  An error is the number of digits before the
first character that is none. -/
def pairByte (c d : Char) : Except Nat UInt8 :=
  match digitValue? c, digitValue? d with
  | some hi, some lo => .ok (UInt8.ofNat (16 * hi + lo))
  | none, _ => .error 0
  | some _, none => .error 1

/-- Reads pairs of digits from character `i` on.  An error is the position of the
first character that is not the digit it should be, the end of the text included. -/
def readPairs (i : Nat) : List Char → Except Nat Bytes
  | [] => .ok []
  | [c] => if isGap c then .ok [] else .error (if (digitValue? c).isSome then i + 1 else i)
  | c :: d :: cs =>
    if isGap c then readPairs (i + 1) (d :: cs)
    else match pairByte c d with
      | .error k => .error (i + k)
      | .ok b => (readPairs (i + 2) cs).map (b :: ·)

/-- Reads a text of digit pairs.  A character outside ASCII is an error before any
other, at the position of the first one. -/
def read (cs : List Char) : Except Nat Bytes :=
  match cs.findIdx? (!isAscii ·) with
  | some i => .error i
  | none => readPairs 0 cs

/-! ## Lemmas -/

@[simp] theorem length_fixed (w n : Nat) : (fixed w n).length = w := by
  induction w generalizing n with
  | zero => rfl
  | succ w ih => simp [fixed, ih]

theorem digitValue?_digitChar : ∀ d, d < 16 →
    digitValue? (Nat.digitChar d) = some d ∧ isGap (Nat.digitChar d) = false ∧
      isAscii (Nat.digitChar d) = true := by
  decide +kernel

theorem fixed_two (b : UInt8) :
    fixed 2 b.toNat = [Nat.digitChar (b.toNat / 16), Nat.digitChar (b.toNat % 16)] := by
  have hb := b.toNat_lt
  have h : b.toNat / 16 % 16 = b.toNat / 16 := by omega
  simp [fixed, h]

theorem pairByte_digitChar (b : UInt8) :
    pairByte (Nat.digitChar (b.toNat / 16)) (Nat.digitChar (b.toNat % 16)) = .ok b := by
  have hb := b.toNat_lt
  rw [pairByte, (digitValue?_digitChar (b.toNat / 16) (by omega)).1,
    (digitValue?_digitChar (b.toNat % 16) (by omega)).1]
  show Except.ok (UInt8.ofNat (16 * (b.toNat / 16) + b.toNat % 16)) = Except.ok b
  rw [Nat.div_add_mod, UInt8.ofNat_toNat]

theorem readPairs_ofBytes (i : Nat) (bs : Bytes) : readPairs i (ofBytes bs) = .ok bs := by
  induction bs generalizing i with
  | nil => rfl
  | cons b bs ih =>
    have hb := b.toNat_lt
    have hg := (digitValue?_digitChar (b.toNat / 16) (by omega)).2.1
    have hc : ofBytes (b :: bs) = Nat.digitChar (b.toNat / 16) ::
        Nat.digitChar (b.toNat % 16) :: ofBytes bs := by
      simp [ofBytes, fixed_two]
    simp [hc, readPairs, hg, pairByte_digitChar, ih, Except.map]

theorem isAscii_of_mem_ofBytes {bs : Bytes} {c : Char} (h : c ∈ ofBytes bs) :
    isAscii c = true := by
  obtain ⟨b, -, hc⟩ := List.mem_flatMap.1 h
  have hb := b.toNat_lt
  rw [fixed_two] at hc
  rcases List.mem_cons.1 hc with rfl | hc
  · exact (digitValue?_digitChar _ (by omega)).2.2
  · rw [List.mem_singleton.1 hc]
    exact (digitValue?_digitChar _ (by omega)).2.2

/-- Reading what was written gives the bytes back. -/
theorem read_ofBytes (bs : Bytes) : read (ofBytes bs) = .ok bs := by
  have h : (ofBytes bs).findIdx? (!isAscii ·) = none := by
    rw [List.findIdx?_eq_none_iff]
    intro c hc
    simp [isAscii_of_mem_ofBytes hc]
  rw [read, h]
  exact readPairs_ofBytes 0 bs

end SecurityDescriptor.Hex
