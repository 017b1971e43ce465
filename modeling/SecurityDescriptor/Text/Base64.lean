import SecurityDescriptor.Bytes

/-!
# Base64 text

Four characters of the alphabet `A-Z a-z 0-9 + /` stand for three bytes, and padding
completes the last group.  `encode` writes the standard padded form.  `decode` is the
reader of the input lines: it takes no character from outside the alphabet, ignores
padding that no group needs, and drops the unused low bits of the last character
unchecked.

    decode (encode bs) = .ok bs                  (decode_encode)
-/

namespace SecurityDescriptor.Base64

/-! ## Algorithm -/

/-- What is wrong with a text. -/
inductive Error where
  /-- A character outside ASCII. -/
  | nonAscii
  /-- The first character is padding. -/
  | leadingPadding
  /-- A character after the padding that completes the last group. -/
  | excessData
  /-- A character from outside the alphabet. -/
  | outsideAlphabet
  /-- A character of the alphabet after padding. -/
  | discontinuousPadding
  /-- The text ends one character into a group; `count` characters carry data. -/
  | loneCharacter (count : Nat)
  /-- The text ends two or three characters into a group. -/
  | incorrectPadding
deriving DecidableEq, Repr

/-- The text of an error. -/
def Error.message : Error → String
  | .nonAscii => "string argument should contain only ASCII characters"
  | .leadingPadding => "Leading padding not allowed"
  | .excessData => "Excess data after padding"
  | .outsideAlphabet => "Only base64 data is allowed"
  | .discontinuousPadding => "Discontinuous padding not allowed"
  | .loneCharacter n =>
    "Invalid base64-encoded string: number of data characters (" ++ toString n
      ++ ") cannot be 1 more than a multiple of 4"
  | .incorrectPadding => "Incorrect padding"

/-- The six bits a character of the alphabet stands for. -/
def value? (c : Char) : Option Nat :=
  if 'A' ≤ c ∧ c ≤ 'Z' then some (c.toNat - 65)
  else if 'a' ≤ c ∧ c ≤ 'z' then some (c.toNat - 71)
  else if '0' ≤ c ∧ c ≤ '9' then some (c.toNat + 4)
  else if c = '+' then some 62
  else if c = '/' then some 63
  else none

/-- The character that stands for the six bits `n`. -/
def letter (n : Nat) : Char :=
  if n < 26 then Char.ofNat (n + 65)
  else if n < 52 then Char.ofNat (n + 71)
  else if n < 62 then Char.ofNat (n - 4)
  else if n = 62 then '+'
  else '/'

/-- Reads the characters after `n` characters of the alphabet and `pads` counted
paddings; `padded` tells whether any padding was met.  Padding counts from the third
place of a group on, and the padding that completes the group ends the text. -/
def scan (n pads : Nat) (padded : Bool) : List Char → Except Error (List Nat)
  | [] =>
    if n % 4 = 0 then .ok []
    else if n % 4 = 1 then .error (.loneCharacter n)
    else .error .incorrectPadding
  | c :: cs =>
    if c = '=' then
      if n % 4 < 2 then scan n pads true cs
      else if n % 4 + (pads + 1) < 4 then scan n (pads + 1) true cs
      else if cs.isEmpty then .ok []
      else .error .excessData
    else match value? c with
      | none => .error .outsideAlphabet
      | some v =>
        if padded then .error .discontinuousPadding
        else (scan (n + 1) pads false cs).map (v :: ·)

/-- The bytes that groups of six bits hold; bits short of a byte are dropped. -/
def pack : List Nat → Bytes
  | a :: b :: c :: d :: rest =>
    UInt8.ofNat (4 * a + b / 16) :: UInt8.ofNat (16 * b + c / 4) :: UInt8.ofNat (64 * c + d)
      :: pack rest
  | [a, b, c] => [UInt8.ofNat (4 * a + b / 16), UInt8.ofNat (16 * b + c / 4)]
  | [a, b] => [UInt8.ofNat (4 * a + b / 16)]
  | _ => []

/-- Reads a text. -/
def decode (cs : List Char) : Except Error Bytes :=
  if cs.any (128 ≤ ·.toNat) then .error .nonAscii
  else if cs.head? = some '=' then .error .leadingPadding
  else (scan 0 0 false cs).map pack

/-- The groups of six bits that a byte string makes, the last one filled up with zeros. -/
def unpack : Bytes → List Nat
  | x :: y :: z :: rest =>
    x.toNat / 4 :: (x.toNat % 4 * 16 + y.toNat / 16) :: (y.toNat % 16 * 4 + z.toNat / 64)
      :: z.toNat % 64 :: unpack rest
  | [x, y] => [x.toNat / 4, x.toNat % 4 * 16 + y.toNat / 16, y.toNat % 16 * 4]
  | [x] => [x.toNat / 4, x.toNat % 4 * 16]
  | [] => []

/-- The padding that completes the last group of a byte string. -/
def padding (bs : Bytes) : List Char := List.replicate ((3 - bs.length % 3) % 3) '='

/-- The standard form, padded to groups of four characters. -/
def encode (bs : Bytes) : List Char := (unpack bs).map letter ++ padding bs

/-! ## Lemmas -/

theorem value?_letter : ∀ n, n < 64 → value? (letter n) = some n ∧ letter n ≠ '=' := by
  decide +kernel

theorem ascii_letter : ∀ n, n < 64 → (letter n).toNat < 128 := by
  decide +kernel

theorem lt_of_mem_unpack {bs : Bytes} {n : Nat} (h : n ∈ unpack bs) : n < 64 := by
  induction bs using unpack.induct with
  | case1 x y z rest ih =>
    have hx := x.toNat_lt
    have hy := y.toNat_lt
    have hz := z.toNat_lt
    simp only [unpack, List.mem_cons] at h
    rcases h with rfl | rfl | rfl | rfl | h
    · omega
    · omega
    · omega
    · omega
    · exact ih h
  | case2 x y =>
    have hx := x.toNat_lt
    have hy := y.toNat_lt
    simp only [unpack, List.mem_cons, List.not_mem_nil, or_false] at h
    omega
  | case3 x =>
    have hx := x.toNat_lt
    simp only [unpack, List.mem_cons, List.not_mem_nil, or_false] at h
    omega
  | case4 => simp [unpack] at h

theorem pack_unpack (bs : Bytes) : pack (unpack bs) = bs := by
  have byte (n : Nat) (x : UInt8) (h : n % 256 = x.toNat) : UInt8.ofNat n = x := by
    apply UInt8.toNat.inj
    rw [UInt8.toNat_ofNat', h]
  induction bs using unpack.induct with
  | case1 x y z rest ih =>
    have hx := x.toNat_lt
    have hy := y.toNat_lt
    have hz := z.toNat_lt
    rw [unpack, pack, ih, byte _ x (by omega), byte _ y (by omega), byte _ z (by omega)]
  | case2 x y =>
    have hx := x.toNat_lt
    have hy := y.toNat_lt
    rw [unpack, pack, byte _ x (by omega), byte _ y (by omega)]
  | case3 x =>
    have hx := x.toNat_lt
    rw [unpack, pack, byte _ x (by omega)]
  | case4 => rfl

/-- Letters are taken one by one; what follows is read as if they had been counted. -/
theorem scan_letters (ns : List Nat) (h : ∀ n ∈ ns, n < 64) (k : Nat) (cs : List Char) :
    scan k 0 false (ns.map letter ++ cs) =
      (scan (k + ns.length) 0 false cs).map (ns ++ ·) := by
  induction ns generalizing k with
  | nil =>
    show scan k 0 false cs = _
    cases scan k 0 false cs <;> rfl
  | cons n ns ih =>
    obtain ⟨hv, hne⟩ := value?_letter n (h n List.mem_cons_self)
    have hk : k + (n :: ns).length = k + 1 + ns.length := by
      rw [List.length_cons]
      omega
    rw [List.map_cons, List.cons_append, scan, if_neg hne, hv, hk,
      ih (fun m hm => h m (List.mem_cons_of_mem _ hm))]
    simp only [Bool.false_eq_true, if_false]
    cases scan (k + 1 + ns.length) 0 false cs <;> rfl

theorem length_unpack (bs : Bytes) : (unpack bs).length = (8 * bs.length + 5) / 6 := by
  induction bs using unpack.induct with
  | case1 x y z rest ih =>
    simp only [unpack, List.length_cons, ih]
    omega
  | case2 x y => simp [unpack]
  | case3 x => simp [unpack]
  | case4 => rfl

theorem scan_padding (bs : Bytes) : scan (unpack bs).length 0 false (padding bs) = .ok [] := by
  have h3 : bs.length % 3 = 0 ∨ bs.length % 3 = 1 ∨ bs.length % 3 = 2 := by omega
  rw [length_unpack, padding]
  rcases h3 with h | h | h
  · have hn : (8 * bs.length + 5) / 6 % 4 = 0 := by omega
    simp [h, scan, hn]
  · have hn : (8 * bs.length + 5) / 6 % 4 = 2 := by omega
    simp [h, List.replicate, scan, hn]
  · have hn : (8 * bs.length + 5) / 6 % 4 = 3 := by omega
    simp [h, scan, hn]

theorem scan_encode (bs : Bytes) : scan 0 0 false (encode bs) = .ok (unpack bs) := by
  rw [encode, scan_letters _ (fun _ hn => lt_of_mem_unpack hn), Nat.zero_add, scan_padding]
  simp [Except.map]

theorem ascii_of_mem_encode {bs : Bytes} {c : Char} (h : c ∈ encode bs) : c.toNat < 128 := by
  rcases List.mem_append.1 h with h | h
  · obtain ⟨n, hn, rfl⟩ := List.mem_map.1 h
    exact ascii_letter n (lt_of_mem_unpack hn)
  · rw [(List.mem_replicate.1 h).2]
    decide

theorem head?_encode_ne (bs : Bytes) : (encode bs).head? ≠ some '=' := by
  have letter_ne (n : Nat) (ns : List Nat) (cs : List Char) (h : n < 64) :
      ((n :: ns).map letter ++ cs).head? ≠ some '=' := by
    intro he
    exact (value?_letter n h).2 (Option.some.inj he)
  cases hu : unpack bs with
  | nil =>
    have hl := length_unpack bs
    rw [hu] at hl
    have h0 : bs = [] := List.eq_nil_of_length_eq_zero (by simp only [List.length_nil] at hl; omega)
    rw [h0]
    decide
  | cons n ns =>
    rw [encode, hu]
    exact letter_ne n ns _ (lt_of_mem_unpack (hu ▸ List.mem_cons_self))

/-- Reading what was written gives the bytes back. -/
theorem decode_encode (bs : Bytes) : decode (encode bs) = .ok bs := by
  have h : (encode bs).any (128 ≤ ·.toNat) = false := by
    rw [List.any_eq_false]
    intro c hc
    have := ascii_of_mem_encode hc
    simp only [decide_eq_true_eq]
    omega
  rw [decode, h, if_neg (by simp), if_neg (head?_encode_ne bs), scan_encode]
  show Except.ok (pack (unpack bs)) = _
  rw [pack_unpack]

end SecurityDescriptor.Base64
