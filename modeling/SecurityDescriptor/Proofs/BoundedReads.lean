import SecurityDescriptor.Proofs.Numbers
import SecurityDescriptor.Proofs.Streams

/-!
# Reads of a given size

A read asks for a number of bytes, which may be any integer.  Of the numbers that a stream can
count, it has those that are not negative and for which so many bytes are left.  For others it
fails with the number asked for and the number left, and leaves nothing behind:

    0 ≤ size ≤ data.length - p → readExact size what takes data[p : p + size]
                                                                        (readExact_seek_of_fits)
    else → it fails and leaves the stream at max p data.length      (readExact_seek_of_not_fits)

A number that the stream cannot count is refused before anything is read
(`readExact_seek_of_not_isIndex`), so that such a read is not told how many bytes were left, and
does not take them.

A number is read from the same bytes, and is the one of which they are the little-endian form.
So reads one behind the other cut the stream into pieces without gaps (`Slices`), for a read that
fails leaves nothing to take or takes nothing.
-/

namespace SecurityDescriptor

open Decoder

/-! ## One read -/

/-- So many bytes are left of a stream at `p`. -/
def Fits (data : Bytes) (p : Nat) (size : Int) : Prop :=
  0 ≤ size ∧ size ≤ (data.length - p : Nat)

namespace Decoder

variable {data : Bytes} {p : Nat} {size : Int} (what : Option String)

theorem readExact_seek_of_fits (hi : IsIndex size) (h : Fits data p size) :
    readExact size what (.seek data p) =
      ⟨.ok ((data.drop p).take size.toNat), .seek data (p + size.toNat), []⟩ := by
  obtain ⟨h0, hle⟩ := h
  obtain ⟨n, rfl⟩ := Int.eq_ofNat_of_zero_le h0
  have hn : n ≤ (Cursor.seek data p).rest.length := by
    rw [Cursor.length_rest_seek]
    exact Int.ofNat_le.1 hle
  rw [readExact_of_isIndex hi]
  show (Block.bytes <$> readBlock n what) (.seek data p) = _
  rw [map_apply, readBlock_of_le what hn, Cursor.advance_seek]
  rfl

theorem readExact_seek_of_not_fits (hi : IsIndex size) (h : ¬Fits data p size) :
    readExact size what (.seek data p) =
      ⟨.error (.insufficientData size (data.length - p : Nat) what),
        .seek data (max p data.length), []⟩ := by
  have hleft := Cursor.length_rest_seek data p
  rw [readExact_of_isIndex hi]
  cases size with
  | ofNat n =>
    have hn : (Cursor.seek data p).rest.length < n := by
      rw [hleft]
      exact Nat.lt_of_not_le fun hle => h ⟨Int.natCast_nonneg n, Int.ofNat_le.2 hle⟩
    show (Block.bytes <$> readBlock n what) (.seek data p) = _
    rw [map_apply, readBlock_of_lt what hn, Cursor.finish_seek, hleft]
    rfl
  | negSucc n =>
    show Run.mk _ (Cursor.seek data p).finish [] = _
    rw [Cursor.finish_seek, hleft]

theorem readExact_seek_of_not_isIndex (hi : ¬IsIndex size) (c : Cursor) :
    readExact size what c = ⟨.error .sizeOverflow, c, []⟩ := by
  rw [readExact_of_not_isIndex hi]
  rfl

/-- A number is read as bytes are. -/
theorem readUInt_apply (size : Int) (c : Cursor) :
    readUInt size what c = ⟨(readExact size what c).result.map Bytes.toNatLE,
      (readExact size what c).cursor, (readExact size what c).trace⟩ := map_apply ..

theorem length_slice_of_fits (h : Fits data p size) :
    ((data.drop p).take size.toNat).length = size.toNat := by
  obtain ⟨h0, hle⟩ := h
  rw [List.length_take, List.length_drop]
  omega

end Decoder

/-! ## Reads one behind the other -/

/-- Byte strings that lie in a stream from `q` on, each one where the one before ends. -/
inductive Slices (data : Bytes) : Nat → List Bytes → Prop where
  | nil (q : Nat) : Slices data q []
  | cons {q : Nat} {bs : Bytes} {bss : List Bytes} : bs = (data.drop q).take bs.length →
      Slices data (q + bs.length) bss → Slices data q (bs :: bss)

/-- Behind the end there are only empty slices, and these are found anywhere. -/
theorem Slices.of_length_le {data : Bytes} {q : Nat} {bss : List Bytes} (h : Slices data q bss)
    (hq : data.length ≤ q) (q' : Nat) : Slices data q' bss := by
  induction h generalizing q' with
  | nil => exact .nil q'
  | @cons q bs bss hbs _ ih =>
    rw [List.drop_of_length_le hq, List.take_nil] at hbs
    subst hbs
    exact .cons (by simp) (ih (by simpa using hq) _)

namespace Step

/-- Reads bytes or a number. -/
def isRead : Step → Bool
  | readExact _ _ | readUInt _ _ => true
  | _ => false

/-- The bytes that a read gave.  A number was read from its little-endian form. -/
def taken? (s : Step) (r : Run Answer) : Option Bytes :=
  match s, r.result with
  | readExact _ _, .ok (.bytes bs) => some bs
  | readUInt size _, .ok (.number v) => some (Bytes.ofNatLE size.toNat v)
  | _, _ => none

/-- The bytes that the reads of a sequence gave, in order. -/
def taken : List Step → List (Run Answer) → List Bytes
  | s :: ss, r :: rs => (s.taken? r).toList ++ taken ss rs
  | _, _ => []

/-- Where steps leave the stream. -/
def after (data : Bytes) : Cursor → List Step → Cursor
  | c, [] => c
  | c, s :: ss => after data (s.run data c).cursor ss

theorem runAll_append (data : Bytes) (c : Cursor) (xs ys : List Step) :
    runAll data c (xs ++ ys) = runAll data c xs ++ runAll data (after data c xs) ys := by
  induction xs generalizing c with
  | nil => rfl
  | cons s ss ih => exact congrArg (s.run data c :: ·) (ih _)

theorem exists_after_eq_seek (data : Bytes) (p : Nat) (steps : List Step) :
    ∃ q, after data (.seek data p) steps = .seek data q := by
  induction steps generalizing p with
  | nil => exact ⟨p, rfl⟩
  | cons s ss ih =>
    obtain ⟨q, hq⟩ := exists_cursor_run s data p
    rw [after, hq]
    exact ih q

/-- A read gives the bytes that it passes, or fails and leaves the stream at the end, or is
refused. -/
theorem run_of_isRead {s : Step} (hs : s.isRead = true) (data : Bytes) (q : Nat) :
    (∃ bs, s.taken? (s.run data (.seek data q)) = some bs ∧
      bs = (data.drop q).take bs.length ∧
      (s.run data (.seek data q)).cursor = .seek data (q + bs.length)) ∨
    (s.taken? (s.run data (.seek data q)) = none ∧
      ((s.run data (.seek data q)).cursor = .seek data (max q data.length) ∨
        (s.run data (.seek data q)).cursor = .seek data q)) := by
  cases s with
  | readExact size what =>
    rw [run, map_apply]
    by_cases hi : IsIndex size
    · by_cases h : Fits data q size
      · have hlen := length_slice_of_fits h
        rw [readExact_seek_of_fits what hi h]
        exact .inl ⟨_, rfl, by rw [hlen], by rw [hlen]⟩
      · rw [readExact_seek_of_not_fits what hi h]
        exact .inr ⟨rfl, .inl rfl⟩
    · rw [readExact_seek_of_not_isIndex what hi]
      exact .inr ⟨rfl, .inr rfl⟩
  | readUInt size what =>
    rw [run, map_apply, readUInt_apply]
    by_cases hi : IsIndex size
    · by_cases h : Fits data q size
      · have hlen := length_slice_of_fits h
        have hback := Bytes.ofNatLE_toNatLE ((data.drop q).take size.toNat)
        rw [hlen] at hback
        rw [readExact_seek_of_fits what hi h]
        exact .inl ⟨_, congrArg some hback, by rw [hlen], by rw [hlen]⟩
      · rw [readExact_seek_of_not_fits what hi h]
        exact .inr ⟨rfl, .inl rfl⟩
    · rw [readExact_seek_of_not_isIndex what hi]
      exact .inr ⟨rfl, .inr rfl⟩
  | seek pos => cases hs
  | decode kind mode => cases hs

/-- What reads give is cut from the stream piece by piece. -/
theorem slices_taken {reads : List Step} (h : ∀ s ∈ reads, s.isRead = true) (data : Bytes)
    (q : Nat) : Slices data q (taken reads (runAll data (.seek data q) reads)) := by
  induction reads generalizing q with
  | nil => exact .nil q
  | cons s ss ih =>
    have hrest := ih fun t ht => h t (List.mem_cons_of_mem s ht)
    rw [runAll, taken]
    rcases run_of_isRead (h s List.mem_cons_self) data q with
      ⟨bs, htaken, hbs, hcursor⟩ | ⟨htaken, hcursor | hcursor⟩
    · rw [htaken, hcursor]
      exact .cons hbs (hrest _)
    · rw [htaken, hcursor]
      exact (hrest _).of_length_le (Nat.le_max_right ..) q
    · rw [htaken, hcursor]
      exact hrest q

end Step

/-- **Reads are bounded by what is left.**  At any place of a stream a read of a size that the
stream can count succeeds exactly if so many bytes are left, and gives them; a number is read where
its bytes are, and is the one number of which they are the little-endian form.  Else the read fails
with the size asked for and the number of bytes left, and none are left behind it.  A size that the
stream cannot count is refused, and the stream stays where it is.  In a sequence of steps the reads
between two others give consecutive pieces of the stream, from the place on that the steps before
left it at. -/
theorem Step.bounded_reads (data : Bytes) (p : Nat) :
    (∀ (size : Int) (what : Option String), IsIndex size → Fits data p size →
      Decoder.readExact size what (.seek data p) =
        ⟨.ok ((data.drop p).take size.toNat), .seek data (p + size.toNat), []⟩ ∧
      ∃ v, Decoder.readUInt size what (.seek data p) = ⟨.ok v, .seek data (p + size.toNat), []⟩ ∧
        ∀ w, w = v ↔ w < 256 ^ size.toNat ∧
          Bytes.ofNatLE size.toNat w = (data.drop p).take size.toNat) ∧
    (∀ (size : Int) (what : Option String), IsIndex size → ¬Fits data p size →
      Decoder.readExact size what (.seek data p) =
        ⟨.error (.insufficientData size (data.length - p : Nat) what),
          .seek data (max p data.length), []⟩ ∧
      Decoder.readUInt size what (.seek data p) =
        ⟨.error (.insufficientData size (data.length - p : Nat) what),
          .seek data (max p data.length), []⟩) ∧
    (∀ (size : Int) (what : Option String), ¬IsIndex size →
      Decoder.readExact size what (.seek data p) = ⟨.error .sizeOverflow, .seek data p, []⟩ ∧
      Decoder.readUInt size what (.seek data p) = ⟨.error .sizeOverflow, .seek data p, []⟩) ∧
    ∀ before reads behind : List Step, (∀ s ∈ reads, s.isRead = true) →
      ∃ q, after data (.seek data p) before = .seek data q ∧
        runAll data (.seek data p) (before ++ reads ++ behind) =
          runAll data (.seek data p) before ++ runAll data (.seek data q) reads ++
            runAll data (after data (.seek data q) reads) behind ∧
        Slices data q (taken reads (runAll data (.seek data q) reads)) := by
  refine ⟨?_, ?_, ?_, ?_⟩
  · intro size what hi h
    have hread := readExact_seek_of_fits what hi h
    refine ⟨hread, _, by rw [readUInt_apply, hread]; rfl, fun w => ?_⟩
    have hlen := length_slice_of_fits h
    constructor
    · rintro rfl
      have hlt := Bytes.toNatLE_lt ((data.drop p).take size.toNat)
      have hback := Bytes.ofNatLE_toNatLE ((data.drop p).take size.toNat)
      rw [hlen] at hlt hback
      exact ⟨hlt, hback⟩
    · rintro ⟨hlt, hback⟩
      rw [← hback, Bytes.toNatLE_ofNatLE, Nat.mod_eq_of_lt hlt]
  · intro size what hi h
    have hread := readExact_seek_of_not_fits what hi h
    refine ⟨hread, ?_⟩
    rw [readUInt_apply, hread]
    rfl
  · intro size what hi
    have hread := readExact_seek_of_not_isIndex what hi (.seek data p)
    refine ⟨hread, ?_⟩
    rw [readUInt_apply, hread]
    rfl
  · intro before reads behind h
    obtain ⟨q, hq⟩ := exists_after_eq_seek data p before
    refine ⟨q, hq, ?_, slices_taken h data q⟩
    rw [List.append_assoc, runAll_append, runAll_append, hq, List.append_assoc]

/-- One byte is left and 2 ^ 63 are asked for.  The read fails, but not for lack of bytes, and does
not take the one that is there. -/
theorem Decoder.readExact_overflow :
    let size : Int := 0x8000000000000000
    let run := Decoder.readExact size none (.seek [0] 0)
    ¬Fits [0] 0 size ∧ run = ⟨.error .sizeOverflow, .seek [0] 0, []⟩ ∧
      run ≠ ⟨.error (.insufficientData size 1 none), .seek [0] (max 0 1), []⟩ := by
  intro size run
  have hrun : run = ⟨.error .sizeOverflow, .seek [0] 0, []⟩ :=
    readExact_seek_of_not_isIndex none (by decide) _
  refine ⟨?_, hrun, ?_⟩
  · rintro ⟨-, hle⟩
    exact absurd hle (by decide)
  · rw [hrun]
    intro h
    exact absurd (congrArg (·.cursor.pos) h) (by decide)

/-- The second read fails and takes the rest with it. -/
example :
    let reads : List Step := [.readExact 2 none, .readExact 9 none, .readUInt 0 none]
    Step.taken reads (Step.runAll [1, 2, 3] (.seek [1, 2, 3] 0) reads) = [[1, 2], []] := by
  decide +kernel

end SecurityDescriptor
