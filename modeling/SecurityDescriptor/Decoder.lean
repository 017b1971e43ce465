import SecurityDescriptor.Bytes
import SecurityDescriptor.Error
import SecurityDescriptor.Trace

/-!
# Decoders

A decoder reads from a cursor: a position in a byte stream and the bytes from there
on.  A run gives a value or an error, the cursor it leaves and the events it reported.
An error undoes nothing: what was read stays read and what was reported stays reported.

The one primitive read is `readBlock n`, for a size `n` that the layout of a record tells.  With
`n` bytes left it takes them; with fewer it fails, and takes those that are there.  Sizes from
elsewhere, which may be any number, are those of `readExact`.

    n ≤ c.rest.length → (readBlock n what c).cursor = c.advance n      (readBlock_of_le)
    c.rest.length < n → (readBlock n what c).cursor = c.finish         (readBlock_of_lt)
-/

namespace SecurityDescriptor

/-! ## Cursors -/

/-- The numbers that a stream counts with: signed ones of 64 bits. -/
def IsIndex (n : Int) : Prop := -0x8000000000000000 ≤ n ∧ n < 0x8000000000000000

instance : DecidablePred IsIndex := fun _ => inferInstanceAs (Decidable (_ ∧ _))

/-- A place in a byte stream. -/
structure Cursor where
  /-- The number of bytes in front. -/
  pos : Nat
  /-- The bytes from here on. -/
  rest : Bytes
deriving DecidableEq

namespace Cursor

/-- Position `p` of a stream; past the end nothing is left. -/
def seek (data : Bytes) (p : Nat) : Cursor := ⟨p, data.drop p⟩

/-- The start of a stream. -/
def start (data : Bytes) : Cursor := ⟨0, data⟩

/-- The cursor `n` bytes further on. -/
def advance (c : Cursor) (n : Nat) : Cursor := ⟨c.pos + n, c.rest.drop n⟩

/-- The cursor behind the last byte. -/
def finish (c : Cursor) : Cursor := ⟨c.pos + c.rest.length, []⟩

end Cursor

/-! ## Runs -/

/-- How a decode ended. -/
structure Run (α : Type) where
  result : Except DecodeError α
  cursor : Cursor
  trace : List Event

/-- A computation that reads from a cursor, reports events and may fail. -/
def Decoder (α : Type) : Type := Cursor → Run α

namespace Decoder

variable {α β : Type}

/-- Gives `a` and reads nothing. -/
protected def pure (a : α) : Decoder α := fun c => ⟨.ok a, c, []⟩

/-- Goes on with `f` unless `d` fails. -/
protected def bind (d : Decoder α) (f : α → Decoder β) : Decoder β := fun c =>
  match d c with
  | ⟨.error e, c', t⟩ => ⟨.error e, c', t⟩
  | ⟨.ok a, c', t⟩ =>
    let r := f a c'
    ⟨r.result, r.cursor, t ++ r.trace⟩

instance : Monad Decoder where
  pure := Decoder.pure
  bind := Decoder.bind

/-- Fails with `e`. -/
def fail (e : DecodeError) : Decoder α := fun c => ⟨.error e, c, []⟩

/-- Reports `e`. -/
def report (e : Event) : Decoder Unit := fun c => ⟨.ok (), c, [e]⟩

/-- The present position. -/
def position : Decoder Nat := fun c => ⟨.ok c.pos, c, []⟩

/-- Takes all that is left. -/
def readRest : Decoder Bytes := fun c => ⟨.ok c.rest, c.finish, []⟩

/-- Takes `n` bytes; `what` names the field in the error. -/
def readBlock (n : Nat) (what : Option String) : Decoder (Block n) := fun c =>
  if h : n ≤ c.rest.length then
    ⟨.ok ⟨c.rest.take n, List.length_take_of_le h⟩, c.advance n, []⟩
  else ⟨.error (.insufficientData n c.rest.length what), c.finish, []⟩

/-- Takes as many bytes as a size tells that the stream can count.  No number of bytes is
negative, so a negative size takes all that is left and fails. -/
def readCounted (size : Int) (what : Option String) : Decoder Bytes :=
  match size with
  | .ofNat n => Block.bytes <$> readBlock n what
  | .negSucc _ => fun c => ⟨.error (.insufficientData size c.rest.length what), c.finish, []⟩

/-- Takes as many bytes as a size tells.  A size that the stream cannot count is refused, and
nothing is taken. -/
def readExact (size : Int) (what : Option String) : Decoder Bytes :=
  if IsIndex size then readCounted size what else fail .sizeOverflow

/-- The number in as many bytes as a size tells. -/
def readUInt (size : Int) (what : Option String) : Decoder Nat :=
  Bytes.toNatLE <$> readExact size what

/-- An 8-bit field. -/
def readUInt8 (what : String) : Decoder UInt8 :=
  (fun b => UInt8.ofNat b.bytes.toNatLE) <$> readBlock 1 (some what)

/-- A 16-bit field. -/
def readUInt16 (what : String) : Decoder UInt16 :=
  (fun b => UInt16.ofNat b.bytes.toNatLE) <$> readBlock 2 (some what)

/-- A 32-bit field. -/
def readUInt32 (what : String) : Decoder UInt32 :=
  (fun b => UInt32.ofNat b.bytes.toNatLE) <$> readBlock 4 (some what)

/-- Runs `d` `n` times. -/
def replicate (d : Decoder α) : (n : Nat) → Decoder { xs : List α // xs.length = n }
  | 0 => pure ⟨[], rfl⟩
  | n + 1 => do
    let x ← d
    let ⟨xs, h⟩ ← replicate d n
    pure ⟨x :: xs, congrArg (· + 1) h⟩

/-- Runs `d` if the field is announced. -/
def optional (announced : Bool) (d : Decoder α) :
    Decoder { x : Option α // x.isSome = announced } :=
  match announced with
  | true => (fun x => ⟨some x, rfl⟩) <$> d
  | false => pure ⟨none, rfl⟩

/-- Runs `d` on bytes of its own, from their start, and stays where it is. -/
def within (data : Bytes) (d : Decoder α) : Decoder α := fun c =>
  let r := d (.start data)
  ⟨r.result, c, r.trace⟩

/-! ## Lemmas -/

@[simp] theorem pure_apply (a : α) (c : Cursor) : (pure a : Decoder α) c = ⟨.ok a, c, []⟩ := rfl

theorem bind_of_ok {d : Decoder α} {c c' : Cursor} {a : α} {t : List Event}
    (h : d c = ⟨.ok a, c', t⟩) (f : α → Decoder β) :
    (d >>= f) c = ⟨(f a c').result, (f a c').cursor, t ++ (f a c').trace⟩ := by
  show Decoder.bind d f c = _
  simp [Decoder.bind, h]

theorem bind_of_error {d : Decoder α} {c c' : Cursor} {e : DecodeError} {t : List Event}
    (h : d c = ⟨.error e, c', t⟩) (f : α → Decoder β) : (d >>= f) c = ⟨.error e, c', t⟩ := by
  show Decoder.bind d f c = _
  simp [Decoder.bind, h]

theorem position_bind (f : Nat → Decoder α) (c : Cursor) : (position >>= f) c = f c.pos c :=
  bind_of_ok (show position c = ⟨.ok c.pos, c, []⟩ from rfl) f

theorem report_bind (e : Event) (f : Unit → Decoder α) (c : Cursor) :
    (report e >>= f) c = ⟨(f () c).result, (f () c).cursor, e :: (f () c).trace⟩ :=
  bind_of_ok (show report e c = ⟨.ok (), c, [e]⟩ from rfl) f

theorem bind_result_of_error {d : Decoder α} {c : Cursor} {e : DecodeError}
    (h : (d c).result = .error e) (f : α → Decoder β) :
    ((d >>= f) c).result = .error e := by
  rcases hd : d c with ⟨r, c', t⟩
  rw [hd] at h
  obtain rfl : r = .error e := h
  rw [bind_of_error hd]

theorem bind_assoc {γ : Type} (d : Decoder α) (f : α → Decoder β) (g : β → Decoder γ) :
    d >>= f >>= g = d >>= fun a => f a >>= g := by
  funext c
  rcases hd : d c with ⟨e | a, c', t⟩
  · rw [bind_of_error hd, bind_of_error (bind_of_error hd f)]
  · rw [bind_of_ok hd]
    rcases hf : f a c' with ⟨e | b, c'', t'⟩
    · rw [bind_of_error hf]
      exact bind_of_error (by rw [bind_of_ok hd, hf]) g
    · rw [bind_of_ok hf, bind_of_ok (by rw [bind_of_ok hd, hf]) g, List.append_assoc]

instance : LawfulMonad Decoder := LawfulMonad.mk' Decoder
  (by
    intro α d
    funext c
    show Decoder.bind d _ c = _
    rcases h : d c with ⟨e | a, c', t⟩ <;> simp [Decoder.bind, h, Decoder.pure])
  (by
    intro α β a f
    funext c
    exact bind_of_ok (pure_apply a c) f)
  (fun d f g => bind_assoc d f g)

/-- A sequence succeeds where its first part does and the rest does from there on. -/
theorem bind_eq_ok_iff {d : Decoder α} {f : α → Decoder β} {c : Cursor} {b : β} :
    ((d >>= f) c).result = .ok b ↔
      ∃ a, (d c).result = .ok a ∧ (f a (d c).cursor).result = .ok b := by
  rcases hd : d c with ⟨e | a, c', t⟩
  · simp [bind_of_error hd]
  · simp [bind_of_ok hd]

theorem map_apply (f : α → β) (d : Decoder α) (c : Cursor) :
    (f <$> d) c = ⟨(d c).result.map f, (d c).cursor, (d c).trace⟩ := by
  rw [map_eq_pure_bind]
  rcases hrun : d c with ⟨e | a, c', t⟩
  · exact bind_of_error hrun _
  · rw [bind_of_ok hrun, pure_apply, List.append_nil]
    rfl

theorem map_eq_error_iff {f : α → β} {d : Decoder α} {c : Cursor} {e : DecodeError} :
    ((f <$> d) c).result = .error e ↔ (d c).result = .error e := by
  rw [map_apply]
  cases (d c).result <;> simp [Except.map]

theorem map_eq_ok_iff {d : Decoder α} {f : α → β} {c : Cursor} {b : β} :
    ((f <$> d) c).result = .ok b ↔ ∃ a, (d c).result = .ok a ∧ b = f a := by
  rw [map_eq_pure_bind, bind_eq_ok_iff]
  simp [eq_comm]

theorem readExact_of_isIndex {size : Int} (h : IsIndex size) (what : Option String) :
    readExact size what = readCounted size what := if_pos h

theorem readExact_of_not_isIndex {size : Int} (h : ¬IsIndex size) (what : Option String) :
    readExact size what = fail .sizeOverflow := if_neg h

/-- With enough bytes left a read takes the first `n`. -/
theorem readBlock_of_le {n : Nat} {c : Cursor} (what : Option String) (h : n ≤ c.rest.length) :
    readBlock n what c = ⟨.ok ⟨c.rest.take n, List.length_take_of_le h⟩, c.advance n, []⟩ :=
  dif_pos h

/-- With too few bytes left a read fails and takes them. -/
theorem readBlock_of_lt {n : Nat} {c : Cursor} (what : Option String) (h : c.rest.length < n) :
    readBlock n what c = ⟨.error (.insufficientData n c.rest.length what), c.finish, []⟩ :=
  dif_neg (by omega)

end Decoder

end SecurityDescriptor
