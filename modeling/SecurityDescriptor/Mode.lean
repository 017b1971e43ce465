import SecurityDescriptor.Decoder

/-!
# Lenient and strict decoding

ACLs and their entries carry a size field.  Lenient decoding keeps it as information;
strict decoding wants it to be the number of bytes that the record took.
-/

namespace SecurityDescriptor

/-- Whether size fields are checked. -/
inductive Mode where
  | lenient
  | strict
deriving DecidableEq, Repr

/-- A value given for the strict switch. -/
inductive Switch where
  /-- A truth value. -/
  | flag (on : Bool)
  /-- Anything else, as text. -/
  | value (text : String)
deriving DecidableEq, Repr

namespace Mode

/-- Only the truth value `true` makes decoding strict. -/
def ofSwitch : Switch → Mode
  | .flag true => strict
  | _ => lenient

/-- Runs `d`, and in strict mode compares what its record declares with the bytes that
`d` took. -/
def sized {α : Type} (mode : Mode) (name : α → String) (declared : α → UInt16)
    (d : Decoder α) : Decoder α := do
  let start ← Decoder.position
  let x ← d
  let stop ← Decoder.position
  if mode = strict ∧ stop - start ≠ (declared x).toNat then
    Decoder.fail (.sizeMismatch (name x) (declared x).toNat (stop - start : Nat))
  else pure x

variable {α : Type} {name : α → String} {declared : α → UInt16} {d : Decoder α}
  {c c' : Cursor} {t : List Event}

theorem sized_of_error {mode : Mode} {e : DecodeError} (h : d c = ⟨.error e, c', t⟩) :
    mode.sized name declared d c = ⟨.error e, c', t⟩ := by
  rw [sized, Decoder.position_bind, Decoder.bind_of_error h]

theorem sized_of_ok {mode : Mode} {a : α} (h : d c = ⟨.ok a, c', t⟩) :
    mode.sized name declared d c =
      if mode = strict ∧ c'.pos - c.pos ≠ (declared a).toNat then
        ⟨.error (.sizeMismatch (name a) (declared a).toNat (c'.pos - c.pos : Nat)), c', t⟩
      else ⟨.ok a, c', t⟩ := by
  rw [sized, Decoder.position_bind, Decoder.bind_of_ok h, Decoder.position_bind]
  split <;> simp [Decoder.fail]

/-- A check reports nothing. -/
theorem trace_sized (mode : Mode) (name : α → String) (declared : α → UInt16) (d : Decoder α)
    (c : Cursor) : (mode.sized name declared d c).trace = (d c).trace := by
  rcases h : d c with ⟨e | a, c', t⟩
  · rw [sized_of_error h]
  · rw [sized_of_ok h]
    split <;> rfl

/-- Lenient decoding does not look at a record's size field. -/
theorem sized_lenient (name : α → String) (declared : α → UInt16) (d : Decoder α) :
    lenient.sized name declared d = d := by
  funext c
  rcases h : d c with ⟨e | a, c', t⟩
  · rw [sized_of_error h]
  · rw [sized_of_ok h, if_neg (by simp)]

end Mode

end SecurityDescriptor
