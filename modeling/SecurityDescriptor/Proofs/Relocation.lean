import SecurityDescriptor.Proofs.Reading

/-!
# Decoding further on in a stream

A decoder sees the bytes ahead of it and the number of those behind it.  Only the difference of
two such numbers ever decides anything, and only the events about entries show one.  So a decode
at `p` is the decode of the bytes from there on as a stream of their own, with `p` added to the
cursor's position and to the offsets of those events:

    ShiftsBy p d d' ↔ d' (c.shift p) = (d c).shift p
    k ≠ .descriptor → ShiftsBy p (k.decoder mode) (k.decoder mode)      (Kind.shiftsBy_decoder)

A report tells a position, so the two runs are runs of two decoders, and the law is one about
pairs.  A descriptor stands on bytes of its own, and its events count from these.
-/

namespace SecurityDescriptor

/-- The same place in a stream with `p` bytes more in front. -/
def Cursor.shift (p : Nat) (c : Cursor) : Cursor := ⟨c.pos + p, c.rest⟩

theorem Cursor.seek_eq_shift (data : Bytes) (p : Nat) :
    seek data p = (start (data.drop p)).shift p := by
  rw [seek, start, shift, Nat.zero_add]

variable {α β : Type}

/-- The same run in a stream with `p` bytes more in front. -/
def Run.shift (p : Nat) (r : Run α) : Run α :=
  ⟨r.result, r.cursor.shift p, r.trace.map (Event.shift p)⟩

open Decoder

/-- With `p` bytes more in front `d'` does what `d` does. -/
def ShiftsBy (p : Nat) (d d' : Decoder α) : Prop := ∀ c, d' (c.shift p) = (d c).shift p

namespace ShiftsBy

variable {p : Nat}

/-! ## Closure -/

theorem pure (a : α) : ShiftsBy p (pure a) (pure a) := fun _ => rfl

theorem fail (e : DecodeError) : ShiftsBy p (fail e : Decoder α) (fail e) := fun _ => rfl

theorem report (e : Event) : ShiftsBy p (report e) (report (e.shift p)) := fun _ => rfl

theorem bind {d d' : Decoder α} {f f' : α → Decoder β} (hd : ShiftsBy p d d')
    (hf : ∀ a, ShiftsBy p (f a) (f' a)) : ShiftsBy p (d >>= f) (d' >>= f') := by
  intro c
  have hc := hd c
  rcases hrun : d c with ⟨e | a, c', t⟩
  · rw [hrun] at hc
    rw [bind_of_error hrun]
    exact bind_of_error hc f'
  · rw [hrun] at hc
    rw [bind_of_ok hrun, bind_of_ok hc, hf a c']
    simp [Run.shift]

theorem map {d d' : Decoder α} (hd : ShiftsBy p d d') (f : α → β) :
    ShiftsBy p (f <$> d) (f <$> d') := by
  rw [map_eq_pure_bind, map_eq_pure_bind]
  exact hd.bind fun a => .pure (f a)

/-- The position is the one thing that the two decoders see differently. -/
theorem position_bind {f f' : Nat → Decoder α} (hf : ∀ n, ShiftsBy p (f n) (f' (n + p))) :
    ShiftsBy p (position >>= f) (position >>= f') := by
  intro c
  rw [Decoder.position_bind, Decoder.position_bind]
  exact hf c.pos c

theorem replicate {d : Decoder α} (h : ShiftsBy p d d) (n : Nat) :
    ShiftsBy p (replicate d n) (replicate d n) := by
  induction n with
  | zero => exact .pure _
  | succ n ih => exact h.bind fun _ => ih.bind fun _ => .pure _

/-- The number of bytes taken is a difference of positions. -/
theorem sized {d : Decoder α} (h : ShiftsBy p d d) (mode : Mode) (name : α → String)
    (declared : α → UInt16) :
    ShiftsBy p (mode.sized name declared d) (mode.sized name declared d) := by
  intro c
  have hc := h c
  rcases hrun : d c with ⟨e | a, c', t⟩
  · rw [hrun] at hc
    rw [Mode.sized_of_error hrun]
    exact Mode.sized_of_error hc
  · have hc' : d (c.shift p) = ⟨.ok a, c'.shift p, t.map (Event.shift p)⟩ := by
      rw [hc, hrun]
      rfl
    have hlen : (c'.shift p).pos - (c.shift p).pos = c'.pos - c.pos := Nat.add_sub_add_right ..
    rw [Mode.sized_of_ok hrun, Mode.sized_of_ok hc', hlen]
    split <;> rfl

end ShiftsBy

/-- Reads do not see where they stand. -/
theorem Decoder.Reading.shiftsBy {d : Decoder α} (h : Reading d) (p : Nat) : ShiftsBy p d d := by
  intro c
  rcases h.run_cases c.rest with ⟨a, n, -, hrun⟩ | ⟨needed, available, what, hrun⟩
  · have hc : d c = _ := hrun c.pos
    have hc' : d (c.shift p) = _ := hrun (c.pos + p)
    rw [hc, hc', Nat.add_right_comm]
    rfl
  · have hc : d c = _ := hrun c.pos
    have hc' : d (c.shift p) = _ := hrun (c.pos + p)
    rw [hc, hc', Nat.add_right_comm]
    rfl

theorem Decoder.shiftsBy_readExact (size : Int) (what : Option String) (p : Nat) :
    ShiftsBy p (readExact size what) (readExact size what) := by
  by_cases hi : IsIndex size
  · rw [readExact_of_isIndex hi]
    cases size with
    | ofNat n => exact ((Reading.readBlock n what).map _).shiftsBy p
    | negSucc n =>
      intro c
      have hend : (c.shift p).finish = c.finish.shift p := by
        simp only [Cursor.finish, Cursor.shift, Nat.add_right_comm]
      show Run.mk _ (c.shift p).finish [] = Run.mk _ (c.finish.shift p) []
      rw [hend]
      rfl
  · rw [readExact_of_not_isIndex hi]
    exact .fail _

/-! ## Records -/

theorem Ace.shiftsBy_body (p : Nat) : ShiftsBy p body body := by
  apply ShiftsBy.position_bind
  intro start
  apply (AceHeader.reading_decoder.shiftsBy p).bind
  intro h
  rcases form? h.aceType with _ | ⟨access, layout⟩
  · exact (ShiftsBy.report (.unsupportedAce h.aceType start)).bind fun _ => .fail _
  · exact ((Payload.reading_decoder layout).shiftsBy p).bind fun _ => .pure _

theorem Ace.shiftsBy_decoder (mode : Mode) (p : Nat) :
    ShiftsBy p (decoder mode) (decoder mode) :=
  (shiftsBy_body p).sized mode _ _

theorem Acl.shiftsBy_decoder (mode : Mode) (p : Nat) :
    ShiftsBy p (decoder mode) (decoder mode) := by
  apply ShiftsBy.sized
  apply (AclHeader.reading_decoder.shiftsBy p).bind
  intro h
  apply (ShiftsBy.report _).bind
  intro _
  exact ((Ace.shiftsBy_decoder mode p).replicate _).bind fun _ => .pure _

theorem Kind.shiftsBy_decoder {k : Kind} (hk : k ≠ .descriptor) (mode : Mode) (p : Nat) :
    ShiftsBy p (k.decoder mode) (k.decoder mode) := by
  cases k with
  | ace => exact (Ace.shiftsBy_decoder mode p).map _
  | acl => exact (Acl.shiftsBy_decoder mode p).map _
  | descriptor => exact absurd rfl hk
  | _ => exact (reading_decoder (by decide) mode).shiftsBy p

end SecurityDescriptor
