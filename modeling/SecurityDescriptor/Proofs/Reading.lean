import SecurityDescriptor.Record

/-!
# Decoders that only read

Most decoders below entries and ACLs are nothing but reads, one behind the other.  Where such a
decoder stands in a stream does not matter to it, it reports nothing, and it has two endings: it
takes some bytes, or it runs out of bytes and has taken all there were.

    Reading d → d takes a value wherever it starts, or is short of bytes     (Reading.run_cases)

Headers are as many bytes whatever these are, so the length alone tells the ending:

    ReadsLength n d → (d succeeds ↔ n ≤ c.rest.length)
-/

namespace SecurityDescriptor

/-! ## Cursors -/

namespace Cursor

theorem finish_eq_advance (c : Cursor) : c.finish = c.advance c.rest.length := by
  simp [finish, advance]

theorem length_rest_advance (c : Cursor) (n : Nat) :
    (c.advance n).rest.length = c.rest.length - n := List.length_drop

theorem advance_advance (c : Cursor) (m n : Nat) :
    (c.advance m).advance n = c.advance (m + n) := by
  simp [advance, Nat.add_assoc]

theorem finish_advance {c : Cursor} {n : Nat} (hn : n ≤ c.rest.length) :
    (c.advance n).finish = c.finish := by
  rw [finish_eq_advance, finish_eq_advance, length_rest_advance, advance_advance]
  congr 1
  omega

theorem advance_seek (data : Bytes) (p n : Nat) :
    (seek data p).advance n = seek data (p + n) := by
  simp [advance, seek]

theorem length_rest_seek (data : Bytes) (p : Nat) :
    (seek data p).rest.length = data.length - p := List.length_drop

theorem finish_seek (data : Bytes) (p : Nat) :
    (seek data p).finish = seek data (max p data.length) := by
  rw [finish_eq_advance, advance_seek, length_rest_seek]
  rcases Nat.le_total p data.length with h | h
  · rw [Nat.max_eq_right h, Nat.add_sub_of_le h]
  · rw [Nat.max_eq_left h, Nat.sub_eq_zero_of_le h, Nat.add_zero]

end Cursor

namespace Decoder

variable {α β : Type}

/-! ## Reads one behind the other -/

/-- A decoder that is put together from reads alone. -/
inductive Reading : {α : Type} → Decoder α → Prop where
  | pure {α : Type} (a : α) : Reading (pure a)
  | readBlock (n : Nat) (what : Option String) : Reading (readBlock n what)
  | bind {α β : Type} {d : Decoder α} {f : α → Decoder β} (hd : Reading d)
      (hf : ∀ a, Reading (f a)) : Reading (d >>= f)

namespace Reading

theorem map {d : Decoder α} (h : Reading d) (f : α → β) : Reading (f <$> d) := by
  rw [map_eq_pure_bind]
  exact h.bind fun a => .pure (f a)

theorem readUInt8 (what : String) : Reading (readUInt8 what) := (readBlock 1 _).map _

theorem readUInt16 (what : String) : Reading (readUInt16 what) := (readBlock 2 _).map _

theorem readUInt32 (what : String) : Reading (readUInt32 what) := (readBlock 4 _).map _

theorem replicate {d : Decoder α} (h : Reading d) (n : Nat) : Reading (replicate d n) := by
  induction n with
  | zero => exact .pure _
  | succ n ih => exact h.bind fun _ => ih.bind fun _ => .pure _

theorem optional {d : Decoder α} (h : Reading d) (announced : Bool) :
    Reading (optional announced d) := by
  cases announced with
  | false => exact .pure _
  | true => exact h.map _

/-- The two endings of reads, the same at every position. -/
theorem run_cases {d : Decoder α} (h : Reading d) (s : Bytes) :
    (∃ a n, n ≤ s.length ∧ ∀ p, d ⟨p, s⟩ = ⟨.ok a, ⟨p + n, s.drop n⟩, []⟩) ∨
    (∃ needed available what, ∀ p, d ⟨p, s⟩ =
      ⟨.error (.insufficientData needed available what), ⟨p + s.length, []⟩, []⟩) := by
  induction h generalizing s with
  | pure a => exact .inl ⟨a, 0, Nat.zero_le _, fun p => rfl⟩
  | readBlock n what =>
    rcases Nat.lt_or_ge s.length n with hlt | hle
    · exact .inr ⟨n, s.length, what, fun p => readBlock_of_lt what hlt⟩
    · exact .inl ⟨⟨s.take n, List.length_take_of_le hle⟩, n, hle, fun p => readBlock_of_le what hle⟩
  | @bind _ _ d f hd hf ihd ihf =>
    rcases ihd s with ⟨a, m, hm, hda⟩ | ⟨needed, available, what, hde⟩
    · -- the second part has its ending on the bytes behind those of the first
      rcases ihf a (s.drop m) with ⟨b, n, hn, hfb⟩ | ⟨needed, available, what, hfe⟩
      · rw [List.length_drop] at hn
        refine .inl ⟨b, m + n, by omega, fun p => ?_⟩
        rw [bind_of_ok (hda p), hfb, List.drop_drop, Nat.add_assoc]
        rfl
      · refine .inr ⟨needed, available, what, fun p => ?_⟩
        rw [bind_of_ok (hda p), hfe, List.length_drop]
        have hend : p + m + (s.length - m) = p + s.length := by omega
        rw [hend]
        rfl
    · exact .inr ⟨needed, available, what, fun p => bind_of_error (hde p) f⟩

theorem trace_eq_nil {d : Decoder α} (h : Reading d) (c : Cursor) : (d c).trace = [] := by
  rcases h.run_cases c.rest with ⟨a, n, -, hrun⟩ | ⟨_, _, _, hrun⟩
  · exact congrArg Run.trace (hrun c.pos)
  · exact congrArg Run.trace (hrun c.pos)

end Reading

/-! ## As many bytes whatever they are -/

/-- A decoder that takes `n` bytes, or all if there are fewer. -/
structure ReadsLength (n : Nat) (d : Decoder α) : Prop where
  of_le : ∀ c, n ≤ c.rest.length → ∃ a, d c = ⟨.ok a, c.advance n, []⟩
  of_lt : ∀ c, c.rest.length < n →
    ∃ needed available what,
      d c = ⟨.error (.insufficientData needed available what), c.finish, []⟩

namespace ReadsLength

theorem pure (a : α) : ReadsLength 0 (pure a) where
  of_le c _ := ⟨a, by simp [Cursor.advance]⟩
  of_lt c h := absurd h (Nat.not_lt_zero _)

theorem readBlock (n : Nat) (what : Option String) : ReadsLength n (readBlock n what) where
  of_le _ h := ⟨_, readBlock_of_le what h⟩
  of_lt _ h := ⟨_, _, _, readBlock_of_lt what h⟩

theorem bind {m n : Nat} {d : Decoder α} {f : α → Decoder β} (hd : ReadsLength m d)
    (hf : ∀ a, ReadsLength n (f a)) : ReadsLength (m + n) (d >>= f) where
  of_le := by
    intro c h
    obtain ⟨a, ha⟩ := hd.of_le c (by omega)
    obtain ⟨b, hb⟩ := (hf a).of_le (c.advance m) (by rw [Cursor.length_rest_advance]; omega)
    rw [bind_of_ok ha, hb, Cursor.advance_advance]
    exact ⟨b, rfl⟩
  of_lt := by
    intro c h
    rcases Nat.lt_or_ge c.rest.length m with hlt | hle
    · obtain ⟨needed, available, what, he⟩ := hd.of_lt c hlt
      exact ⟨needed, available, what, bind_of_error he f⟩
    · obtain ⟨a, ha⟩ := hd.of_le c hle
      obtain ⟨needed, available, what, he⟩ :=
        (hf a).of_lt (c.advance m) (by rw [Cursor.length_rest_advance]; omega)
      rw [bind_of_ok ha, he, Cursor.finish_advance hle]
      exact ⟨needed, available, what, rfl⟩

theorem map {n : Nat} {d : Decoder α} (h : ReadsLength n d) (f : α → β) :
    ReadsLength n (f <$> d) := by
  rw [map_eq_pure_bind]
  exact h.bind fun a => .pure (f a)

theorem readUInt8 (what : String) : ReadsLength 1 (readUInt8 what) := (readBlock 1 _).map _

theorem readUInt16 (what : String) : ReadsLength 2 (readUInt16 what) := (readBlock 2 _).map _

theorem readUInt32 (what : String) : ReadsLength 4 (readUInt32 what) := (readBlock 4 _).map _

end ReadsLength

end Decoder

open Decoder

/-! ## The decoders of records -/

theorem Authority.reading_decoder : Reading Authority.decoder := (Reading.readBlock 6 _).map _

theorem Sid.reading_decoder : Reading Sid.decoder :=
  (Reading.readUInt8 _).bind fun _ => (Reading.readUInt8 _).bind fun _ =>
    Authority.reading_decoder.bind fun _ => ((Reading.readUInt32 _).replicate _).bind fun _ =>
      .pure _

theorem Guid.reading_decoder : Reading Guid.decoder := (Reading.readBlock 16 _).map _

theorem AceHeader.reading_decoder : Reading AceHeader.decoder :=
  (Reading.readUInt8 _).bind fun _ => (Reading.readUInt8 _).bind fun _ =>
    (Reading.readUInt16 _).bind fun _ => .pure _

theorem PlainPayload.reading_decoder : Reading PlainPayload.decoder :=
  (Reading.readUInt32 _).bind fun _ => Sid.reading_decoder.bind fun _ => .pure _

theorem ObjectPayload.reading_decoder : Reading ObjectPayload.decoder :=
  (Reading.readUInt32 _).bind fun _ => (Reading.readUInt32 _).bind fun _ =>
    (Guid.reading_decoder.optional _).bind fun _ => (Guid.reading_decoder.optional _).bind fun _ =>
      Sid.reading_decoder.bind fun _ => .pure _

theorem Payload.reading_decoder (l : Layout) : Reading (Payload.decoder l) := by
  cases l with
  | plain => exact PlainPayload.reading_decoder.map _
  | object => exact ObjectPayload.reading_decoder.map _

theorem AclHeader.reading_decoder : Reading AclHeader.decoder :=
  (Reading.readUInt8 _).bind fun _ => (Reading.readUInt8 _).bind fun _ =>
    (Reading.readUInt16 _).bind fun _ => (Reading.readUInt16 _).bind fun _ =>
      (Reading.readUInt16 _).bind fun _ => .pure _

theorem Header.reading_decoder : Reading Header.decoder :=
  (Reading.readUInt8 _).bind fun _ => (Reading.readUInt8 _).bind fun _ =>
    (Reading.readUInt16 _).bind fun _ => (Reading.readUInt32 _).bind fun _ =>
      (Reading.readUInt32 _).bind fun _ => (Reading.readUInt32 _).bind fun _ =>
        (Reading.readUInt32 _).bind fun _ => .pure _

/-- Entries and lists of them check and report, and a descriptor goes back to its parts; all other
kinds only read. -/
theorem Kind.reading_decoder {k : Kind} (hk : k ∉ [.ace, .acl, .descriptor]) (mode : Mode) :
    Reading (k.decoder mode) := by
  cases k with
  | authority => exact Authority.reading_decoder.map _
  | sid => exact Sid.reading_decoder.map _
  | guid => exact Guid.reading_decoder.map _
  | aceHeader => exact AceHeader.reading_decoder.map _
  | plainPayload => exact PlainPayload.reading_decoder.map _
  | objectPayload => exact ObjectPayload.reading_decoder.map _
  | header => exact Header.reading_decoder.map _
  | _ => exact absurd hk (by decide)

theorem AceHeader.readsLength_decoder : ReadsLength 4 AceHeader.decoder :=
  (ReadsLength.readUInt8 _).bind fun _ => (ReadsLength.readUInt8 _).bind fun _ =>
    (ReadsLength.readUInt16 _).bind fun _ => .pure _

theorem AclHeader.readsLength_decoder : ReadsLength 8 AclHeader.decoder :=
  (ReadsLength.readUInt8 _).bind fun _ => (ReadsLength.readUInt8 _).bind fun _ =>
    (ReadsLength.readUInt16 _).bind fun _ => (ReadsLength.readUInt16 _).bind fun _ =>
      (ReadsLength.readUInt16 _).bind fun _ => .pure _

theorem Header.readsLength_decoder : ReadsLength 20 Header.decoder :=
  (ReadsLength.readUInt8 _).bind fun _ => (ReadsLength.readUInt8 _).bind fun _ =>
    (ReadsLength.readUInt16 _).bind fun _ => (ReadsLength.readUInt32 _).bind fun _ =>
      (ReadsLength.readUInt32 _).bind fun _ => (ReadsLength.readUInt32 _).bind fun _ =>
        (ReadsLength.readUInt32 _).bind fun _ => .pure _

end SecurityDescriptor
