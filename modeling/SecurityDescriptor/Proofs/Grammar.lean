import SecurityDescriptor.Proofs.Numbers

/-!
# Decoders as grammars

What a decoder accepts, said without its steps: `Recognizes d R` means that `d` gives `a`
and goes on behind `w` exactly when the bytes in front of it start with a `w` such that
`R a w`.  The relation is closed under the ways in which decoders are put together, so the
grammar of a record is read off its decoder field by field.

    Recognizes d R → (∀ a, Recognizes (f a) (S a)) →
      Recognizes (d >>= f) fun b w => ∃ a u v, R a u ∧ S a b v ∧ w = u ++ v   (Recognizes.bind)

`Reads d enc` is the case of one wire form for each value: `R a w` is `w = enc a`.
-/

namespace SecurityDescriptor

namespace Decoder

variable {α β : Type}

/-- `d` gives `a` and goes on behind `w` exactly if `R a w`, wherever it stands. -/
def Recognizes (d : Decoder α) (R : α → Bytes → Prop) : Prop :=
  ∀ p s a c, (d ⟨p, s⟩).result = .ok a ∧ (d ⟨p, s⟩).cursor = c ↔
    ∃ w rest, R a w ∧ s = w ++ rest ∧ c = ⟨p + w.length, rest⟩

/-- Every value has one wire form, and `d` takes exactly that. -/
def Reads (d : Decoder α) (enc : α → Bytes) : Prop := Recognizes d fun a w => w = enc a

/-! ## Closure -/

theorem Recognizes.congr {d : Decoder α} {R S : α → Bytes → Prop} (h : Recognizes d R)
    (hRS : ∀ a w, R a w ↔ S a w) : Recognizes d S := by
  have : R = S := funext fun a => funext fun w => propext (hRS a w)
  exact this ▸ h

theorem Recognizes.pure (a : α) : Recognizes (pure a) fun b w => b = a ∧ w = [] := by
  intro p s b c
  simp only [pure_apply, Except.ok.injEq]
  constructor
  · rintro ⟨rfl, rfl⟩
    exact ⟨[], s, ⟨rfl, rfl⟩, rfl, rfl⟩
  · rintro ⟨w, rest, ⟨rfl, rfl⟩, rfl, rfl⟩
    exact ⟨rfl, rfl⟩

theorem Recognizes.fail (e : DecodeError) :
    Recognizes (fail e : Decoder α) fun _ _ => False := by
  intro p s a c
  simp [Decoder.fail]

theorem Recognizes.bind {d : Decoder α} {f : α → Decoder β} {R : α → Bytes → Prop}
    {S : α → β → Bytes → Prop} (hd : Recognizes d R) (hf : ∀ a, Recognizes (f a) (S a)) :
    Recognizes (d >>= f) fun b w => ∃ a u v, R a u ∧ S a b v ∧ w = u ++ v := by
  intro p s b c
  constructor
  · intro h
    rcases hdc : d ⟨p, s⟩ with ⟨e | a, c', t⟩
    · rw [bind_of_error hdc] at h
      cases h.1
    · rw [bind_of_ok hdc] at h
      obtain ⟨u, r, hu, rfl, rfl⟩ := (hd p s a c').1 (by rw [hdc]; exact ⟨rfl, rfl⟩)
      obtain ⟨v, rest, hv, rfl, rfl⟩ := (hf a _ _ b c).1 h
      refine ⟨u ++ v, rest, ⟨a, u, v, hu, hv, rfl⟩, (List.append_assoc ..).symm, ?_⟩
      rw [List.length_append, Nat.add_assoc]
  · rintro ⟨w, rest, ⟨a, u, v, hu, hv, rfl⟩, rfl, rfl⟩
    have hdc := (hd p (u ++ v ++ rest) a ⟨p + u.length, v ++ rest⟩).2
      ⟨u, v ++ rest, hu, List.append_assoc .., rfl⟩
    have hfc := (hf a (p + u.length) (v ++ rest) b ⟨p + u.length + v.length, rest⟩).2
      ⟨v, rest, hv, rfl, rfl⟩
    rcases hrun : d ⟨p, u ++ v ++ rest⟩ with ⟨r, c', t⟩
    rw [hrun] at hdc
    obtain ⟨rfl, rfl⟩ := hdc
    rw [bind_of_ok hrun, List.length_append, ← Nat.add_assoc]
    exact hfc

/-- A field with one wire form stands in front of what follows it. -/
theorem Reads.bind {d : Decoder α} {f : α → Decoder β} {enc : α → Bytes}
    {S : α → β → Bytes → Prop} (hd : Reads d enc) (hf : ∀ a, Recognizes (f a) (S a)) :
    Recognizes (d >>= f) fun b w => ∃ a v, S a b v ∧ w = enc a ++ v := by
  apply (Recognizes.bind hd hf).congr
  intro b w
  constructor
  · rintro ⟨a, u, v, rfl, hv, rfl⟩
    exact ⟨a, v, hv, rfl⟩
  · rintro ⟨a, v, hv, rfl⟩
    exact ⟨a, enc a, v, rfl, hv, rfl⟩

theorem Recognizes.map {d : Decoder α} {R : α → Bytes → Prop} (h : Recognizes d R)
    (f : α → β) : Recognizes (f <$> d) fun b w => ∃ a, b = f a ∧ R a w := by
  rw [map_eq_pure_bind]
  apply (h.bind fun a => Recognizes.pure (f a)).congr
  intro b w
  constructor
  · rintro ⟨a, u, v, hu, ⟨rfl, rfl⟩, rfl⟩
    exact ⟨a, rfl, by rwa [List.append_nil]⟩
  · rintro ⟨a, rfl, hw⟩
    exact ⟨a, w, [], hw, ⟨rfl, rfl⟩, (List.append_nil w).symm⟩

/-- A report reads nothing. -/
theorem Recognizes.report (e : Event) {f : Unit → Decoder α} {R : α → Bytes → Prop}
    (h : Recognizes (f ()) R) : Recognizes (Decoder.report e >>= f) R := by
  intro p s a c
  rw [report_bind]
  exact h p s a c

/-- Asking for the position reads nothing. -/
theorem Recognizes.position {f : Nat → Decoder α} {R : α → Bytes → Prop}
    (h : ∀ n, Recognizes (f n) R) : Recognizes (position >>= f) R := by
  intro p s a c
  rw [position_bind]
  exact h p p s a c

/-! ## Fields -/

theorem reads_readBlock (n : Nat) (what : Option String) :
    Reads (readBlock n what) Block.bytes := by
  intro p s b c
  rcases Nat.lt_or_ge s.length n with hlt | hle
  · rw [readBlock_of_lt what hlt]
    constructor
    · rintro ⟨h, -⟩
      cases h
    · rintro ⟨w, rest, rfl, rfl, rfl⟩
      rw [List.length_append, b.length_bytes] at hlt
      omega
  · rw [readBlock_of_le what hle]
    constructor
    · rintro ⟨h, rfl⟩
      cases h
      refine ⟨_, s.drop n, rfl, (List.take_append_drop n s).symm, ?_⟩
      rw [List.length_take_of_le hle]
      rfl
    · rintro ⟨w, rest, rfl, rfl, rfl⟩
      have hb := b.length_bytes
      refine ⟨congrArg Except.ok (Block.ext (List.take_left' hb)), ?_⟩
      show Cursor.mk (p + n) ((b.bytes ++ rest).drop n) = _
      rw [List.drop_left' hb, hb]

/-- A field of `n` bytes and the values of a type, one for each. -/
theorem reads_map_readBlock {n : Nat} {dec : Block n → α} {enc : α → Bytes}
    (what : Option String) (hlen : ∀ x, (enc x).length = n)
    (h : ∀ b, enc (dec b) = b.bytes) (h' : ∀ x, dec ⟨enc x, hlen x⟩ = x) :
    Reads (dec <$> readBlock n what) enc := by
  apply ((reads_readBlock n what).map dec).congr
  intro x w
  constructor
  · rintro ⟨b, rfl, rfl⟩
    exact (h b).symm
  · rintro rfl
    exact ⟨⟨enc x, hlen x⟩, (h' x).symm, rfl⟩

theorem reads_readUInt8 (what : String) : Reads (readUInt8 what) Bytes.ofUInt8 := by
  apply reads_map_readBlock (some what) Bytes.length_ofUInt8
  · intro b
    exact Bytes.ofUInt8_ofNat b.length_bytes
  · intro x
    simp [Bytes.toNatLE, Bytes.ofUInt8]

theorem reads_readUInt16 (what : String) : Reads (readUInt16 what) Bytes.ofUInt16 :=
  reads_map_readBlock (some what) Bytes.length_ofUInt16
    (fun b => Bytes.ofUInt16_ofNat b.length_bytes) Bytes.ofNat_ofUInt16

theorem reads_readUInt32 (what : String) : Reads (readUInt32 what) Bytes.ofUInt32 :=
  reads_map_readBlock (some what) Bytes.length_ofUInt32
    (fun b => Bytes.ofUInt32_ofNat b.length_bytes) Bytes.ofNat_ofUInt32

/-! ## Repeated and optional fields -/

/-- So many values, one behind the other. -/
theorem reads_replicate {d : Decoder α} {enc : α → Bytes} (h : Reads d enc) (n : Nat) :
    Reads (replicate d n) fun xs => xs.val.flatMap enc := by
  induction n with
  | zero =>
    apply (Recognizes.pure _).congr
    rintro ⟨xs, hxs⟩ w
    obtain rfl := List.length_eq_zero_iff.1 hxs
    simp
  | succ n ih =>
    apply (h.bind fun x => ih.bind fun xs => Recognizes.pure _).congr
    rintro ⟨xs, hxs⟩ w
    constructor
    · rintro ⟨x, v, ⟨⟨ys, hys⟩, u, ⟨he, rfl⟩, rfl⟩, rfl⟩
      cases he
      simp
    · rintro rfl
      obtain ⟨x, ys, rfl⟩ := List.exists_cons_of_length_eq_add_one hxs
      exact ⟨x, _, ⟨⟨ys, Nat.succ.inj hxs⟩, [], ⟨rfl, rfl⟩, rfl⟩, by simp⟩

theorem reads_optional {d : Decoder α} {enc : α → Bytes} (h : Reads d enc)
    (announced : Bool) :
    Reads (optional announced d) fun x => x.val.elim [] enc := by
  cases announced with
  | false =>
    apply (Recognizes.pure _).congr
    rintro ⟨x, hx⟩ w
    obtain rfl := Option.isSome_eq_false_iff.1 hx |> Option.isNone_iff_eq_none.1
    simp
  | true =>
    apply (Recognizes.map h _).congr
    rintro ⟨x, hx⟩ w
    obtain ⟨a, rfl⟩ := Option.isSome_iff_exists.1 hx
    simp

end Decoder

end SecurityDescriptor
