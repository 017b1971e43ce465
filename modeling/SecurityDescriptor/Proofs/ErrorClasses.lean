import SecurityDescriptor.Proofs.DescriptorLayout
import SecurityDescriptor.Proofs.EntryBounds
import SecurityDescriptor.Proofs.Streams

/-!
# The errors of a decode, and what a record is free of

A decode fails in one of three ways (`Kind.FailsWith`): bytes are missing; an entry's type has no
form; in strict mode a size is wrong.  The last two come from what holds entries alone.

    (k.decoder (.ofSwitch strict) (.seek data p)).result = .error e → k.FailsWith strict e
                                                                        (Kind.failsWith_decoder)

So no flag word makes a decode fail: with enough bytes left, and a type that has a form, only a
size can be wrong (`Decoder.Suffices`).  And an entry that is given is one whose type, payload and
GUIDs go together (`Ace.Consistent`).
-/

namespace SecurityDescriptor

open Decoder

/-! ## Classes of errors -/

/-- Only the truth value `true` is strict. -/
theorem Mode.ofSwitch_eq_strict_iff {s : Switch} : Mode.ofSwitch s = .strict ↔ s = .flag true := by
  cases s with
  | flag on => cases on <;> simp [ofSwitch]
  | value text => simp [ofSwitch]

namespace Kind

/-- The kinds of records that are or hold entries. -/
def withEntries : List Kind := [.ace, .acl, .descriptor]

/-- The errors of a decode of kind `k`. -/
inductive FailsWith (strict : Switch) (k : Kind) : DecodeError → Prop where
  | shortage {needed available : Int} (what : Option String) (h : 0 ≤ available)
      (hlt : available < needed) : FailsWith strict k (.insufficientData needed available what)
  | unsupported {b : UInt8} (hk : k ∈ withEntries) (hb : b ∉ [0x00, 0x01, 0x05, 0x06]) :
      FailsWith strict k (.unrecognizedVariant b.toNat)
  | entrySize {t : AceType} {declared consumed : Nat} (hk : k ∈ withEntries)
      (hs : strict = .flag true) (ht : t.form?.isSome) (hlt : declared < 65536)
      (hne : declared ≠ consumed) (hle : 16 ≤ consumed) (hge : consumed ≤ 1072) :
      FailsWith strict k (.sizeMismatch t.name declared consumed)
  | listSize {declared consumed : Nat} (hk : k ∈ [acl, descriptor])
      (hs : strict = .flag true) (hlt : declared < 65536)
      (hne : declared ≠ consumed) (hle : 8 ≤ consumed) :
      FailsWith strict k (.sizeMismatch "ACL" declared consumed)

variable {strict : Switch} {mode : Mode} {k : Kind} {data : Bytes} {p q : Nat} {e : DecodeError}

/-- A descriptor holds all other kinds, and may fail as they do. -/
theorem FailsWith.descriptor (h : k.FailsWith strict e) : Kind.descriptor.FailsWith strict e := by
  cases h with
  | shortage what h hlt => exact .shortage what h hlt
  | unsupported _ hb => exact .unsupported (by decide) hb
  | entrySize _ hs ht hlt hne hle hge => exact .entrySize (by decide) hs ht hlt hne hle hge
  | listSize _ hs hlt hne hle => exact .listSize (by decide) hs hlt hne hle

theorem Reaches.mem_withEntries (h : k.Reaches mode data p .ace q) : k ∈ withEntries := by
  cases h <;> decide

/-- Only a list comes to a list. -/
theorem Reaches.mem_acl (h : k.Reaches mode data p .acl q) : k ∈ [acl, descriptor] := by
  cases h
  decide

/-- A wrong size is that of an entry or that of a list. -/
theorem failsWith_of_completed {r : Record} {m : Completed} (hs : strict = .flag true)
    (hq : k.Reaches mode data p r.kind q) (hm : r.completed? = some m)
    (hne : m.consumed ≠ m.declared) : k.FailsWith strict m.error := by
  cases r with
  | ace a =>
    obtain rfl := Option.some.inj hm
    have hform : a.aceType.form? = some (a.access, a.payload.layout) :=
      (AceType.ofForm_eq_iff ..).1 rfl
    exact .entrySize hq.mem_withEntries hs (by rw [hform]; rfl) a.size.toNat_lt hne.symm
      a.le_length_encode a.length_encode_le
  | acl a =>
    obtain rfl := Option.some.inj hm
    have hle : 8 ≤ a.encode.length := a.length_encode ▸ Nat.le_add_right ..
    exact .listSize hq.mem_acl hs a.size.toNat_lt hne.symm hle
  | _ => cases hm

/-- All endings of a decode but that of a descriptor. -/
theorem failsWith_of_ne (hk : k ≠ .descriptor)
    (h : (k.decoder (.ofSwitch strict) (.seek data p)).result = .error e) :
    k.FailsWith strict e := by
  have hends := ends_decoder hk (.ofSwitch strict) data p
  rw [h] at hends
  generalize (k.decoder (.ofSwitch strict) (.seek data p)).cursor = c at hends
  cases hends with
  | shortage needed available what =>
    obtain ⟨h0, hlt, -⟩ := (built_decoder hk _).shortage_bounds h
    exact .shortage what h0 hlt
  | unsupported hq _ hform => exact .unsupported hq.mem_withEntries hform
  | mismatch hq _ _ hm hne hs =>
    exact failsWith_of_completed (Mode.ofSwitch_eq_strict_iff.1 hs) hq hm hne

end Kind

/-! ## Sequences that fail in known ways -/

namespace Decoder

variable {α β : Type} {P : DecodeError → Prop}

/-- All errors of `d` have the property `P`, wherever `d` starts. -/
def FailsOnly (P : DecodeError → Prop) (d : Decoder α) : Prop :=
  ∀ c e, (d c).result = .error e → P e

namespace FailsOnly

theorem pure (a : α) : FailsOnly P (pure a) := fun _ _ h => nomatch h

theorem fail {e : DecodeError} (h : P e) : FailsOnly P (fail e : Decoder α) := by
  intro c e' he
  cases he
  exact h

theorem report (e : Event) : FailsOnly P (report e) := fun _ _ h => nomatch h

theorem bind {d : Decoder α} {f : α → Decoder β} (hd : FailsOnly P d)
    (hf : ∀ a, FailsOnly P (f a)) : FailsOnly P (d >>= f) := by
  intro c e he
  rcases hrun : d c with ⟨e' | a, c', t⟩
  · rw [bind_of_error hrun] at he
    cases he
    exact hd c _ (congrArg Run.result hrun)
  · rw [bind_of_ok hrun] at he
    exact hf a c' e he

theorem map {d : Decoder α} (h : FailsOnly P d) (f : α → β) : FailsOnly P (f <$> d) := by
  rw [map_eq_pure_bind]
  exact h.bind fun a => .pure (f a)

end FailsOnly

end Decoder

namespace Descriptor

variable {α : Type} {strict : Switch} {data : Bytes}

/-- A part fails as its kind does. -/
theorem failsOnly_within {k : Kind} (hk : k ≠ .descriptor) {d : Decoder α} {mk : α → Record}
    (hd : k.decoder (.ofSwitch strict) = mk <$> d) :
    FailsOnly (Kind.descriptor.FailsWith strict) (within data d) := by
  intro c e he
  -- a part has a stream of its own and is decoded from its start
  have hstart : (d (.seek data 0)).result = .error e := he
  rw [← map_eq_error_iff (f := mk), ← hd] at hstart
  exact (Kind.failsWith_of_ne hk hstart).descriptor

/-- An offset behind the end is a shortage of bytes too. -/
theorem failsOnly_follow {d : Decoder α}
    (hd : ∀ data, FailsOnly (Kind.descriptor.FailsWith strict) (within data d)) (part : Part)
    (offset : UInt32) :
    FailsOnly (Kind.descriptor.FailsWith strict) (follow data part offset d) := by
  unfold follow
  split
  · exact .pure none
  · split
    · exact (FailsOnly.report _).bind fun _ => (hd _).map some
    · next hge => exact .fail (.shortage _ (by omega) (by omega))

theorem failsOnly_ofBytes :
    FailsOnly (Kind.descriptor.FailsWith strict) (ofBytes (.ofSwitch strict) data) :=
  (failsOnly_within (k := .header) (by decide) rfl).bind fun _ =>
    (failsOnly_follow (fun _ => failsOnly_within (k := .sid) (by decide) rfl) _ _).bind fun _ =>
    (failsOnly_follow (fun _ => failsOnly_within (k := .sid) (by decide) rfl) _ _).bind fun _ =>
    (failsOnly_follow (fun _ => failsOnly_within (k := .acl) (by decide) rfl) _ _).bind fun _ =>
    (failsOnly_follow (fun _ => failsOnly_within (k := .acl) (by decide) rfl) _ _).bind fun _ =>
      .pure _

end Descriptor

theorem Kind.failsWith_decoder {strict : Switch} {k : Kind} {data : Bytes} {p : Nat}
    {e : DecodeError} (h : (k.decoder (.ofSwitch strict) (.seek data p)).result = .error e) :
    k.FailsWith strict e := by
  by_cases hk : k = .descriptor
  · subst hk
    have hmap := map_eq_error_iff.1 h
    exact Descriptor.failsOnly_ofBytes _ _ hmap
  · exact failsWith_of_ne hk h

/-! ## Enough bytes -/

namespace Decoder

variable {α β : Type}

/-- With `n` bytes left `d` gives a value, whatever these bytes are. -/
def Suffices (n : Nat) (d : Decoder α) : Prop :=
  ∀ c, n ≤ c.rest.length → ∃ a m, m ≤ n ∧ d c = ⟨.ok a, c.advance m, []⟩

theorem ReadsLength.suffices {n : Nat} {d : Decoder α} (h : ReadsLength n d) : Suffices n d := by
  intro c hc
  obtain ⟨a, ha⟩ := h.of_le c hc
  exact ⟨a, n, Nat.le_refl n, ha⟩

namespace Suffices

variable {m n : Nat} {d : Decoder α} {f : α → Decoder β}

theorem mono (h : Suffices m d) (hmn : m ≤ n) : Suffices n d := by
  intro c hc
  obtain ⟨a, i, hi, ha⟩ := h c (hmn.trans hc)
  exact ⟨a, i, hi.trans hmn, ha⟩

theorem pure (a : α) : Suffices 0 (pure a) := (ReadsLength.pure a).suffices

theorem bind (hd : Suffices m d) (hf : ∀ a, Suffices n (f a)) : Suffices (m + n) (d >>= f) := by
  intro c hc
  obtain ⟨a, i, hi, ha⟩ := hd c (by omega)
  obtain ⟨b, j, hj, hb⟩ := hf a (c.advance i) (by rw [Cursor.length_rest_advance]; omega)
  refine ⟨b, i + j, by omega, ?_⟩
  rw [bind_of_ok ha, hb, Cursor.advance_advance]
  rfl

theorem map (h : Suffices n d) (f : α → β) : Suffices n (f <$> d) := by
  rw [map_eq_pure_bind]
  exact h.bind fun a => .pure (f a)

theorem replicate (h : Suffices m d) (n : Nat) : Suffices (n * m) (replicate d n) := by
  induction n with
  | zero => exact (Suffices.pure _).mono (Nat.zero_le _)
  | succ n ih =>
    have hmul : (n + 1) * m = m + (n * m + 0) := by
      rw [Nat.add_one_mul, Nat.add_zero, Nat.add_comm]
    rw [hmul]
    exact h.bind fun _ => ih.bind fun _ => .pure _

/-- A field that is not announced needs no bytes. -/
theorem optional (h : Suffices n d) (announced : Bool) : Suffices n (optional announced d) := by
  cases announced with
  | false => exact (Suffices.pure _).mono (Nat.zero_le n)
  | true => exact h.map _

end Suffices

end Decoder

theorem Sid.suffices_decoder : Suffices 1028 Sid.decoder := by
  have hsubs (count : UInt8) :
      Suffices 1020 (replicate (readUInt32 "SID SubAuthority") count.toNat) := by
    have := count.toNat_lt
    exact ((ReadsLength.readUInt32 _).suffices.replicate _).mono (by omega)
  exact (ReadsLength.readUInt8 _).suffices.bind fun _ => (ReadsLength.readUInt8 _).suffices.bind
    fun count => ((ReadsLength.readBlock 6 _).map _).suffices.bind fun _ =>
      (hsubs count).bind fun _ => .pure _

theorem Guid.suffices_decoder : Suffices 16 Guid.decoder :=
  ((ReadsLength.readBlock 16 _).map _).suffices

/-- Whatever the mask and the flag word are, some 1068 bytes are enough. -/
theorem Payload.suffices_decoder (l : Layout) : Suffices 1068 (Payload.decoder l) := by
  cases l with
  | plain =>
    have h : Suffices 1032 PlainPayload.decoder :=
      (ReadsLength.readUInt32 _).suffices.bind fun _ => Sid.suffices_decoder.bind fun _ => .pure _
    exact (h.map _).mono (by decide)
  | object =>
    have h : Suffices 1068 ObjectPayload.decoder :=
      (ReadsLength.readUInt32 _).suffices.bind fun _ => (ReadsLength.readUInt32 _).suffices.bind
        fun _ => (Guid.suffices_decoder.optional _).bind fun _ =>
          (Guid.suffices_decoder.optional _).bind fun _ => Sid.suffices_decoder.bind fun _ =>
            .pure _
    exact h.map _

/-- An entry whose type has a form lacks nothing with 1072 bytes left. -/
theorem Ace.exists_of_le {c : Cursor} {b : UInt8} (hle : 1072 ≤ c.rest.length)
    (hb : c.rest[0]? = some b) (hform : b ∈ [0x00, 0x01, 0x05, 0x06]) :
    ∃ a, (decoder .lenient c).result = .ok a := by
  obtain ⟨hd, hheader, htype⟩ := exists_header (c := c) (by omega)
  obtain rfl : b = hd.aceType := Option.some.inj (hb.symm.trans htype)
  cases hf : form? hd.aceType with
  | none => exact absurd hform (form?_eq_none_iff.1 hf)
  | some f =>
    obtain ⟨access, layout⟩ := f
    -- the header takes 4 of the bytes, and the rest is enough for a payload of either layout
    have hrest : 1068 ≤ (c.advance 4).rest.length := by
      rw [Cursor.length_rest_advance]
      omega
    obtain ⟨payload, m, -, hpayload⟩ := Payload.suffices_decoder layout (c.advance 4) hrest
    have hbody := body_of_header hheader
    simp only [hf] at hbody
    rw [decoder, Mode.sized_lenient, hbody, bind_of_ok hpayload]
    exact ⟨_, rfl⟩

/-! ## Entries that are given -/

theorem AceType.ofInt?_code (t : AceType) : ofInt? t.code.toNat = some t := by
  cases t <;> decide

/-- A byte that selects a payload is the code of a type. -/
theorem Ace.exists_type_of_form? {b : UInt8} {f : Access × Layout} (h : form? b = some f) :
    ∃ t, AceType.ofInt? b.toNat = some t ∧ t.form? = some f := by
  obtain ⟨access, layout⟩ := f
  rw [form?_eq_some_iff.1 h]
  exact ⟨_, AceType.ofInt?_code _, (AceType.ofForm_eq_iff ..).1 rfl⟩

/-- The type of an entry, the layout of its payload, and what can be asked of the payload go
together, and make the entry's wire form. -/
structure Ace.Consistent (a : Ace) : Prop where
  type : AceType.ofInt? a.header.aceType.toNat = some a.aceType
  form : a.aceType.form? = some (a.access, a.payload.layout)
  flags : a.payload.flags?.isSome ↔ a.payload.layout = .object
  objectType : a.payload.objectType?.isSome ↔ ∃ f, a.payload.flags? = some f ∧ f &&& 0x1 ≠ 0
  inheritedObjectType :
    a.payload.inheritedObjectType?.isSome ↔ ∃ f, a.payload.flags? = some f ∧ f &&& 0x2 ≠ 0
  encode : a.encode = a.header.encode ++ Bytes.ofUInt32 a.payload.mask
    ++ a.payload.flags?.elim [] Bytes.ofUInt32 ++ a.payload.objectType?.elim [] Guid.encode
    ++ a.payload.inheritedObjectType?.elim [] Guid.encode ++ a.payload.sid.encode

theorem Ace.consistent (a : Ace) : a.Consistent where
  type := AceType.ofInt?_code _
  form := (AceType.ofForm_eq_iff ..).1 rfl
  flags := by
    rcases a with ⟨access, flags, size, p | p⟩ <;> simp [Payload.flags?, Payload.layout]
  objectType := by
    rcases a with ⟨access, flags, size, p | p⟩
    · simp [Payload.objectType?, Payload.flags?]
    · simp only [Payload.objectType?, Payload.flags?, Option.some.injEq, exists_eq_left']
      rw [p.isSome_objectType]
      exact testBit_iff_and_ne_zero rfl p.flags
  inheritedObjectType := by
    rcases a with ⟨access, flags, size, p | p⟩
    · simp [Payload.inheritedObjectType?, Payload.flags?]
    · simp only [Payload.inheritedObjectType?, Payload.flags?, Option.some.injEq, exists_eq_left']
      rw [p.isSome_inheritedObjectType]
      exact testBit_iff_and_ne_zero rfl p.flags
  encode := by
    rcases a with ⟨access, flags, size, p | p⟩ <;>
      simp [Ace.encode, Payload.encode, PlainPayload.encode, ObjectPayload.encode, Payload.mask,
        Payload.sid, Payload.flags?, Payload.objectType?, Payload.inheritedObjectType?]

/-- The entries in a record. -/
def Record.entries : Record → List Ace
  | ace a => [a]
  | acl a => a.aces
  | descriptor d => (d.sacl.toList ++ d.dacl.toList).flatMap Acl.aces
  | _ => []

theorem Acl.infix_encode {a : Acl} {ace : Ace} (h : ace ∈ a.aces) : ace.encode <:+: a.encode := by
  have hentry : ace.encode <:+: a.aces.flatMap Ace.encode := by
    rw [List.flatMap_def]
    exact List.infix_of_mem_flatten (List.mem_map_of_mem h)
  exact hentry.trans (List.suffix_append ..).isInfix

namespace Descriptor

/-- Both modes give the same descriptors of the same bytes. -/
theorem ofBytes_lenient_of_ok {mode : Mode} {data : Bytes} {c : Cursor} {sd : Descriptor}
    (h : (ofBytes mode data c).result = .ok sd) : (ofBytes .lenient data c).result = .ok sd := by
  cases mode with
  | lenient => exact h
  | strict => rwa [(checksLedger_ofBytes data).eq_of_ok h] at h

theorem infix_of_mem_entries {mode : Mode} {data : Bytes} {c : Cursor} {sd : Descriptor}
    (h : (ofBytes mode data c).result = .ok sd) {a : Ace}
    (ha : a ∈ (Record.descriptor sd).entries) : a.encode <:+: data := by
  obtain ⟨-, -, -, hsacl, hdacl⟩ := ofBytes_lenient_eq_ok_iff.1 (ofBytes_lenient_of_ok h)
  obtain ⟨acl, hacl, ha⟩ := List.mem_flatMap.1 ha
  have hplaced {offset : UInt32} (hfront : acl.encode <+: data.drop offset.toNat) :
      a.encode <:+: data :=
    (Acl.infix_encode ha).trans (hfront.isInfix.trans (List.drop_suffix ..).isInfix)
  rcases List.mem_append.1 hacl with hacl | hacl
  · exact hplaced (hsacl.2 acl (Option.mem_toList.1 hacl))
  · exact hplaced (hdacl.2 acl (Option.mem_toList.1 hacl))

end Descriptor

/-- The entries that are given stand in the bytes that were read. -/
theorem Kind.infix_of_mem_entries {mode : Mode} {k : Kind} {data : Bytes} {p : Nat} {r : Record}
    (h : (k.decoder mode (.seek data p)).result = .ok r) {a : Ace} (ha : a ∈ r.entries) :
    a.encode <:+: data.drop p := by
  by_cases hk : k = .descriptor
  · subst hk
    obtain ⟨sd, hsd, rfl⟩ := map_eq_ok_iff.1 h
    exact Descriptor.infix_of_mem_entries hsd ha
  · have hends := ends_decoder hk mode data p
    rw [h] at hends
    generalize (k.decoder mode (.seek data p)).cursor = c at hends
    cases hends with
    | @taken _ w hr hw =>
      cases r with
      | ace a' =>
        obtain rfl := Option.some.inj hr
        obtain rfl := List.mem_singleton.1 ha
        exact hw.isInfix
      | acl acl =>
        obtain rfl := Option.some.inj hr
        exact (Acl.infix_encode ha).trans hw.isInfix
      | descriptor sd => cases hr
      | _ => cases ha

/-- **Every decode gives a consistent record or fails in one of three ways.**  A decode of any kind
at any position of any stream, in either mode, ends with a record of that kind or with an error of
its classes.  The entries of a record stand on the wire and are consistent, and a byte that selects
a payload is the code of a type.  No flag word is wrong: with enough bytes for the longest form a
header is read whatever it holds, and so is an entry whose type has a form. -/
theorem Kind.decoder_failsWith_or_consistent (strict : Switch) (k : Kind) (data : Bytes) (p : Nat) :
    (∀ e, (k.decoder (.ofSwitch strict) (.seek data p)).result = .error e →
      k.FailsWith strict e) ∧
    (∀ r, (k.decoder (.ofSwitch strict) (.seek data p)).result = .ok r →
      r.kind = k ∧ ∀ a ∈ r.entries, a.Consistent ∧ a.encode <:+: data.drop p) ∧
    (∀ b f, Ace.form? b = some f → ∃ t, AceType.ofInt? b.toNat = some t ∧ t.form? = some f) ∧
    (p + 4 ≤ data.length →
      ∃ h, (Kind.aceHeader.decoder (.ofSwitch strict) (.seek data p)).result = .ok (.aceHeader h)) ∧
    (p + 20 ≤ data.length →
      ∃ h, (Kind.header.decoder (.ofSwitch strict) (.seek data p)).result = .ok (.header h)) ∧
    (p + 1072 ≤ data.length → ∀ b, data[p]? = some b → b ∈ [0x00, 0x01, 0x05, 0x06] →
      ∃ a, (Kind.ace.decoder .lenient (.seek data p)).result = .ok (.ace a)) := by
  refine ⟨fun e => failsWith_decoder, ?_, fun b f => Ace.exists_type_of_form?, ?_, ?_, ?_⟩
  · intro r h
    exact ⟨kind_of_decoder h, fun a ha => ⟨a.consistent, infix_of_mem_entries h ha⟩⟩
  · intro hle
    obtain ⟨hd, hrun⟩ := AceHeader.readsLength_decoder.of_le (.seek data p)
      (by rw [Cursor.length_rest_seek]; omega)
    exact ⟨hd, map_eq_ok_iff.2 ⟨hd, congrArg Run.result hrun, rfl⟩⟩
  · intro hle
    obtain ⟨hd, hrun⟩ := Header.readsLength_decoder.of_le (.seek data p)
      (by rw [Cursor.length_rest_seek]; omega)
    exact ⟨hd, map_eq_ok_iff.2 ⟨hd, congrArg Run.result hrun, rfl⟩⟩
  · intro hle b hb hform
    have hrest : 1072 ≤ (Cursor.seek data p).rest.length := by
      rw [Cursor.length_rest_seek]
      omega
    obtain ⟨-, hb'⟩ := Acl.rest_seek_iff.2 ⟨by omega, hb⟩
    obtain ⟨a, ha⟩ := Ace.exists_of_le hrest hb' hform
    exact ⟨a, map_eq_ok_iff.2 ⟨a, ha, rfl⟩⟩

end SecurityDescriptor
