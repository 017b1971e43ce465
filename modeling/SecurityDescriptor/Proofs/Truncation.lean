import SecurityDescriptor.Proofs.RecordGrammar

/-!
# Records that are cut short

A record is laid out as fields, one behind the other: numbers of 1, 2 and 4 bytes, authorities
and GUIDs.  Which fields there are depends on the record, on its counts, its type and its flag
word.  Each field is one read, so a record that is cut short inside a field fails at that field:
it needs the width of the field, and what lies in front of the cut is available.

    LaysOut d R → (∀ a, LaysOut (f a) (S a)) →
      LaysOut (d >>= f) fun b fs => ∃ a us vs, R a us ∧ S a b vs ∧ fs = us ++ vs
                                                                              (LaysOut.bind)
    LaysOut (Acl.decoder mode) fun a fs => fs = a.fields                (Acl.laysOut_decoder)

Sizes are compared behind the fields that they count, so no comparison comes before the cut.
-/

namespace SecurityDescriptor

/-! ## Fields -/

/-- What one read takes, and the name that its error gives to it. -/
structure Field where
  what : String
  bytes : Bytes
  length_mem : bytes.length ∈ [1, 2, 4, 6, 16]

namespace Field

/-- The number of bytes of a field. -/
def width (f : Field) : Nat := f.bytes.length

/-- An 8-bit number. -/
def ofUInt8 (what : String) (x : UInt8) : Field := ⟨what, Bytes.ofUInt8 x, by simp⟩

/-- A 16-bit number. -/
def ofUInt16 (what : String) (x : UInt16) : Field := ⟨what, Bytes.ofUInt16 x, by simp⟩

/-- A 32-bit number. -/
def ofUInt32 (what : String) (x : UInt32) : Field := ⟨what, Bytes.ofUInt32 x, by simp⟩

end Field

/-- Fields one behind the other. -/
abbrev Fields := List Field

namespace Fields

/-- The bytes of all fields. -/
def bytes (fs : Fields) : Bytes := fs.flatMap Field.bytes

/-- The number of these bytes. -/
def size (fs : Fields) : Nat := (bytes fs).length

/-- How reading the fields fails if there are only `j` bytes. -/
def shortage? : Fields → Nat → Option DecodeError
  | [], _ => none
  | f :: fs, j =>
    if j < f.width then some (.insufficientData f.width j (some f.what))
    else shortage? fs (j - f.width)

/-! ## Lemmas -/

@[simp] theorem bytes_nil : bytes [] = [] := rfl

@[simp] theorem bytes_cons (f : Field) (fs : Fields) :
    bytes (f :: fs) = f.bytes ++ bytes fs := List.flatMap_cons

@[simp] theorem bytes_append (fs gs : Fields) : bytes (fs ++ gs) = bytes fs ++ bytes gs :=
  List.flatMap_append

@[simp] theorem size_nil : size [] = 0 := rfl

@[simp] theorem size_cons (f : Field) (fs : Fields) : size (f :: fs) = f.width + size fs := by
  simp [size, Field.width]

@[simp] theorem size_append (fs gs : Fields) : size (fs ++ gs) = size fs + size gs := by
  simp [size]

/-- Bytes run out in the first fields or behind them. -/
theorem shortage?_append (fs gs : Fields) (j : Nat) :
    shortage? (fs ++ gs) j = if j < size fs then shortage? fs j else shortage? gs (j - size fs) := by
  induction fs generalizing j with
  | nil => simp
  | cons f fs ih =>
    rw [List.cons_append, shortage?, shortage?, ih, size_cons]
    by_cases hf : j < f.width
    · rw [if_pos hf, if_pos hf, if_pos (by omega)]
    · have hsub : j - f.width - size fs = j - (f.width + size fs) := by omega
      rw [if_neg hf, if_neg hf, hsub]
      by_cases hfs : j - f.width < size fs
      · rw [if_pos hfs, if_pos (by omega)]
      · rw [if_neg hfs, if_neg (by omega)]

/-- Every byte lies in a field, and there the bytes run out. -/
theorem exists_field {fs : Fields} {j : Nat} (hj : j < size fs) :
    ∃ before f after, fs = before ++ f :: after ∧ size before ≤ j ∧ j < size before + f.width ∧
      shortage? fs j =
        some (.insufficientData f.width ((j : Int) - size before) (some f.what)) := by
  induction fs generalizing j with
  | nil => exact absurd hj (Nat.not_lt_zero j)
  | cons f fs ih =>
    rw [size_cons] at hj
    rw [shortage?]
    by_cases hf : j < f.width
    · exact ⟨[], f, fs, rfl, Nat.zero_le j, by simpa using hf, by simp [hf]⟩
    · obtain ⟨before, g, after, rfl, hle, hlt, hshort⟩ := ih (j := j - f.width) (by omega)
      refine ⟨f :: before, g, after, rfl, ?_, ?_, ?_⟩
      · rw [size_cons]
        omega
      · rw [size_cons]
        omega
      · have hsub : ((j - f.width : Nat) : Int) - size before = (j : Int) - size (f :: before) := by
          rw [size_cons]
          omega
        rw [if_neg hf, hshort, hsub]

/-- No byte lies in two fields. -/
theorem field_unique {before before' after after' : Fields} {f f' : Field} {j : Nat}
    (h : before ++ f :: after = before' ++ f' :: after') (hle : size before ≤ j)
    (hlt : j < size before + f.width) (hle' : size before' ≤ j)
    (hlt' : j < size before' + f'.width) : before = before' ∧ f = f' ∧ after = after' := by
  -- if one field stood further on, the other would lie in front of it, bytes and all
  rcases List.append_eq_append_iff.1 h with ⟨fs, rfl, hfs⟩ | ⟨fs, rfl, hfs⟩
  · cases fs with
    | nil =>
      obtain ⟨rfl, rfl⟩ := List.cons.inj hfs
      exact ⟨(List.append_nil _).symm, rfl, rfl⟩
    | cons g fs =>
      obtain ⟨rfl, -⟩ := List.cons.inj hfs
      rw [size_append, size_cons] at hle'
      omega
  · cases fs with
    | nil =>
      obtain ⟨rfl, rfl⟩ := List.cons.inj hfs
      exact ⟨List.append_nil _, rfl, rfl⟩
    | cons g fs =>
      obtain ⟨rfl, -⟩ := List.cons.inj hfs
      rw [size_append, size_cons] at hle
      omega

end Fields

/-! ## Decoders that take fields -/

namespace Decoder

variable {α β : Type}

/-- At `p` the decoder takes the fields and gives `a`, whatever follows them; with fewer bytes it
fails in the field where they run out. -/
structure TakesFields (d : Decoder α) (p : Nat) (a : α) (fs : Fields) : Prop where
  ok : ∀ rest, ∃ t, d ⟨p, Fields.bytes fs ++ rest⟩ = ⟨.ok a, ⟨p + Fields.size fs, rest⟩, t⟩
  shortage : ∀ {j e}, Fields.shortage? fs j = some e →
    (d ⟨p, (Fields.bytes fs).take j⟩).result = .error e

/-- Whenever `d` gives a value, it takes fields that `R` grants to that value. -/
def LaysOut (d : Decoder α) (R : α → Fields → Prop) : Prop :=
  ∀ p s a, (d ⟨p, s⟩).result = .ok a →
    ∃ fs, R a fs ∧ Fields.bytes fs <+: s ∧ TakesFields d p a fs

namespace TakesFields

variable {d : Decoder α} {f : α → Decoder β} {p : Nat} {a : α} {b : β} {fs gs : Fields}

theorem pure (p : Nat) (a : α) : TakesFields (pure a) p a [] where
  ok _ := ⟨[], rfl⟩
  shortage h := nomatch h

theorem readBlock {n : Nat} {b : Block n} {f : Field} (p : Nat) (h : f.bytes = b.bytes) :
    TakesFields (readBlock n (some f.what)) p b [f] where
  ok := by
    intro rest
    have hlen := b.length_bytes
    have htake : (b.bytes ++ rest).take n = b.bytes := List.take_left' hlen
    have hdrop : (b.bytes ++ rest).drop n = rest := List.drop_left' hlen
    refine ⟨[], ?_⟩
    simp [readBlock_of_le, h, hlen, Cursor.advance, htake, hdrop, Field.width]
  shortage := by
    intro j e he
    have hlen : f.width = n := by rw [Field.width, h, b.length_bytes]
    rw [Fields.shortage?, hlen] at he
    by_cases hj : j < n
    · rw [if_pos hj] at he
      have hcut : (f.bytes.take j).length = j :=
        List.length_take_of_le (hlen.symm ▸ Nat.le_of_lt hj : j ≤ f.width)
      cases he
      simp [readBlock_of_lt, hcut, hj]
    · rw [if_neg hj] at he
      cases he

/-- The fields of a sequence are those of its parts. -/
theorem bind (hd : TakesFields d p a fs) (hf : TakesFields (f a) (p + Fields.size fs) b gs) :
    TakesFields (d >>= f) p b (fs ++ gs) where
  ok := by
    intro rest
    obtain ⟨t, ht⟩ := hd.ok (Fields.bytes gs ++ rest)
    obtain ⟨t', ht'⟩ := hf.ok rest
    refine ⟨t ++ t', ?_⟩
    rw [Fields.bytes_append, List.append_assoc, bind_of_ok ht, ht', Fields.size_append,
      Nat.add_assoc]
  shortage := by
    intro j e h
    rw [Fields.shortage?_append] at h
    rw [Fields.bytes_append]
    by_cases hj : j < Fields.size fs
    · rw [if_pos hj] at h
      rw [List.take_append_of_le_length (Nat.le_of_lt hj)]
      exact bind_result_of_error (hd.shortage h) f
    · rw [if_neg hj] at h
      have htake : (Fields.bytes fs ++ Fields.bytes gs).take j =
          Fields.bytes fs ++ (Fields.bytes gs).take (j - Fields.size fs) := by
        rw [List.take_append, List.take_of_length_le (Nat.le_of_not_lt hj)]
        rfl
      obtain ⟨t, ht⟩ := hd.ok ((Fields.bytes gs).take (j - Fields.size fs))
      rw [htake, bind_of_ok ht]
      exact hf.shortage h

theorem map (h : TakesFields d p a fs) (g : α → β) : TakesFields (g <$> d) p (g a) fs := by
  have hmap := h.bind (f := fun a => Pure.pure (g a)) (pure _ (g a))
  rwa [List.append_nil, ← map_eq_pure_bind] at hmap

/-- A size that was right is still right, and it is not looked at before the record is there. -/
theorem sized {mode : Mode} {name : α → String} {declared : α → UInt16}
    (h : TakesFields d p a fs)
    (hsize : ¬(mode = .strict ∧ Fields.size fs ≠ (declared a).toNat)) :
    TakesFields (mode.sized name declared d) p a fs where
  ok := by
    intro rest
    obtain ⟨t, ht⟩ := h.ok rest
    refine ⟨t, ?_⟩
    rw [Mode.sized_of_ok ht, Nat.add_sub_cancel_left, if_neg hsize]
  shortage := by
    intro j e hj
    have hrun := h.shortage hj
    rcases hd : d ⟨p, (Fields.bytes fs).take j⟩ with ⟨r, c, t⟩
    rw [hd] at hrun
    obtain rfl : r = .error e := hrun
    rw [Mode.sized_of_error hd]

end TakesFields

/-! ## Closure -/

namespace LaysOut

variable {d : Decoder α} {f : α → Decoder β} {R : α → Fields → Prop}
  {S : α → β → Fields → Prop}

theorem mono {R' : α → Fields → Prop} (h : LaysOut d R) (hR : ∀ a fs, R a fs → R' a fs) :
    LaysOut d R' := by
  intro p s a ha
  obtain ⟨fs, hfs, hs, htakes⟩ := h p s a ha
  exact ⟨fs, hR a fs hfs, hs, htakes⟩

theorem pure (a : α) : LaysOut (pure a) fun b fs => b = a ∧ fs = [] := by
  intro p s b h
  cases h
  exact ⟨[], ⟨rfl, rfl⟩, List.nil_prefix, .pure p a⟩

/-- A decoder that never gives a value takes any fields. -/
theorem of_error (h : ∀ c, ∃ e, (d c).result = .error e) (R : α → Fields → Prop) :
    LaysOut d R := by
  intro p s a ha
  obtain ⟨e, he⟩ := h ⟨p, s⟩
  rw [he] at ha
  cases ha

theorem bind (hd : LaysOut d R) (hf : ∀ a, LaysOut (f a) (S a)) :
    LaysOut (d >>= f) fun b fs => ∃ a us vs, R a us ∧ S a b vs ∧ fs = us ++ vs := by
  intro p s b h
  obtain ⟨a, ha, hb⟩ := bind_eq_ok_iff.1 h
  obtain ⟨us, hus, ⟨rest, rfl⟩, htakes⟩ := hd p s a ha
  obtain ⟨t, ht⟩ := htakes.ok rest
  rw [ht] at hb
  obtain ⟨vs, hvs, ⟨rest', rfl⟩, htakes'⟩ := hf a _ _ b hb
  refine ⟨us ++ vs, ⟨a, us, vs, hus, hvs, rfl⟩, ⟨rest', ?_⟩, htakes.bind htakes'⟩
  rw [Fields.bytes_append, List.append_assoc]

theorem map (h : LaysOut d R) (g : α → β) :
    LaysOut (g <$> d) fun b fs => ∃ a, b = g a ∧ R a fs := by
  intro p s b hb
  obtain ⟨a, ha, rfl⟩ := map_eq_ok_iff.1 hb
  obtain ⟨fs, hfs, hs, htakes⟩ := h p s a ha
  exact ⟨fs, ⟨a, rfl, hfs⟩, hs, htakes.map g⟩

/-- Asking for the position takes no fields. -/
theorem position_bind {f : Nat → Decoder α} (h : ∀ n, LaysOut (f n) R) :
    LaysOut (position >>= f) R := by
  intro p s a ha
  rw [Decoder.position_bind] at ha
  obtain ⟨fs, hfs, hs, htakes⟩ := h p p s a ha
  refine ⟨fs, hfs, hs, ?_, ?_⟩
  · intro rest
    rw [Decoder.position_bind]
    exact htakes.ok rest
  · intro j e hj
    rw [Decoder.position_bind]
    exact htakes.shortage hj

/-- Nor does a report. -/
theorem report_bind (e : Event) {f : Unit → Decoder α} (h : LaysOut (f ()) R) :
    LaysOut (report e >>= f) R := by
  intro p s a ha
  rw [Decoder.report_bind] at ha
  obtain ⟨fs, hfs, hs, htakes⟩ := h p s a ha
  refine ⟨fs, hfs, hs, ?_, ?_⟩
  · intro rest
    obtain ⟨t, ht⟩ := htakes.ok rest
    rw [Decoder.report_bind, ht]
    exact ⟨_, rfl⟩
  · intro j e' hj
    rw [Decoder.report_bind]
    exact htakes.shortage hj

/-- The size of a record is the size of its fields. -/
theorem sized (h : LaysOut d R) (mode : Mode) (name : α → String) (declared : α → UInt16) :
    LaysOut (mode.sized name declared d) R := by
  intro p s a ha
  rcases hrun : d ⟨p, s⟩ with ⟨e | a', c, t⟩
  · rw [Mode.sized_of_error hrun] at ha
    cases ha
  · rw [Mode.sized_of_ok hrun] at ha
    split at ha
    · cases ha
    · next hsize =>
      cases ha
      obtain ⟨fs, hfs, ⟨rest, rfl⟩, htakes⟩ := h p s a (congrArg Run.result hrun)
      obtain ⟨t', ht'⟩ := htakes.ok rest
      have hc : c.pos = p + Fields.size fs := by
        rw [hrun] at ht'
        cases ht'
        rfl
      rw [hc, Nat.add_sub_cancel_left] at hsize
      exact ⟨fs, hfs, List.prefix_append .., htakes.sized hsize⟩

/-! ## Single fields -/

theorem map_readBlock {n : Nat} {what : String} {dec : Block n → α} {field : α → Field}
    (hwhat : ∀ a, (field a).what = what) (h : ∀ b, (field (dec b)).bytes = b.bytes) :
    LaysOut (dec <$> Decoder.readBlock n (some what)) fun a fs => fs = [field a] := by
  intro p s a ha
  obtain ⟨b, hb, rfl⟩ := map_eq_ok_iff.1 ha
  have htakes := (TakesFields.readBlock p (h b)).map dec
  rw [hwhat] at htakes
  refine ⟨_, rfl, ?_, htakes⟩
  rcases Nat.lt_or_ge s.length n with hlt | hle
  · rw [readBlock_of_lt _ hlt] at hb
    cases hb
  · rw [readBlock_of_le _ hle] at hb
    cases hb
    simp [h, List.take_prefix]

theorem readUInt8 (what : String) :
    LaysOut (readUInt8 what) fun x fs => fs = [.ofUInt8 what x] :=
  map_readBlock (fun _ => rfl) fun b => Bytes.ofUInt8_ofNat b.length_bytes

theorem readUInt16 (what : String) :
    LaysOut (readUInt16 what) fun x fs => fs = [.ofUInt16 what x] :=
  map_readBlock (fun _ => rfl) fun b => Bytes.ofUInt16_ofNat b.length_bytes

theorem readUInt32 (what : String) :
    LaysOut (readUInt32 what) fun x fs => fs = [.ofUInt32 what x] :=
  map_readBlock (fun _ => rfl) fun b => Bytes.ofUInt32_ofNat b.length_bytes

/-! ## Repeated and optional fields -/

theorem replicate {fields : α → Fields} (h : LaysOut d fun a fs => fs = fields a) (n : Nat) :
    LaysOut (replicate d n) fun xs fs => fs = xs.val.flatMap fields := by
  induction n with
  | zero =>
    apply (pure _).mono
    rintro _ _ ⟨rfl, rfl⟩
    rfl
  | succ n ih =>
    apply (h.bind fun x => ih.bind fun xs => pure _).mono
    rintro _ _ ⟨x, _, _, rfl, ⟨xs, _, _, rfl, ⟨rfl, rfl⟩, rfl⟩, rfl⟩
    simp

theorem optional {field : α → Field} (h : LaysOut d fun a fs => fs = [field a])
    (announced : Bool) :
    LaysOut (optional announced d) fun x fs => fs = (x.val.map field).toList := by
  cases announced with
  | false =>
    apply (pure _).mono
    rintro _ _ ⟨rfl, rfl⟩
    rfl
  | true =>
    apply (h.map _).mono
    rintro _ _ ⟨a, rfl, rfl⟩
    rfl

end LaysOut

end Decoder

open Decoder

/-! ## The fields of records -/

/-- The bytes of an authority are read at once. -/
def Authority.field (a : Authority) : Field :=
  ⟨"SID_IDENTIFIER_AUTHORITY", a.encode, by simp [encode, Block.length_bytes]⟩

/-- So are those of a GUID. -/
def Guid.field (g : Guid) : Field := ⟨"GUID", g.encode, by simp⟩

/-- The count stands in front of the authority, the sub-authorities behind it. -/
def Sid.fields (s : Sid) : Fields :=
  [.ofUInt8 "SID Revision" s.revision, .ofUInt8 "SID SubAuthorityCount" s.subAuthorityCount,
    s.authority.field] ++ s.subAuthorities.map (.ofUInt32 "SID SubAuthority")

def AceHeader.fields (h : AceHeader) : Fields :=
  [.ofUInt8 "ACE type" h.aceType, .ofUInt8 "ACE flags" h.flags, .ofUInt16 "ACE size" h.size]

def PlainPayload.fields (p : PlainPayload) : Fields :=
  .ofUInt32 "ACE Mask" p.mask :: p.sid.fields

/-- A GUID that is absent has no field. -/
def ObjectPayload.fields (p : ObjectPayload) : Fields :=
  [.ofUInt32 "ACE Mask" p.mask, .ofUInt32 "ACE object flags" p.flags]
    ++ (p.objectType.map Guid.field).toList ++ (p.inheritedObjectType.map Guid.field).toList
    ++ p.sid.fields

def Payload.fields : Payload → Fields
  | plain p => p.fields
  | object p => p.fields

def Ace.fields (a : Ace) : Fields := a.header.fields ++ a.payload.fields

def AclHeader.fields (h : AclHeader) : Fields :=
  [.ofUInt8 "ACL AclRevision" h.revision, .ofUInt8 "ACL Sbz1" h.sbz1,
    .ofUInt16 "ACL AclSize" h.size, .ofUInt16 "ACL AceCount" h.aceCount,
    .ofUInt16 "ACL Sbz2" h.sbz2]

def Acl.fields (a : Acl) : Fields := a.header.fields ++ a.aces.flatMap Ace.fields

def Header.fields (h : Header) : Fields :=
  [.ofUInt8 "SECURITY_DESCRIPTOR Revision" h.revision,
    .ofUInt8 "SECURITY_DESCRIPTOR Sbz1" h.sbz1,
    .ofUInt16 "SECURITY_DESCRIPTOR Control" h.control,
    .ofUInt32 "SECURITY_DESCRIPTOR OffsetOwner" h.offsetOwner,
    .ofUInt32 "SECURITY_DESCRIPTOR OffsetGroup" h.offsetGroup,
    .ofUInt32 "SECURITY_DESCRIPTOR OffsetSacl" h.offsetSacl,
    .ofUInt32 "SECURITY_DESCRIPTOR OffsetDacl" h.offsetDacl]

/-- The fields of a record in wire order.  A descriptor is not a sequence of fields, since its
parts may lie anywhere. -/
def Record.fields : Record → Fields
  | authority a => [a.field]
  | sid s => s.fields
  | guid g => [g.field]
  | aceHeader h => h.fields
  | plainPayload p => p.fields
  | objectPayload p => p.fields
  | ace a => a.fields
  | acl a => a.fields
  | header h => h.fields
  | descriptor _ => []

/-! ## The decoders of records -/

theorem Authority.laysOut_decoder : LaysOut Authority.decoder fun a fs => fs = [a.field] :=
  .map_readBlock (fun _ => rfl) fun _ => rfl

theorem Sid.laysOut_decoder : LaysOut Sid.decoder fun s fs => fs = s.fields := by
  apply ((LaysOut.readUInt8 _).bind fun revision => (LaysOut.readUInt8 _).bind fun count =>
    Authority.laysOut_decoder.bind fun authority =>
    ((LaysOut.readUInt32 _).replicate count.toNat).bind fun _ => .pure _).mono
  rintro s fs ⟨revision, _, _, rfl, ⟨count, _, _, rfl, ⟨authority, _, _, rfl,
    ⟨⟨ns, hn⟩, _, _, rfl, ⟨rfl, rfl⟩, rfl⟩, rfl⟩, rfl⟩, rfl⟩
  have hc : UInt8.ofNat ns.length = count := by rw [hn, UInt8.ofNat_toNat]
  simp [fields, subAuthorityCount, hc, List.map_eq_flatMap]

theorem Guid.laysOut_decoder : LaysOut Guid.decoder fun g fs => fs = [g.field] :=
  .map_readBlock (fun _ => rfl) encode_ofBlock

theorem AceHeader.laysOut_decoder : LaysOut AceHeader.decoder fun h fs => fs = h.fields := by
  apply ((LaysOut.readUInt8 _).bind fun _ => (LaysOut.readUInt8 _).bind fun _ =>
    (LaysOut.readUInt16 _).bind fun _ => .pure _).mono
  rintro h fs ⟨aceType, _, _, rfl, ⟨flags, _, _, rfl, ⟨size, _, _, rfl, ⟨rfl, rfl⟩, rfl⟩, rfl⟩, rfl⟩
  rfl

theorem PlainPayload.laysOut_decoder :
    LaysOut PlainPayload.decoder fun p fs => fs = p.fields := by
  apply ((LaysOut.readUInt32 _).bind fun _ => Sid.laysOut_decoder.bind fun _ => .pure _).mono
  rintro p fs ⟨mask, _, _, rfl, ⟨sid, _, _, rfl, ⟨rfl, rfl⟩, rfl⟩, rfl⟩
  simp [fields]

theorem ObjectPayload.laysOut_decoder :
    LaysOut ObjectPayload.decoder fun p fs => fs = p.fields := by
  apply ((LaysOut.readUInt32 _).bind fun _ => (LaysOut.readUInt32 _).bind fun _ =>
    (Guid.laysOut_decoder.optional _).bind fun _ => (Guid.laysOut_decoder.optional _).bind fun _ =>
    Sid.laysOut_decoder.bind fun _ => .pure _).mono
  rintro p fs ⟨mask, _, _, rfl, ⟨flags, _, _, rfl, ⟨⟨t, ht⟩, _, _, rfl, ⟨⟨t', ht'⟩, _, _, rfl,
    ⟨sid, _, _, rfl, ⟨rfl, rfl⟩, rfl⟩, rfl⟩, rfl⟩, rfl⟩, rfl⟩
  simp [fields]

theorem Payload.laysOut_decoder (l : Layout) :
    LaysOut (Payload.decoder l) fun p fs => p.layout = l ∧ fs = p.fields := by
  cases l with
  | plain =>
    apply (PlainPayload.laysOut_decoder.map _).mono
    rintro _ _ ⟨p, rfl, rfl⟩
    exact ⟨rfl, rfl⟩
  | object =>
    apply (ObjectPayload.laysOut_decoder.map _).mono
    rintro _ _ ⟨p, rfl, rfl⟩
    exact ⟨rfl, rfl⟩

/-- What stands behind a header that was read. -/
theorem Ace.laysOut_ofHeader (h : AceHeader) (start : Nat) :
    LaysOut
      (match form? h.aceType with
        | none => do
          Decoder.report (.unsupportedAce h.aceType start)
          Decoder.fail (.unrecognizedVariant h.aceType.toNat)
        | some (access, layout) => do
          let payload ← Payload.decoder layout
          pure (⟨access, h.flags, h.size, payload⟩ : Ace))
      fun a fs => a.header = h ∧ fs = a.payload.fields := by
  split
  · exact .of_error (fun c => ⟨_, rfl⟩) _
  · next access layout hf =>
    apply ((Payload.laysOut_decoder layout).bind fun _ => .pure _).mono
    rintro a fs ⟨p, _, _, ⟨rfl, rfl⟩, ⟨rfl, rfl⟩, rfl⟩
    rw [List.append_nil]
    exact ⟨congrArg (AceHeader.mk · h.flags h.size) (form?_eq_some_iff.1 hf).symm, rfl⟩

theorem Ace.laysOut_decoder (mode : Mode) :
    LaysOut (Ace.decoder mode) fun a fs => fs = a.fields := by
  apply LaysOut.sized
  apply LaysOut.position_bind
  intro start
  apply (AceHeader.laysOut_decoder.bind fun h => laysOut_ofHeader h start).mono
  rintro a fs ⟨h, _, _, rfl, ⟨rfl, rfl⟩, rfl⟩
  rfl

theorem AclHeader.laysOut_decoder : LaysOut AclHeader.decoder fun h fs => fs = h.fields := by
  apply ((LaysOut.readUInt8 _).bind fun _ => (LaysOut.readUInt8 _).bind fun _ =>
    (LaysOut.readUInt16 _).bind fun _ => (LaysOut.readUInt16 _).bind fun _ =>
    (LaysOut.readUInt16 _).bind fun _ => .pure _).mono
  rintro h fs ⟨revision, _, _, rfl, ⟨sbz1, _, _, rfl, ⟨size, _, _, rfl, ⟨count, _, _, rfl,
    ⟨sbz2, _, _, rfl, ⟨rfl, rfl⟩, rfl⟩, rfl⟩, rfl⟩, rfl⟩, rfl⟩
  rfl

theorem Acl.laysOut_decoder (mode : Mode) :
    LaysOut (Acl.decoder mode) fun a fs => fs = a.fields := by
  apply LaysOut.sized
  apply (AclHeader.laysOut_decoder.bind fun h => LaysOut.report_bind _
    (((Ace.laysOut_decoder mode).replicate h.aceCount.toNat).bind fun _ => .pure _)).mono
  rintro a fs ⟨h, _, _, rfl, ⟨⟨aces, hn⟩, _, _, rfl, ⟨rfl, rfl⟩, rfl⟩, rfl⟩
  have hc : UInt16.ofNat aces.length = h.aceCount := by rw [hn, UInt16.ofNat_toNat]
  simp [fields, header, aceCount, hc]

theorem Header.laysOut_decoder : LaysOut Header.decoder fun h fs => fs = h.fields := by
  apply ((LaysOut.readUInt8 _).bind fun _ => (LaysOut.readUInt8 _).bind fun _ =>
    (LaysOut.readUInt16 _).bind fun _ => (LaysOut.readUInt32 _).bind fun _ =>
    (LaysOut.readUInt32 _).bind fun _ => (LaysOut.readUInt32 _).bind fun _ =>
    (LaysOut.readUInt32 _).bind fun _ => .pure _).mono
  rintro h fs ⟨revision, _, _, rfl, ⟨sbz1, _, _, rfl, ⟨control, _, _, rfl, ⟨owner, _, _, rfl,
    ⟨group, _, _, rfl, ⟨sacl, _, _, rfl, ⟨dacl, _, _, rfl, ⟨rfl, rfl⟩, rfl⟩, rfl⟩, rfl⟩, rfl⟩,
    rfl⟩, rfl⟩, rfl⟩
  rfl

theorem Kind.laysOut_decoder {k : Kind} (hk : k ≠ .descriptor) (mode : Mode) :
    LaysOut (k.decoder mode) fun r fs => fs = r.fields := by
  have hmap : ∀ {α : Type} {d : Decoder α} {fields : α → Fields} {mk : α → Record},
      LaysOut d (fun a fs => fs = fields a) → (∀ a, (mk a).fields = fields a) →
      LaysOut (mk <$> d) fun r fs => fs = r.fields := by
    intro α d fields mk hd hmk
    apply (hd.map mk).mono
    rintro _ _ ⟨a, rfl, rfl⟩
    exact (hmk a).symm
  cases k with
  | authority => exact hmap Authority.laysOut_decoder fun _ => rfl
  | sid => exact hmap Sid.laysOut_decoder fun _ => rfl
  | guid => exact hmap Guid.laysOut_decoder fun _ => rfl
  | aceHeader => exact hmap AceHeader.laysOut_decoder fun _ => rfl
  | plainPayload => exact hmap PlainPayload.laysOut_decoder fun _ => rfl
  | objectPayload => exact hmap ObjectPayload.laysOut_decoder fun _ => rfl
  | ace => exact hmap (Ace.laysOut_decoder mode) fun _ => rfl
  | acl => exact hmap (Acl.laysOut_decoder mode) fun _ => rfl
  | header => exact hmap Header.laysOut_decoder fun _ => rfl
  | descriptor => exact absurd rfl hk

/-! ## Cuts -/

/-- **Every truncation is detected, and at the field where it is.**  A record that decodes is laid
out as fields.  Cut in front of byte `j` it does not decode, in the same mode: it lacks bytes in
the one field that has byte `j`, needs the width of that field, and has its bytes in front of `j`
available. -/
theorem Kind.ofBytes_take_eq_error {k : Kind} (hk : k ≠ .descriptor) {mode : Mode} {data : Bytes}
    {r : Record} (h : (k.ofBytes mode data).result = .ok r) {j : Nat}
    (hj : j < (k.ofBytes mode data).cursor.pos) :
    Fields.bytes r.fields = data.take (k.ofBytes mode data).cursor.pos ∧
    ∃ before f after, r.fields = before ++ f :: after ∧
      Fields.size before ≤ j ∧ j < Fields.size before + f.width ∧
      (∀ before' f' after', r.fields = before' ++ f' :: after' → Fields.size before' ≤ j →
        j < Fields.size before' + f'.width → before' = before ∧ f' = f ∧ after' = after) ∧
      (k.ofBytes mode (data.take j)).result =
        .error (.insufficientData f.width ((j : Int) - Fields.size before) (some f.what)) := by
  obtain ⟨_, rfl, ⟨rest, hdata⟩, htakes⟩ := laysOut_decoder hk mode 0 data r h
  obtain ⟨t, ht⟩ := htakes.ok rest
  rw [hdata] at ht
  have hpos : (k.ofBytes mode data).cursor.pos = Fields.size r.fields := by
    show (k.decoder mode ⟨0, data⟩).cursor.pos = _
    rw [ht, Nat.zero_add]
  rw [hpos] at hj ⊢
  obtain ⟨before, f, after, hfields, hle, hlt, hshort⟩ := Fields.exists_field hj
  refine ⟨?_, before, f, after, hfields, hle, hlt, ?_, ?_⟩
  · rw [← hdata]
    exact (List.take_left' rfl).symm
  · intro before' f' after' hfields' hle' hlt'
    exact Fields.field_unique (hfields'.symm.trans hfields) hle' hlt' hle hlt
  · have hcut : data.take j = (Fields.bytes r.fields).take j := by
      rw [← hdata]
      exact List.take_append_of_le_length (Nat.le_of_lt hj)
    rw [hcut]
    exact htakes.shortage hshort

/-- A list with one entry, cut behind the first two bytes of that entry's authority. -/
theorem Kind.ofBytes_take_eq_error_authority :
    ∃ data r, data = [2, 0, 24, 0, 1, 0, 0, 0, 0, 0, 16, 0, 255, 1, 31, 0, 1, 0, 0, 0, 0, 0, 0, 5] ∧
      (Kind.acl.ofBytes .strict data).result = .ok r ∧
      20 < (Kind.acl.ofBytes .strict data).cursor.pos ∧
      (Kind.acl.ofBytes .strict (data.take 20)).result =
        .error (.insufficientData 6 2 (some "SID_IDENTIFIER_AUTHORITY")) := by
  let authority : Authority := ⟨⟨[0, 0, 0, 0, 0, 5], rfl⟩⟩
  let entry : Ace := ⟨.allow, 0, 16, .plain ⟨0x1f01ff, ⟨1, authority, [], by decide⟩⟩⟩
  let acl : Acl := ⟨2, 0, 24, 0, [entry], by decide⟩
  have hok : (Kind.acl.ofBytes .strict
      [2, 0, 24, 0, 1, 0, 0, 0, 0, 0, 16, 0, 255, 1, 31, 0, 1, 0, 0, 0, 0, 0, 0, 5]).result =
      .ok (.acl acl) := rfl
  refine ⟨_, _, rfl, hok, by decide, ?_⟩
  obtain ⟨-, before, f, after, -, -, -, hunique, herror⟩ :=
    ofBytes_take_eq_error (by decide) hok (j := 20) (by decide)
  -- eleven fields of 18 bytes in all stand in front of the authority
  obtain ⟨rfl, rfl, rfl⟩ :=
    hunique (acl.fields.take 11) authority.field [] rfl (by decide) (by decide)
  exact herror

end SecurityDescriptor
