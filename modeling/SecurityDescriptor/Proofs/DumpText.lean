import Mathlib.Data.List.Nodup
import SecurityDescriptor.Descriptor
import SecurityDescriptor.Proofs.IdentifierText

/-!
# The text of a descriptor can be read back

Every line of a dump ends at its carriage return, an entry ends with an empty line, and a list
of entries ends with one more; no entry begins with an empty line.  So the text of a descriptor
falls apart into its fields in one way, and two descriptors have the same text exactly if they
agree in what is printed:

    Legible (fun a : Ace => (Text.line a.text).toList) Ace.Alike            (Ace.legible_text)
    Legible (fun a : Acl => (Text.line a.text).toList) Acl.Alike            (Acl.legible_text)
    a.text = b.text ↔ a and b agree in what is printed         (Descriptor.text_eq_text_iff)

Not printed are the sizes that entries and ACLs declare, their revisions and reserved fields,
and the offsets of a descriptor's parts.
-/

namespace SecurityDescriptor

/-! ## What is printed -/

/-- Entries that agree in all but the size that they declare. -/
def Ace.Alike (a b : Ace) : Prop :=
  a.aceType = b.aceType ∧ a.flags = b.flags ∧ a.payload.mask = b.payload.mask ∧
    a.payload.sid = b.payload.sid ∧ a.payload.flags? = b.payload.flags? ∧
    a.payload.objectType? = b.payload.objectType? ∧
    a.payload.inheritedObjectType? = b.payload.inheritedObjectType?

/-- As many entries, alike one by one. -/
def Acl.Alike (a b : Acl) : Prop := List.Forall₂ Ace.Alike a.aces b.aces

/-! ## Fields in lines of their own -/

section Lines

variable {α : Type}

theorem legible_line_fixed {w : Nat} {f : α → Nat} (hf : ∀ a, f a < 16 ^ w) :
    Legible (fun a => (Text.line (String.ofList (Hex.fixed w (f a)))).toList)
      fun a b => f a = f b := by
  apply Legible.line
  · intro a hc
    rw [String.toList_ofList] at hc
    exact absurd (Hex.isAlphanum_of_mem_fixed hc) (by decide)
  · intro a b
    rw [← Hex.fixed_inj (hf a) (hf b), String.ofList_inj]

theorem legible_line_decimal (f : α → Nat) :
    Legible (fun a => (Text.line (toString (f a))).toList) fun a b => f a = f b := by
  apply Legible.line
  · intro a hc
    exact absurd (isAlphanum_of_mem_toString hc) (by decide)
  · intro a b
    exact Nat.repr_inj

theorem legible_line_sid : Legible (fun s : Sid => (Text.line s.text).toList) Eq := by
  apply Legible.line
  · intro s hc
    exact absurd (Sid.mem_text hc) (by decide)
  · intro s t
    exact Sid.text_inj

/-- A text with a hyphen is not the one of an absent value. -/
theorem orNone_map_inj {f : α → String} (hf : ∀ a b, f a = f b ↔ a = b)
    (hyphen : ∀ a, '-' ∈ (f a).toList) (x y : Option α) :
    Text.orNone (x.map f) = Text.orNone (y.map f) ↔ x = y := by
  have hne : ∀ a, f a ≠ "None" := by
    intro a h
    have := hyphen a
    rw [h] at this
    exact absurd this (by decide)
  cases x with
  | none =>
    cases y with
    | none => simp
    | some b => simpa [Text.orNone] using (hne b).symm
  | some a =>
    cases y with
    | none => simpa [Text.orNone] using hne a
    | some b => simpa [Text.orNone] using hf a b

theorem legible_line_orNone {f : α → String} (hf : ∀ a b, f a = f b ↔ a = b)
    (hyphen : ∀ a, '-' ∈ (f a).toList) (hc : ∀ a, '\r' ∉ (f a).toList) :
    Legible (fun x : Option α => (Text.line (Text.orNone (x.map f))).toList) Eq := by
  apply Legible.line
  · intro x
    cases x with
    | none => exact show '\r' ∉ "None".toList by decide
    | some a => exact hc a
  · exact orNone_map_inj hf hyphen

theorem legible_line_sid? :
    Legible (fun x : Option Sid => (Text.line (Text.orNone (x.map Sid.text))).toList) Eq := by
  apply legible_line_orNone fun _ _ => Sid.text_inj
  · intro s
    simp [Sid.text]
  · intro s hc
    exact absurd (Sid.mem_text hc) (by decide)

theorem legible_line_guid? :
    Legible (fun x : Option Guid => (Text.line (Text.orNone (x.map Guid.text))).toList) Eq := by
  apply legible_line_orNone fun _ _ => Guid.text_inj
  · intro g
    simp [Guid.text]
  · intro g hc
    exact absurd (Guid.mem_text hc) (by decide)

end Lines

/-! ## Entries -/

theorem AceType.name_inj {t u : AceType} : t.name = u.name ↔ t = u := by
  have hnodup : (all.map name).Nodup := by simp [all, name]
  constructor
  · intro h
    exact List.inj_on_of_nodup_map hnodup (mem_all t) (mem_all u) h
  · rintro rfl
    rfl

theorem Ace.toList_name (a : Ace) : ∃ cs, a.aceType.name.toList = 'A' :: cs ∧ '\r' ∉ cs := by
  unfold aceType
  cases a.access <;> cases a.payload.layout <;> exact ⟨_, rfl, by decide⟩

namespace Ace

/-- The lines that only an object payload has: its flag word and its GUIDs. -/
def objectLines (p : ObjectPayload) : List Char :=
  (Text.line ("ObjectFlags: 0x" ++ String.ofList (Hex.fixed 8 p.flags.toNat))
    ++ Text.line ("ObjectType: " ++ Text.orNone (p.objectType.map Guid.text))
    ++ Text.line ("InheritedObjectType: " ++ Text.orNone (p.inheritedObjectType.map Guid.text))
    ++ Text.line "").toList

/-- The object payload of an entry that has one. -/
def object? (a : Ace) : Option ObjectPayload :=
  match a.payload with
  | .plain _ => none
  | .object p => some p

theorem toList_line_text (a : Ace) :
    (Text.line a.text).toList =
      (Text.line a.aceType.name).toList
        ++ (Text.line ("AceFlags: 0x" ++ String.ofList (Hex.fixed 2 a.flags.toNat))).toList
        ++ (Text.line ("Sid: " ++ a.payload.sid.text)).toList
        ++ (Text.line ("Mask: 0x" ++ String.ofList (Hex.fixed 8 a.payload.mask.toNat))).toList
        ++ a.object?.elim (Text.line "").toList objectLines := by
  rcases a with ⟨access, flags, size, p | p⟩
  · simp [text, Payload.text, PlainPayload.text, object?, Text.line, Payload.sid, Payload.mask]
  · simp [text, Payload.text, ObjectPayload.text, object?, objectLines, Text.line, Payload.sid,
      Payload.mask]

theorem legible_objectLines :
    Legible objectLines fun p q => p.flags = q.flags ∧ p.objectType = q.objectType ∧
      p.inheritedObjectType = q.inheritedObjectType := by
  have hflags : Legible _ _ :=
    (legible_line_fixed (w := 8) fun p : ObjectPayload => p.flags.toNat_lt).labelled
      "ObjectFlags: 0x"
  have htype : Legible _ _ :=
    (legible_line_guid?.comap ObjectPayload.objectType).labelled "ObjectType: "
  have hheir : Legible _ _ :=
    (legible_line_guid?.comap ObjectPayload.inheritedObjectType).labelled "InheritedObjectType: "
  apply (((hflags.append htype).append hheir).append (.const (Text.line "").toList)).congr
  · intro p
    simp [objectLines]
  · intro p q
    simp only [UInt32.toNat_inj, and_true, and_assoc]

/-- The lines that follow the mask tell whether there is an object payload, and what it has
beyond a plain one. -/
theorem rel_object?_iff {a b : Ace} :
    Option.Rel (fun p q => p.flags = q.flags ∧ p.objectType = q.objectType ∧
        p.inheritedObjectType = q.inheritedObjectType) a.object? b.object? ↔
      a.payload.flags? = b.payload.flags? ∧ a.payload.objectType? = b.payload.objectType? ∧
        a.payload.inheritedObjectType? = b.payload.inheritedObjectType? := by
  rcases a with ⟨_, _, _, p | p⟩
  · rcases b with ⟨_, _, _, q | q⟩
    · exact ⟨fun _ => ⟨rfl, rfl, rfl⟩, fun _ => .none⟩
    · exact ⟨(nomatch ·), fun h => nomatch h.1⟩
  · rcases b with ⟨_, _, _, q | q⟩
    · exact ⟨(nomatch ·), fun h => nomatch h.1⟩
    · constructor
      · rintro (⟨hf, ht⟩ | _)
        exact ⟨congrArg some hf, ht⟩
      · rintro ⟨hf, ht⟩
        exact .some ⟨Option.some.inj hf, ht⟩

/-- An entry with the empty line that ends it. -/
theorem legible_text : Legible (fun a : Ace => (Text.line a.text).toList) Alike := by
  have hname : Legible _ _ := Legible.line (f := fun a : Ace => a.aceType.name) (by
    intro a
    obtain ⟨cs, hcs, hc⟩ := a.toList_name
    simpa [hcs] using hc) fun _ _ => AceType.name_inj
  have hflags : Legible _ _ :=
    (legible_line_fixed (w := 2) fun a : Ace => a.flags.toNat_lt).labelled "AceFlags: 0x"
  have hsid : Legible _ _ := (legible_line_sid.comap fun a : Ace => a.payload.sid).labelled "Sid: "
  have hmask : Legible _ _ :=
    (legible_line_fixed (w := 8) fun a : Ace => a.payload.mask.toNat_lt).labelled "Mask: 0x"
  have hobject : Legible _ _ :=
    (legible_objectLines.option (w := (Text.line "").toList) (by
      intro p s t h
      simp [objectLines, Text.line] at h)).comap object?
  apply ((((hname.append hflags).append hsid).append hmask).append hobject).congr toList_line_text
  intro a b
  rw [rel_object?_iff, UInt8.toNat_inj, UInt32.toNat_inj, Alike]
  constructor
  · rintro ⟨⟨⟨⟨ht, hf⟩, hs⟩, hm⟩, ho⟩
    exact ⟨ht, hf, hm, hs, ho⟩
  · rintro ⟨ht, hf, hm, hs, ho⟩
    exact ⟨⟨⟨⟨ht, hf⟩, hs⟩, hm⟩, ho⟩

/-- An entry begins with its name, so not with an empty line. -/
theorem emptyLine_append_ne (a : Ace) (s t : List Char) :
    (Text.line "").toList ++ s ≠ (Text.line a.text).toList ++ t := by
  obtain ⟨cs, hcs, -⟩ := a.toList_name
  intro h
  rw [toList_line_text] at h
  simp [Text.line, hcs] at h

end Ace

/-! ## Lists -/

namespace Acl

theorem toList_line_text (a : Acl) :
    (Text.line a.text).toList =
      (Text.line "=== ACL ===").toList
        ++ (a.aces.flatMap (fun ace => (Text.line ace.text).toList) ++ (Text.line "").toList) := by
  simp [text, Text.line, String.toList_join, List.flatMap_map]

/-- A list with the empty line that ends it. -/
theorem legible_text : Legible (fun a : Acl => (Text.line a.text).toList) Alike := by
  have haces : Legible _ _ := (Ace.legible_text.list Ace.emptyLine_append_ne).comap aces
  apply ((Legible.const (Text.line "=== ACL ===").toList).append haces).congr toList_line_text
  intro a b
  rw [true_and, Alike]

/-- The line of a list that may be absent. -/
theorem legible_line_text? :
    Legible (fun x : Option Acl => (Text.line (Text.orNone (x.map text))).toList)
      (Option.Rel Alike) := by
  have h : Legible _ _ := legible_text.option (w := (Text.line "None").toList) (by
    intro a s t h
    rw [toList_line_text] at h
    simp [Text.line] at h)
  apply h.congr
  · intro x
    cases x <;> rfl
  · intro x y
    exact Iff.rfl

end Acl

/-! ## Descriptors -/

/-- **The text of a descriptor can be read back.**  Two descriptors have the same text exactly
if they have the same revision and control word, the same owner and the same group, and of each
ACL both have none or both have one, with entries that are alike one by one. -/
theorem Descriptor.text_eq_text_iff (a b : Descriptor) :
    a.text = b.text ↔
      a.header.revision = b.header.revision ∧ a.header.control = b.header.control ∧
      a.owner = b.owner ∧ a.group = b.group ∧
      Option.Rel Acl.Alike a.sacl b.sacl ∧ Option.Rel Acl.Alike a.dacl b.dacl := by
  have hrevision : Legible _ _ :=
    (legible_line_decimal fun d : Descriptor => d.header.revision.toNat).labelled "Revision : "
  have hcontrol : Legible _ _ :=
    (legible_line_fixed (w := 4) fun d : Descriptor => d.header.control.toNat_lt).labelled
      "Control : 0x"
  have howner : Legible _ _ := (legible_line_sid?.comap owner).labelled "Owner : "
  have hgroup : Legible _ _ := (legible_line_sid?.comap group).labelled "Group : "
  have hsacl : Legible _ _ := (Acl.legible_line_text?.comap sacl).labelled "Sacl : "
  have hdacl : Legible _ _ := (Acl.legible_line_text?.comap dacl).labelled "Dacl : "
  have htext := ((((((Legible.const (Text.line "=== SECURITY_DESCRIPTOR ==").toList).append
    hrevision).append hcontrol).append howner).append hgroup).append hsacl).append hdacl
  rw [← String.toList_inj]
  have hab := htext.eq_iff a b
  simp only [UInt8.toNat_inj, UInt16.toNat_inj, true_and, and_assoc] at hab
  rw [← hab]
  simp only [text, String.toList_append]

end SecurityDescriptor
