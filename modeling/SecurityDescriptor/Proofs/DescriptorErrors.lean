import SecurityDescriptor.Proofs.EntryRuns

/-!
# Which part of a descriptor fails

A descriptor's decode goes from part to part and stops at the first one that is wrong.  What is
wrong with a part, and what is reported on the way to it, can be told from the part alone: from
its offset and from the decode of the bytes there as if nothing stood around them.

    the error is the first one that a part in `h.parts` has
    the trace is that of the parts up to there, one behind the other
                                                          (Kind.ofBytes_descriptor_visits)

A SID reports nothing.  An ACL reports its header, and the entry it failed for if the entry's
type has no form.
-/

namespace SecurityDescriptor

open Decoder

/-! ## Parts on their own -/

/-- The error of a run, if it has one. -/
def Run.error? {α : Type} (r : Run α) : Option DecodeError :=
  match r.result with
  | .ok _ => none
  | .error e => some e

namespace Run

variable {α : Type} {r : Run α}

theorem error?_eq_some_iff {e : DecodeError} : r.error? = some e ↔ r.result = .error e := by
  unfold error?
  cases r.result <;> simp

theorem error?_eq_none_iff : r.error? = none ↔ ∃ a, r.result = .ok a := by
  unfold error?
  cases r.result <;> simp

end Run

namespace Part

/-- The kind of record that a part is. -/
def kind : Part → Kind
  | owner | group => .sid
  | sacl | dacl => .acl

/-- What is wrong with a part at `offset`: it lies behind the end, or is no record. -/
def error? (mode : Mode) (blob : Bytes) (part : Part) (offset : Nat) : Option DecodeError :=
  if blob.length ≤ offset then
    some (.insufficientData (offset + 1) blob.length ("SECURITY_DESCRIPTOR " ++ part.name))
  else (part.kind.ofBytes mode (blob.drop offset)).error?

/-- What is reported of a part at `offset`: that it is followed, and what its decode reports. -/
def events (mode : Mode) (blob : Bytes) (part : Part) (offset : Nat) : List Event :=
  if blob.length ≤ offset then []
  else .following part offset :: (part.kind.ofBytes mode (blob.drop offset)).trace

end Part

/-! ## The parts of a header -/

namespace Header

/-- Those of some parts that have an offset. -/
def present (h : Header) (ps : List Part) : List Part := ps.filter fun part => h.offset part ≠ 0

/-- The parts of a descriptor, in decoding order. -/
def parts (h : Header) : List Part := h.present [.owner, .group, .sacl, .dacl]

/-- What is wrong with a part. -/
def error? (mode : Mode) (blob : Bytes) (h : Header) (part : Part) : Option DecodeError :=
  part.error? mode blob (h.offset part).toNat

/-- What is reported of a part. -/
def events (mode : Mode) (blob : Bytes) (h : Header) (part : Part) : List Event :=
  part.events mode blob (h.offset part).toNat

/-- The parts up to the first one that is wrong, and that one too. -/
def visited (mode : Mode) (blob : Bytes) (h : Header) (ps : List Part) : List Part :=
  ps.take (ps.findIdx (fun part => (h.error? mode blob part).isSome) + 1)

variable {mode : Mode} {blob : Bytes} {h : Header} {part : Part} {ps : List Part}

theorem present_cons_of_eq (h0 : h.offset part = 0) : h.present (part :: ps) = h.present ps :=
  List.filter_cons_of_neg (by simpa using h0)

theorem present_cons_of_ne (h0 : h.offset part ≠ 0) :
    h.present (part :: ps) = part :: h.present ps :=
  List.filter_cons_of_pos (by simpa using h0)

theorem visited_cons_of_some {e : DecodeError} (he : h.error? mode blob part = some e) :
    h.visited mode blob (part :: ps) = [part] := by
  simp [visited, List.findIdx_cons, he]

theorem visited_cons_of_none (he : h.error? mode blob part = none) :
    h.visited mode blob (part :: ps) = part :: h.visited mode blob ps := by
  simp [visited, List.findIdx_cons, he]

end Header

/-! ## Going from part to part -/

/-- A run goes over the parts among `ps` that a header has: its error is the first that one of
them has, and it reports what there is to report of the parts up to there. -/
structure Run.Visits {α : Type} (mode : Mode) (blob : Bytes) (h : Header) (ps : List Part)
    (r : Run α) : Prop where
  error?_eq : r.error? = (h.present ps).findSome? (h.error? mode blob)
  trace_eq : r.trace = (h.visited mode blob (h.present ps)).flatMap (h.events mode blob)

namespace Descriptor

variable {α β : Type} {mode : Mode} {blob : Bytes} {h : Header} {part : Part} {ps : List Part}

theorem visits_pure (a : α) (c : Cursor) : ((pure a : Decoder α) c).Visits mode blob h [] :=
  ⟨rfl, rfl⟩

/-- A part with an offset is decoded like a record of its own. -/
theorem follow_of_ne_zero (blob : Bytes) {d : Decoder α} {f : α → Record}
    (hd : part.kind.decoder mode = f <$> d) {offset : UInt32} (h0 : offset ≠ 0) (c : Cursor) :
    (follow blob part offset d c).error? = part.error? mode blob offset.toNat ∧
    (follow blob part offset d c).trace = part.events mode blob offset.toNat := by
  unfold follow Part.error? Part.events
  rw [if_neg h0]
  rcases Nat.lt_or_ge offset.toNat blob.length with hlt | hle
  · rw [if_pos hlt, if_neg (by omega), if_neg (by omega), Kind.ofBytes, hd, map_apply,
      report_bind, map_apply]
    unfold Run.error? Decoder.within
    refine ⟨?_, rfl⟩
    cases (d (.start (blob.drop offset.toNat))).result <;> rfl
  · rw [if_neg (by omega), if_pos hle, if_pos hle]
    exact ⟨rfl, rfl⟩

/-- One part more in front of others: what is wrong with it hides what is wrong with them. -/
theorem visits_follow_bind (part : Part) {d : Decoder α} {f : α → Record}
    (hd : part.kind.decoder mode = f <$> d) {g : Option α → Decoder β}
    (hg : ∀ x c, (g x c).Visits mode blob h ps) (c : Cursor) :
    ((follow blob part (h.offset part) d >>= g) c).Visits mode blob h (part :: ps) := by
  by_cases h0 : h.offset part = 0
  · have hrun : follow blob part (h.offset part) d c = ⟨.ok none, c, []⟩ := by
      rw [follow, if_pos h0]
      rfl
    rw [bind_of_ok hrun]
    obtain ⟨herror, htrace⟩ := hg none c
    constructor
    · rw [Header.present_cons_of_eq h0, ← herror]
      rfl
    · rw [Header.present_cons_of_eq h0, ← htrace]
      rfl
  · obtain ⟨herror, htrace⟩ := follow_of_ne_zero blob hd h0 c
    rcases hrun : follow blob part (h.offset part) d c with ⟨e | x, c', t⟩
    · rw [hrun] at herror htrace
      have he : h.error? mode blob part = some e := herror.symm
      rw [bind_of_error hrun]
      constructor
      · rw [Header.present_cons_of_ne h0, List.findSome?_cons, he]
        rfl
      · rw [Header.present_cons_of_ne h0, Header.visited_cons_of_some he, List.flatMap_singleton]
        exact htrace
    · rw [hrun] at herror htrace
      have he : h.error? mode blob part = none := herror.symm
      obtain ⟨herror', htrace'⟩ := hg x c'
      rw [bind_of_ok hrun]
      constructor
      · rw [Header.present_cons_of_ne h0, List.findSome?_cons, he]
        exact herror'
      · rw [Header.present_cons_of_ne h0, Header.visited_cons_of_none he, List.flatMap_cons,
          ← htrace']
        exact congrArg (· ++ _) htrace

/-- Behind the header the parts are gone over. -/
theorem visits_ofBytes (mode : Mode)
    (hh : Header.decoder (.start blob) = ⟨.ok h, (Cursor.start blob).advance 20, []⟩)
    (c : Cursor) : (ofBytes mode blob c).Visits mode blob h [.owner, .group, .sacl, .dacl] := by
  have hheader : within blob Header.decoder c = ⟨.ok h, c, []⟩ := by
    rw [within, hh]
  rw [ofBytes, bind_of_ok hheader]
  exact visits_follow_bind .owner (f := .sid) rfl
    (fun owner => visits_follow_bind .group (f := .sid) rfl
      fun group => visits_follow_bind .sacl (f := .acl) rfl
        fun sacl => visits_follow_bind .dacl (f := .acl) rfl
          fun dacl => visits_pure (⟨h, owner, group, sacl, dacl⟩ : Descriptor)) c

end Descriptor

/-! ## Records of every kind -/

namespace Kind

/-- An ACL that has its header reports it; it reports one thing more exactly if it comes to an
entry whose type has no form. -/
theorem ofBytes_acl_cases (mode : Mode) {data : Bytes} (hle : 8 ≤ data.length) :
    ∃ h : AclHeader, h.encode <+: data ∧
      (((∀ t, (Kind.acl.ofBytes mode data).result ≠ .error (.unrecognizedVariant t)) ∧
          (Kind.acl.ofBytes mode data).trace = [Acl.headerEvent h]) ∨
        ∃ b offset, Acl.ReachesEntry mode data 0 offset ∧ data[offset]? = some b ∧
          (Kind.acl.ofBytes mode data).result = .error (.unrecognizedVariant b.toNat) ∧
          (Kind.acl.ofBytes mode data).trace =
            [Acl.headerEvent h, .unsupportedAce b offset]) := by
  have hends : Acl.Ends mode data 0 (Acl.decoder mode (.start data)) := Acl.ends_decoder mode data 0
  rw [ofBytes, decoder, map_apply]
  generalize Acl.decoder mode (.start data) = r at hends
  cases hends with
  | shortage hlt => omega
  | @entry h hh offset hreach e c t he =>
    refine ⟨h, hh, ?_⟩
    have hentry := Ace.ends_decoder mode (.seek data offset)
    rw [he] at hentry
    cases hentry with
    | unsupported hle hb =>
      exact .inr ⟨_, offset, hreach, (Acl.rest_seek_iff.1 ⟨hle, hb⟩).2, rfl, rfl⟩
    | shortage => exact .inl ⟨by rintro t ⟨⟩, rfl⟩
    | mismatch => exact .inl ⟨by rintro t ⟨⟩, rfl⟩
  | @taken h hh => exact ⟨h, hh, .inl ⟨by rintro t ⟨⟩, rfl⟩⟩
  | @mismatch h hh => exact ⟨h, hh, .inl ⟨by rintro t ⟨⟩, rfl⟩⟩

theorem ofBytes_acl_of_lt (mode : Mode) {data : Bytes} (hlt : data.length < 8) :
    (Kind.acl.ofBytes mode data).trace = [] := by
  obtain ⟨needed, available, what, hrun⟩ := Acl.decoder_of_lt (p := 0) mode (by omega)
  rw [ofBytes, decoder, map_apply]
  exact congrArg Run.trace hrun

theorem ofBytes_descriptor_apply (mode : Mode) (blob : Bytes) :
    Kind.descriptor.ofBytes mode blob =
      (Record.descriptor <$> Descriptor.ofBytes mode blob) (Cursor.start blob).finish := by
  rw [map_apply, ofBytes, decoder, map_apply, Descriptor.decoder_apply]
  rfl

/-- Short of a header a descriptor fails as the header does. -/
theorem ofBytes_of_lt (mode : Mode) {blob : Bytes} (hlt : blob.length < 20) :
    ∃ needed available what,
      (Kind.header.ofBytes mode blob).result =
        .error (.insufficientData needed available what) ∧
      (Kind.descriptor.ofBytes mode blob).result =
        .error (.insufficientData needed available what) ∧
      (Kind.descriptor.ofBytes mode blob).trace = [] := by
  obtain ⟨needed, available, what, hheader⟩ := Header.readsLength_decoder.of_lt (.start blob) hlt
  have hwithin : within blob Header.decoder (Cursor.start blob).finish =
      ⟨.error (.insufficientData needed available what), (Cursor.start blob).finish, []⟩ := by
    rw [within, hheader]
  have hrun : Descriptor.ofBytes mode blob (Cursor.start blob).finish = _ :=
    bind_of_error hwithin _
  rw [ofBytes_descriptor_apply, map_apply, hrun, ofBytes, decoder, map_apply, hheader]
  exact ⟨needed, available, what, rfl, rfl, rfl⟩

/-- **Errors and events of a descriptor.**  Short of a header the decode fails as the header's
does and reports nothing.  Else its error is the first one of a part that is there, in decoding
order, and it reports what there is to report of the parts up to that one; it succeeds exactly if
no part has an error.  Of a SID there is nothing to report, of an ACL its header if it is all
there, and then the entry whose type has no form exactly if the ACL fails for it. -/
theorem ofBytes_descriptor_visits (mode : Mode) (blob : Bytes) :
    (blob.length < 20 → ∃ needed available what,
      (Kind.header.ofBytes mode blob).result =
        .error (.insufficientData needed available what) ∧
      (Kind.descriptor.ofBytes mode blob).result =
        .error (.insufficientData needed available what) ∧
      (Kind.descriptor.ofBytes mode blob).trace = []) ∧
    (20 ≤ blob.length → ∃ h : Header, h.encode <+: blob ∧
      (∀ e, (Kind.descriptor.ofBytes mode blob).result = .error e ↔
        h.parts.findSome? (h.error? mode blob) = some e) ∧
      ((∃ sd, (Kind.descriptor.ofBytes mode blob).result = .ok (.descriptor sd)) ↔
        ∀ part ∈ h.parts, h.error? mode blob part = none) ∧
      (Kind.descriptor.ofBytes mode blob).trace =
        (h.visited mode blob h.parts).flatMap (h.events mode blob)) ∧
    (∀ data, (Kind.sid.ofBytes mode data).trace = []) ∧
    (∀ data : Bytes, data.length < 8 → (Kind.acl.ofBytes mode data).trace = []) ∧
    (∀ data : Bytes, 8 ≤ data.length → ∃ h : AclHeader, h.encode <+: data ∧
      (((∀ t, (Kind.acl.ofBytes mode data).result ≠ .error (.unrecognizedVariant t)) ∧
          (Kind.acl.ofBytes mode data).trace = [Acl.headerEvent h]) ∨
        ∃ b offset, Acl.ReachesEntry mode data 0 offset ∧ data[offset]? = some b ∧
          (Kind.acl.ofBytes mode data).result = .error (.unrecognizedVariant b.toNat) ∧
          (Kind.acl.ofBytes mode data).trace =
            [Acl.headerEvent h, .unsupportedAce b offset])) := by
  refine ⟨ofBytes_of_lt mode, ?_, ?_, ?_, ?_⟩
  · intro hle
    obtain ⟨h, hheader⟩ := Header.readsLength_decoder.of_le (.start blob) hle
    have hh := (Header.reads_decoder.of_ok (congrArg Run.result hheader)).1
    obtain ⟨herror, htrace⟩ :=
      Descriptor.visits_ofBytes mode hheader (Cursor.start blob).finish
    rw [ofBytes_descriptor_apply]
    refine ⟨h, hh, ?_, ?_, ?_⟩
    · intro e
      rw [map_eq_error_iff, ← Run.error?_eq_some_iff, herror]
      rfl
    · rw [← List.findSome?_eq_none_iff]
      show _ ↔ (h.present _).findSome? _ = none
      rw [← herror, Run.error?_eq_none_iff]
      simp [map_eq_ok_iff]
    · rw [map_apply]
      exact htrace
  · intro data
    exact (reading_decoder (by decide) mode).trace_eq_nil _
  · intro data hlt
    exact ofBytes_acl_of_lt mode hlt
  · intro data hle
    exact ofBytes_acl_cases mode hle

/-- Two broken parts: the SACL has an entry without a form, and the DACL lies behind the end. -/
example :
    let run := Kind.descriptor.ofBytes .lenient [1, 0, 0, 0, 0, 0, 0, 0, 0, 0, 0, 0,
      20, 0, 0, 0, 255, 0, 0, 0, 2, 0, 8, 0, 1, 0, 0, 0, 2, 0, 4, 0]
    run.error? = some (.unrecognizedVariant 2) ∧
      run.trace = [.following .sacl 20, .aclHeader 2 1 8, .unsupportedAce 2 8] := by
  decide +kernel

end Kind

end SecurityDescriptor
