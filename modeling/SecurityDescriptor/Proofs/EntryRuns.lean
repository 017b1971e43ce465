import SecurityDescriptor.Proofs.Built
import SecurityDescriptor.Proofs.RecordGrammar
import SecurityDescriptor.Proofs.Strictness

/-!
# Runs over the entries of a list

An entry's decode has four endings (`Ace.Ends`): its type has no form, bytes are missing, the
entry is taken, or it is taken and its size is wrong.  An ACL's decode takes the header and then
entry after entry, each from where the one before ended.  It stops at the first entry that fails
and ends as that entry's decode does, with the entry's event behind the header's (`Acl.Ends`):

    ReachesEntry mode data p offset → Ace.decoder mode (.seek data offset) = ⟨.error e, c, t⟩ →
      Acl.decoder mode (.seek data p) = ⟨.error e, c, .aclHeader .. :: t⟩
                                                              (Acl.exists_run_of_reachesEntry)

An entry reports an event only when its type has no form.  So that error and that event come
together, and the event's offset is where the entry starts (`Acl.decoder_unsupportedAce_iff`).
-/

namespace SecurityDescriptor

open Decoder

/-- What a decoder takes is the wire form of what it gives. -/
theorem Decoder.Reads.of_ok {α : Type} {d : Decoder α} {enc : α → Bytes} (hd : Reads d enc)
    {c : Cursor} {a : α} (h : (d c).result = .ok a) :
    enc a <+: c.rest ∧ (d c).cursor = c.advance (enc a).length := by
  obtain ⟨w, rest, rfl, hs, hc⟩ := (hd c.pos c.rest a _).1 ⟨h, rfl⟩
  refine ⟨⟨rest, hs.symm⟩, hc.trans ?_⟩
  rw [Cursor.advance, hs, List.drop_left]

/-! ## Entries -/

namespace Ace

variable {mode : Mode} {c : Cursor} {b : UInt8}

/-- The endings of an entry's decode at `c`. -/
inductive Ends (mode : Mode) (c : Cursor) : Run Ace → Prop where
  | unsupported {b : UInt8} (hle : 4 ≤ c.rest.length) (hb : c.rest[0]? = some b)
      (hf : form? b = none) : Ends mode c
        ⟨.error (.unrecognizedVariant b.toNat), c.advance 4, [.unsupportedAce b c.pos]⟩
  | shortage (needed available : Int) (what : Option String) : Ends mode c
        ⟨.error (.insufficientData needed available what), c.finish, []⟩
  | taken {a : Ace} (ha : a.encode <+: c.rest) : Ends mode c
        ⟨.ok a, c.advance a.encode.length, []⟩
  | mismatch {a : Ace} (ha : a.encode <+: c.rest) (hm : mode = .strict)
      (hne : a.encode.length ≠ a.size.toNat) : Ends mode c
        ⟨.error (.sizeMismatch a.aceType.name a.size.toNat a.encode.length),
          c.advance a.encode.length, []⟩

theorem form?_eq_none_iff : form? b = none ↔ b ∉ [0x00, 0x01, 0x05, 0x06] := by
  constructor
  · intro h hb
    have hcases : b = 0x00 ∨ b = 0x01 ∨ b = 0x05 ∨ b = 0x06 := by simpa using hb
    rcases hcases with rfl | rfl | rfl | rfl <;> exact absurd h (by decide)
  · intro hb
    cases hf : form? b with
    | none => rfl
    | some f =>
      obtain ⟨access, layout⟩ := f
      rw [form?_eq_some_iff.1 hf] at hb
      cases access <;> cases layout <;> exact absurd hb (by decide)

theorem exists_header (h : 4 ≤ c.rest.length) :
    ∃ hd, AceHeader.decoder c = ⟨.ok hd, c.advance 4, []⟩ ∧ c.rest[0]? = some hd.aceType := by
  obtain ⟨hd, hrun⟩ := AceHeader.readsLength_decoder.of_le c h
  obtain ⟨rest, hrest⟩ := (AceHeader.reads_decoder.of_ok (congrArg Run.result hrun)).1
  refine ⟨hd, hrun, ?_⟩
  rw [← hrest]
  rfl

theorem body_of_header {hd : AceHeader} {c' : Cursor}
    (h : AceHeader.decoder c = ⟨.ok hd, c', []⟩) :
    body c = (match form? hd.aceType with
      | none => do
        Decoder.report (.unsupportedAce hd.aceType c.pos)
        Decoder.fail (.unrecognizedVariant hd.aceType.toNat)
      | some (access, layout) => do
        let payload ← Payload.decoder layout
        pure (⟨access, hd.flags, hd.size, payload⟩ : Ace)) c' := by
  rw [body, position_bind, bind_of_ok h]
  rfl

theorem body_of_lt (h : c.rest.length < 4) :
    ∃ needed available what,
      body c = ⟨.error (.insufficientData needed available what), c.finish, []⟩ := by
  obtain ⟨needed, available, what, hrun⟩ := AceHeader.readsLength_decoder.of_lt c h
  refine ⟨needed, available, what, ?_⟩
  rw [body, position_bind, bind_of_error hrun]

/-- A type without a form is reported where the entry starts, and ends the decode right behind
the entry's header. -/
theorem body_of_form?_eq_none (h : 4 ≤ c.rest.length) (hb : c.rest[0]? = some b)
    (hf : form? b = none) :
    body c = ⟨.error (.unrecognizedVariant b.toNat), c.advance 4, [.unsupportedAce b c.pos]⟩ := by
  obtain ⟨hd, hrun, htype⟩ := exists_header h
  obtain rfl : b = hd.aceType := Option.some.inj (hb.symm.trans htype)
  rw [body_of_header hrun, hf]
  rfl

/-- A type with a form leaves nothing but reads. -/
theorem body_of_form?_eq_some {f : Access × Layout} (h : 4 ≤ c.rest.length)
    (hb : c.rest[0]? = some b) (hf : form? b = some f) :
    (∃ needed available what,
      body c = ⟨.error (.insufficientData needed available what), c.finish, []⟩) ∨
    (∃ a : Ace, a.encode <+: c.rest ∧ body c = ⟨.ok a, c.advance a.encode.length, []⟩) := by
  obtain ⟨hd, hrun, htype⟩ := exists_header h
  obtain rfl : b = hd.aceType := Option.some.inj (hb.symm.trans htype)
  obtain ⟨access, layout⟩ := f
  have hreading : Reading (do
      let payload ← Payload.decoder layout
      pure (⟨access, hd.flags, hd.size, payload⟩ : Ace)) :=
    (Payload.reading_decoder layout).bind fun _ => .pure _
  have hbody := body_of_header hrun
  simp only [hf] at hbody
  rcases hreading.run_cases (c.advance 4).rest with ⟨a, n, -, hn⟩ | ⟨needed, available, what, he⟩
  · right
    have hok := hbody.trans (hn (c.advance 4).pos)
    obtain ⟨hfront, hcursor⟩ := reads_body.of_ok (congrArg Run.result hok)
    refine ⟨a, hfront, ?_⟩
    rw [← hcursor, hok]
  · left
    refine ⟨needed, available, what, hbody.trans ((he (c.advance 4).pos).trans ?_)⟩
    rw [← Cursor.finish_advance h]
    rfl

theorem ends_decoder (mode : Mode) (c : Cursor) : Ends mode c (decoder mode c) := by
  have hshort : (∃ needed available what,
      body c = ⟨.error (.insufficientData needed available what), c.finish, []⟩) →
      Ends mode c (decoder mode c) := by
    rintro ⟨needed, available, what, hrun⟩
    rw [decoder, Mode.sized_of_error hrun]
    exact .shortage needed available what
  rcases Nat.lt_or_ge c.rest.length 4 with hlt | hle
  · exact hshort (body_of_lt hlt)
  · obtain ⟨hd, -, hb⟩ := exists_header hle
    cases hf : form? hd.aceType with
    | none =>
      rw [decoder, Mode.sized_of_error (body_of_form?_eq_none hle hb hf)]
      exact .unsupported hle hb hf
    | some f =>
      rcases body_of_form?_eq_some hle hb hf with hrun | ⟨a, ha, hrun⟩
      · exact hshort hrun
      · have hlen : (c.advance a.encode.length).pos - c.pos = a.encode.length :=
          Nat.add_sub_cancel_left ..
        rw [decoder, Mode.sized_of_ok hrun, hlen]
        split
        · next h => exact .mismatch ha h.1 h.2
        · exact .taken ha

theorem decoder_of_lt (mode : Mode) (h : c.rest.length < 4) :
    ∃ needed available what,
      decoder mode c = ⟨.error (.insufficientData needed available what), c.finish, []⟩ := by
  obtain ⟨needed, available, what, hrun⟩ := body_of_lt h
  exact ⟨needed, available, what, Mode.sized_of_error hrun⟩

theorem decoder_of_form?_eq_none (mode : Mode) (h : 4 ≤ c.rest.length)
    (hb : c.rest[0]? = some b) (hf : form? b = none) :
    decoder mode c =
      ⟨.error (.unrecognizedVariant b.toNat), c.advance 4, [.unsupportedAce b c.pos]⟩ :=
  Mode.sized_of_error (body_of_form?_eq_none h hb hf)

theorem run_of_ok {a : Ace} (h : (decoder mode c).result = .ok a) :
    decoder mode c = ⟨.ok a, c.advance a.encode.length, []⟩ := by
  have hends := ends_decoder mode c
  generalize decoder mode c = r at h hends
  cases hends with
  | taken ha =>
    cases h
    rfl
  | _ => cases h

end Ace

/-! ## Lists -/

namespace Acl

/-- From `q` on entries were taken one behind the other, of so many bytes each. -/
inductive Takes (mode : Mode) (data : Bytes) : Nat → List Nat → Prop where
  | nil (q : Nat) : Takes mode data q []
  | cons {q n : Nat} {ns : List Nat} {a : Ace}
      (hr : (Ace.decoder mode (.seek data q)).result = .ok a)
      (hc : (Ace.decoder mode (.seek data q)).cursor = .seek data (q + n))
      (hs : Takes mode data (q + n) ns) : Takes mode data q (n :: ns)

/-- In an ACL at `p` an entry starts at `offset`: the header is there and announces more entries
than were taken between the two. -/
def ReachesEntry (mode : Mode) (data : Bytes) (p offset : Nat) : Prop :=
  ∃ (h : AclHeader) (ns : List Nat), h.encode <+: data.drop p ∧
    Takes mode data (p + 8) ns ∧ ns.length < h.aceCount.toNat ∧ offset = p + 8 + ns.sum

/-- What a list reports when its header was read. -/
def headerEvent (h : AclHeader) : Event :=
  .aclHeader h.revision.toNat h.aceCount.toNat h.size.toNat

/-- The endings of a list's decode at position `p`. -/
inductive Ends (mode : Mode) (data : Bytes) (p : Nat) : Run Acl → Prop where
  | shortage (hlt : data.length < p + 8) (needed available : Int) (what : Option String) :
      Ends mode data p
        ⟨.error (.insufficientData needed available what), (Cursor.seek data p).finish, []⟩
  | entry {h : AclHeader} (hh : h.encode <+: data.drop p) {offset : Nat}
      (hreach : ReachesEntry mode data p offset) {e : DecodeError} {c : Cursor} {t : List Event}
      (he : Ace.decoder mode (.seek data offset) = ⟨.error e, c, t⟩) : Ends mode data p
        ⟨.error e, c, headerEvent h :: t⟩
  | taken {h : AclHeader} (hh : h.encode <+: data.drop p) {a : Acl}
      (ha : a.encode <+: data.drop p) : Ends mode data p
        ⟨.ok a, .seek data (p + a.encode.length), [headerEvent h]⟩
  | mismatch {h : AclHeader} (hh : h.encode <+: data.drop p) {a : Acl}
      (ha : a.encode <+: data.drop p) (hm : mode = .strict)
      (hne : a.encode.length ≠ a.size.toNat) : Ends mode data p
        ⟨.error (.sizeMismatch "ACL" a.size.toNat a.encode.length),
          .seek data (p + a.encode.length), [headerEvent h]⟩

variable {mode : Mode} {data : Bytes} {p q n offset : Nat}

/-- A repeated decode goes over the entries that are taken to the one that fails. -/
theorem replicate_of_takes {ns : List Nat} (h : Takes mode data q ns) (hn : ns.length < n)
    {e : DecodeError} {c : Cursor} {t : List Event}
    (he : Ace.decoder mode (.seek data (q + ns.sum)) = ⟨.error e, c, t⟩) :
    replicate (Ace.decoder mode) n (.seek data q) = ⟨.error e, c, t⟩ := by
  induction h generalizing n with
  | nil q =>
    obtain ⟨n, rfl⟩ := Nat.exists_eq_add_one_of_ne_zero (Nat.ne_of_gt hn)
    exact bind_of_error he _
  | @cons q m ns a hr hc hs ih =>
    obtain ⟨n, rfl⟩ := Nat.exists_eq_add_one_of_ne_zero (Nat.ne_of_gt (Nat.zero_lt_of_lt hn))
    rw [List.length_cons] at hn
    rw [List.sum_cons, ← Nat.add_assoc] at he
    have hrun := Ace.run_of_ok hr
    have hcursor : (Cursor.seek data q).advance a.encode.length = .seek data (q + m) := by
      rwa [hrun] at hc
    rw [hcursor] at hrun
    rw [Decoder.replicate, bind_of_ok hrun, bind_of_error (ih (by omega) he)]
    rfl

/-- A repeated decode takes as many entries as it should, or comes to one that fails. -/
theorem replicate_cases (mode : Mode) (data : Bytes) (n q : Nat) :
    (∃ xs m, replicate (Ace.decoder mode) n (.seek data q) = ⟨.ok xs, .seek data (q + m), []⟩) ∨
    (∃ ns e, Takes mode data q ns ∧ ns.length < n ∧
      (Ace.decoder mode (.seek data (q + ns.sum))).result = .error e) := by
  induction n generalizing q with
  | zero => exact .inl ⟨⟨[], rfl⟩, 0, rfl⟩
  | succ n ih =>
    cases hr : (Ace.decoder mode (.seek data q)).result with
    | error e => exact .inr ⟨[], e, .nil q, Nat.zero_lt_succ n, hr⟩
    | ok a =>
      have hrun := Ace.run_of_ok hr
      rw [Cursor.advance_seek] at hrun
      rcases ih (q + a.encode.length) with ⟨⟨xs, hxs⟩, k, hrest⟩ | ⟨ns, e, hs, hlen, he⟩
      · refine .inl ⟨⟨a :: xs, by rw [List.length_cons, hxs]⟩, a.encode.length + k, ?_⟩
        rw [Decoder.replicate, bind_of_ok hrun, bind_of_ok hrest, Nat.add_assoc]
        rfl
      · have hc := congrArg Run.cursor hrun
        refine .inr ⟨a.encode.length :: ns, e, .cons hr hc hs, Nat.succ_lt_succ hlen, ?_⟩
        rw [List.sum_cons, ← Nat.add_assoc]
        exact he

theorem header_run {h : AclHeader} (hh : h.encode <+: data.drop p) :
    AclHeader.decoder (.seek data p) = ⟨.ok h, .seek data (p + 8), []⟩ := by
  obtain ⟨rest, hrest⟩ := hh
  obtain ⟨hr, -⟩ := (AclHeader.reads_decoder p (data.drop p) h ⟨p + 8, rest⟩).2
    ⟨h.encode, rest, rfl, hrest.symm, rfl⟩
  have hlen : 8 ≤ (Cursor.seek data p).rest.length := by
    show 8 ≤ (data.drop p).length
    rw [← hrest, List.length_append]
    exact Nat.le_add_right ..
  obtain ⟨h', hrun⟩ := AclHeader.readsLength_decoder.of_le (.seek data p) hlen
  rw [← Cursor.seek, hrun] at hr
  cases hr
  rw [hrun, Cursor.advance_seek]

theorem body_of_error {h : AclHeader} (hh : h.encode <+: data.drop p) {c : Cursor}
    {e : DecodeError} {t : List Event}
    (he : replicate (Ace.decoder mode) h.aceCount.toNat (.seek data (p + 8)) =
      ⟨.error e, c, t⟩) :
    body mode (.seek data p) = ⟨.error e, c, headerEvent h :: t⟩ := by
  rw [body, bind_of_ok (header_run hh), report_bind, bind_of_error he]
  rfl

theorem body_of_ok {h : AclHeader} (hh : h.encode <+: data.drop p) {c : Cursor}
    {xs : { xs : List Ace // xs.length = h.aceCount.toNat }} {t : List Event}
    (hx : replicate (Ace.decoder mode) h.aceCount.toNat (.seek data (p + 8)) = ⟨.ok xs, c, t⟩) :
    ∃ a, body mode (.seek data p) = ⟨.ok a, c, headerEvent h :: t⟩ := by
  have hlen : xs.val.length ≤ 65535 := by
    have := h.aceCount.toNat_lt
    have := xs.property
    omega
  refine ⟨⟨h.revision, h.sbz1, h.size, h.sbz2, xs.val, hlen⟩, ?_⟩
  rw [body, bind_of_ok (header_run hh), report_bind, bind_of_ok hx]
  simp [headerEvent]

/-- In both modes a list that is taken is its wire form. -/
theorem encode_prefix_of_body {c : Cursor} {a : Acl} (h : (body mode c).result = .ok a) :
    a.encode <+: c.rest ∧ (body mode c).cursor = c.advance a.encode.length := by
  have hreads : Reads (body .lenient) Acl.encode := by
    have hd := Acl.reads_decoder
    rwa [decoder, Mode.sized_lenient] at hd
  cases mode with
  | lenient => exact hreads.of_ok h
  | strict =>
    have heq := checksLedger_body.eq_of_ok h
    rw [heq] at h ⊢
    exact hreads.of_ok h

/-- A list that was read fails if it declares another size and sizes are checked. -/
theorem decoder_of_body {c c' : Cursor} {a : Acl} {t : List Event}
    (h : body mode c = ⟨.ok a, c', t⟩) :
    decoder mode c =
      if mode = .strict ∧ a.encode.length ≠ a.size.toNat then
        ⟨.error (.sizeMismatch "ACL" a.size.toNat a.encode.length), c', t⟩
      else ⟨.ok a, c', t⟩ := by
  have hcursor := (encode_prefix_of_body (congrArg Run.result h)).2
  rw [h] at hcursor
  obtain rfl : c' = c.advance a.encode.length := hcursor
  have hlen : (c.advance a.encode.length).pos - c.pos = a.encode.length :=
    Nat.add_sub_cancel_left ..
  rw [decoder, Mode.sized_of_ok h, hlen]

/-- A list ends as its first entry that fails does. -/
theorem exists_run_of_reachesEntry (hreach : ReachesEntry mode data p offset)
    {e : DecodeError} {c : Cursor} {t : List Event}
    (he : Ace.decoder mode (.seek data offset) = ⟨.error e, c, t⟩) :
    ∃ h : AclHeader, h.encode <+: data.drop p ∧
      decoder mode (.seek data p) = ⟨.error e, c, headerEvent h :: t⟩ := by
  obtain ⟨h, ns, hh, htakes, hlen, rfl⟩ := hreach
  exact ⟨h, hh, Mode.sized_of_error (body_of_error hh (replicate_of_takes htakes hlen he))⟩

theorem decoder_of_lt (mode : Mode) (hlt : data.length < p + 8) :
    ∃ needed available what, decoder mode (.seek data p) =
      ⟨.error (.insufficientData needed available what), (Cursor.seek data p).finish, []⟩ := by
  obtain ⟨needed, available, what, hrun⟩ :=
    AclHeader.readsLength_decoder.of_lt (.seek data p) (by rw [Cursor.length_rest_seek]; omega)
  have hbody : body mode (.seek data p) = _ := bind_of_error hrun _
  exact ⟨needed, available, what, Mode.sized_of_error hbody⟩

theorem ends_decoder (mode : Mode) (data : Bytes) (p : Nat) :
    Ends mode data p (decoder mode (.seek data p)) := by
  rcases Nat.lt_or_ge (Cursor.seek data p).rest.length 8 with hlt | hle
  · rw [Cursor.length_rest_seek] at hlt
    have hlt' : data.length < p + 8 := by omega
    obtain ⟨needed, available, what, hrun⟩ := decoder_of_lt mode hlt'
    rw [hrun]
    exact .shortage hlt' needed available what
  · obtain ⟨h, hheader⟩ := AclHeader.readsLength_decoder.of_le _ hle
    have hh := (AclHeader.reads_decoder.of_ok (congrArg Run.result hheader)).1
    rcases replicate_cases mode data h.aceCount.toNat (p + 8) with
      ⟨xs, m, hxs⟩ | ⟨ns, e, htakes, hlen, he⟩
    · obtain ⟨a, hrun⟩ := body_of_ok hh hxs
      obtain ⟨ha, hcursor⟩ := encode_prefix_of_body (congrArg Run.result hrun)
      have hend : Cursor.seek data (p + 8 + m) = .seek data (p + a.encode.length) := by
        rwa [Cursor.advance_seek, hrun] at hcursor
      rw [hend] at hrun
      rw [decoder_of_body hrun]
      split
      · next hm => exact .mismatch hh ha hm.1 hm.2
      · exact .taken hh ha
    · rcases hrun : Ace.decoder mode (.seek data (p + 8 + ns.sum)) with ⟨r, c, t⟩
      rw [hrun] at he
      obtain rfl : r = .error e := he
      have hreach : ReachesEntry mode data p (p + 8 + ns.sum) := ⟨h, ns, hh, htakes, hlen, rfl⟩
      obtain ⟨h', hh', hacl⟩ := exists_run_of_reachesEntry hreach hrun
      rw [hacl]
      exact .entry hh' hreach hrun

/-! ## Unsupported entries -/

/-- An entry whose header is there stands at its offset with its type byte. -/
theorem rest_seek_iff {b : UInt8} :
    4 ≤ (Cursor.seek data offset).rest.length ∧ (Cursor.seek data offset).rest[0]? = some b ↔
      offset + 4 ≤ data.length ∧ data[offset]? = some b := by
  rw [Cursor.length_rest_seek]
  show _ ∧ (data.drop offset)[0]? = some b ↔ _
  rw [List.getElem?_drop, Nat.add_zero]
  constructor
  · rintro ⟨h, hb⟩
    exact ⟨by omega, hb⟩
  · rintro ⟨h, hb⟩
    exact ⟨by omega, hb⟩

/-- An unsupported entry ends the list's decode right behind the entry's header. -/
theorem exists_run_of_unsupported {b : UInt8} (hreach : ReachesEntry mode data p offset)
    (hle : offset + 4 ≤ data.length) (hb : data[offset]? = some b)
    (hform : b ∉ [0x00, 0x01, 0x05, 0x06]) :
    ∃ h : AclHeader, decoder mode (.seek data p) =
      ⟨.error (.unrecognizedVariant b.toNat), .seek data (offset + 4),
        [headerEvent h, .unsupportedAce b offset]⟩ := by
  obtain ⟨hle', hb'⟩ := rest_seek_iff.2 ⟨hle, hb⟩
  have hrun := Ace.decoder_of_form?_eq_none mode hle' hb' (Ace.form?_eq_none_iff.2 hform)
  rw [Cursor.advance_seek] at hrun
  obtain ⟨h, -, hacl⟩ := exists_run_of_reachesEntry hreach hrun
  exact ⟨h, hacl⟩

/-- A list comes to an unsupported entry, or reports no more than its header. -/
theorem events_cases (mode : Mode) (data : Bytes) (p : Nat) :
    (∃ offset b, ReachesEntry mode data p offset ∧ offset + 4 ≤ data.length ∧
      data[offset]? = some b ∧ b ∉ [0x00, 0x01, 0x05, 0x06]) ∨
    ((∀ t, (decoder mode (.seek data p)).result ≠ .error (.unrecognizedVariant t)) ∧
      ∀ event ∈ (decoder mode (.seek data p)).trace, ∃ h, event = headerEvent h) := by
  have hends := ends_decoder mode data p
  generalize decoder mode (.seek data p) = r at hends
  cases hends with
  | shortage => exact .inr ⟨fun t ht => (nomatch ht), fun event h => (nomatch h)⟩
  | @entry h _ offset hreach e c t he =>
    have hentry := Ace.ends_decoder mode (.seek data offset)
    rw [he] at hentry
    cases hentry with
    | unsupported hle hb hf =>
      obtain ⟨hle, hb⟩ := rest_seek_iff.1 ⟨hle, hb⟩
      exact .inl ⟨offset, _, hreach, hle, hb, Ace.form?_eq_none_iff.1 hf⟩
    | shortage => exact .inr ⟨fun t ht => (nomatch ht), by simp⟩
    | mismatch => exact .inr ⟨fun t ht => (nomatch ht), by simp⟩
  | taken => exact .inr ⟨fun t ht => (nomatch ht), by simp⟩
  | mismatch => exact .inr ⟨fun t ht => (nomatch ht), by simp⟩

/-- **Unsupported entries are found where they are.**  An ACL's decode at `p` fails for an
entry's type exactly if it comes to an entry whose header is there and whose type byte has no
form.  Then the error tells that byte, the last event and no other tells it with the entry's
offset, and the stream is left behind the entry's header; else there is no such event.  An entry
whose header is not all there is short of bytes, whatever its type byte. -/
theorem decoder_unsupportedAce_iff (mode : Mode) (data : Bytes) (p : Nat) :
    ((∃ t, (decoder mode (.seek data p)).result = .error (.unrecognizedVariant t)) ↔
      ∃ offset b, ReachesEntry mode data p offset ∧ offset + 4 ≤ data.length ∧
        data[offset]? = some b ∧ b ∉ [0x00, 0x01, 0x05, 0x06]) ∧
    (∀ offset b, ReachesEntry mode data p offset → offset + 4 ≤ data.length →
      data[offset]? = some b → b ∉ [0x00, 0x01, 0x05, 0x06] →
      (decoder mode (.seek data p)).result = .error (.unrecognizedVariant b.toNat) ∧
      (decoder mode (.seek data p)).cursor = .seek data (offset + 4) ∧
      ∃ t, (decoder mode (.seek data p)).trace = t ++ [.unsupportedAce b offset] ∧
        ∀ b' offset', .unsupportedAce b' offset' ∉ t) ∧
    ((∀ t, (decoder mode (.seek data p)).result ≠ .error (.unrecognizedVariant t)) →
      ∀ b offset, .unsupportedAce b offset ∉ (decoder mode (.seek data p)).trace) ∧
    (∀ offset, ReachesEntry mode data p offset → data.length < offset + 4 →
      ∃ needed available what, (decoder mode (.seek data p)).result =
        .error (.insufficientData needed available what)) := by
  refine ⟨⟨?_, ?_⟩, ?_, ?_, ?_⟩
  · rintro ⟨t, ht⟩
    rcases events_cases mode data p with hunsupported | ⟨hne, -⟩
    · exact hunsupported
    · exact absurd ht (hne t)
  · rintro ⟨offset, b, hreach, hle, hb, hform⟩
    obtain ⟨h, hrun⟩ := exists_run_of_unsupported hreach hle hb hform
    exact ⟨b.toNat, congrArg Run.result hrun⟩
  · intro offset b hreach hle hb hform
    obtain ⟨h, hrun⟩ := exists_run_of_unsupported hreach hle hb hform
    rw [hrun]
    exact ⟨rfl, rfl, [headerEvent h], rfl, by simp [headerEvent]⟩
  · intro hne b offset hmem
    rcases events_cases mode data p with ⟨offset, b, hreach, hle, hb, hform⟩ | ⟨-, htrace⟩
    · obtain ⟨h, hrun⟩ := exists_run_of_unsupported hreach hle hb hform
      exact hne _ (congrArg Run.result hrun)
    · obtain ⟨h, hevent⟩ := htrace _ hmem
      cases hevent
  · intro offset hreach hlt
    obtain ⟨needed, available, what, hrun⟩ := Ace.decoder_of_lt (c := .seek data offset) mode
      (by rw [Cursor.length_rest_seek]; omega)
    obtain ⟨h, -, hacl⟩ := exists_run_of_reachesEntry hreach hrun
    exact ⟨needed, available, what, congrArg Run.result hacl⟩

end Acl

end SecurityDescriptor
