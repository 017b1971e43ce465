import Mathlib.Tactic.IntervalCases
import SecurityDescriptor.Proofs.EntryRuns

/-!
# Declared sizes do not matter to lenient decoding

Where the entries of an ACL lie is found by decoding them, and lenient decoding finds it without
the size fields.  So two byte strings that differ in nothing but the size fields which the decode
of the first one reads are decoded in lock-step: each entry is found at the same offset in both,
and the runs end alike.

    Resized data data' p →
      the run on `data'` is the run on `data`, with the sizes of `data'` in the record and in the
      header's event                                              (Acl.decoder_of_resized)

The step is one entry (`Ace.decoder_of_error`, `Ace.decoder_of_ok`); the size fields of the later
entries lie behind it, and there are none if it fails.
-/

namespace SecurityDescriptor

open Decoder

/-! ## Size fields -/

/-- The number in the two bytes at `i`. -/
def Bytes.uint16At (data : Bytes) (i : Nat) : UInt16 :=
  .ofNat (Bytes.toNatLE ((data.drop i).take 2))

/-- The same entry with another declared size. -/
def Ace.withSize (n : UInt16) (a : Ace) : Ace := { a with size := n }

/-- Entries that stand one behind the other from `q` on, with the sizes that `data` declares. -/
def Ace.resizeFrom (data : Bytes) : Nat → List Ace → List Ace
  | _, [] => []
  | q, a :: as => a.withSize (data.uint16At (q + 2)) :: resizeFrom data (q + a.encode.length) as

@[simp] theorem Ace.length_resizeFrom (data : Bytes) (q : Nat) (as : List Ace) :
    (resizeFrom data q as).length = as.length := by
  induction as generalizing q with
  | nil => rfl
  | cons a as ih => rw [resizeFrom, List.length_cons, List.length_cons, ih]

/-- A list that stands at `p`, with the sizes that `data` declares for it and its entries. -/
def Acl.resize (data : Bytes) (p : Nat) (a : Acl) : Acl :=
  { a with
    size := data.uint16At (p + 2)
    aces := Ace.resizeFrom data (p + 8) a.aces
    length_le := by rw [Ace.length_resizeFrom]; exact a.length_le }

/-- The same event with another size of a list. -/
def Event.withSize (n : UInt16) : Event → Event
  | aclHeader revision aceCount _ => aclHeader revision aceCount n.toNat
  | e => e

namespace Acl

/-- Byte `i` belongs to the size field of one of the next `n` entries from `q` on, whose header
is all there. -/
def IsEntrySizeByte (data : Bytes) (q n i : Nat) : Prop :=
  ∃ ns, Takes .lenient data q ns ∧ ns.length < n ∧ q + ns.sum + 4 ≤ data.length ∧
    (i = q + ns.sum + 2 ∨ i = q + ns.sum + 3)

/-- Byte `i` belongs to the size field of the ACL at `p`, or to the one of an entry whose header
the lenient decode reads completely. -/
def IsSizeByte (data : Bytes) (p i : Nat) : Prop :=
  i = p + 2 ∨ i = p + 3 ∨ ∃ offset, ReachesEntry .lenient data p offset ∧
    offset + 4 ≤ data.length ∧ (i = offset + 2 ∨ i = offset + 3)

/-- `data'` is `data` with anything written over the size fields that the lenient decode of the
ACL at `p` reads. -/
structure Resized (data data' : Bytes) (p : Nat) : Prop where
  length_eq : data'.length = data.length
  getElem?_eq : ∀ i, ¬IsSizeByte data p i → data'[i]? = data[i]?

end Acl

/-! ## Wire forms with another size -/

section Agree

variable {data data' : Bytes} {q n : Nat}

theorem take_drop_eq_of_agree (h : ∀ i, q ≤ i → i < q + n → data'[i]? = data[i]?) :
    (data'.drop q).take n = (data.drop q).take n := by
  apply List.ext_getElem?
  intro i
  rw [List.getElem?_take, List.getElem?_take]
  split
  · rw [List.getElem?_drop, List.getElem?_drop]
    exact h (q + i) (by omega) (by omega)
  · rfl

theorem drop_eq_of_agree (h : ∀ i, q ≤ i → data'[i]? = data[i]?) : data'.drop q = data.drop q := by
  apply List.ext_getElem?
  intro i
  rw [List.getElem?_drop, List.getElem?_drop]
  exact h (q + i) (by omega)

theorem drop_eq_take_append (data : Bytes) (q n : Nat) :
    data.drop q = (data.drop q).take n ++ data.drop (q + n) := by
  rw [← List.drop_drop, List.take_append_drop]

/-- A record whose size field stands behind its first two bytes, in bytes with another size
there. -/
theorem prefix_of_agree {front back : Bytes} {size : UInt16} (hfront : front.length = 2)
    (h : front ++ (Bytes.ofUInt16 size ++ back) <+: data.drop q)
    (hlen : data'.length = data.length)
    (hagree : ∀ i, q ≤ i → i < q + 4 + back.length → i ≠ q + 2 → i ≠ q + 3 →
      data'[i]? = data[i]?) :
    front ++ (Bytes.ofUInt16 (data'.uint16At (q + 2)) ++ back) <+: data'.drop q := by
  obtain ⟨rest, hrest⟩ := h
  have hq : q + 4 + back.length ≤ data.length := by
    have hl := congrArg List.length hrest
    simp only [List.length_append, List.length_drop, hfront, Bytes.length_ofUInt16] at hl
    omega
  have hsize : (data'.drop (q + 2)).take 2 = Bytes.ofUInt16 (data'.uint16At (q + 2)) := by
    apply (Bytes.ofUInt16_ofNat _).symm
    rw [List.length_take, List.length_drop]
    omega
  have hf : (data'.drop q).take 2 = front := by
    rw [take_drop_eq_of_agree fun i hle hlt => hagree i hle (by omega) (by omega) (by omega),
      ← hrest, List.append_assoc, List.take_left' hfront]
  have hb : (data'.drop (q + 4)).take back.length = back := by
    have hdrop : data.drop (q + 4) = back ++ rest := by
      rw [← List.drop_drop, ← hrest, ← List.append_assoc front, List.append_assoc _ back]
      exact List.drop_left' (by rw [List.length_append, hfront, Bytes.length_ofUInt16])
    rw [take_drop_eq_of_agree fun i hle hlt => hagree i (by omega) hlt (by omega) (by omega),
      hdrop, List.take_left]
  refine ⟨data'.drop (q + 4 + back.length), ?_⟩
  rw [drop_eq_take_append data' q 2, drop_eq_take_append data' (q + 2) 2,
    drop_eq_take_append data' (q + 4) back.length, hf, hsize, hb]
  simp only [List.append_assoc]

end Agree

/-- The other way round of `Reads.of_ok`. -/
theorem Decoder.Reads.ok_of_prefix {α : Type} {d : Decoder α} {enc : α → Bytes} (hd : Reads d enc)
    {c : Cursor} {a : α} (h : enc a <+: c.rest) : (d c).result = .ok a := by
  obtain ⟨rest, hrest⟩ := h
  exact ((hd c.pos c.rest a _).2 ⟨enc a, rest, rfl, hrest.symm, rfl⟩).1

/-! ## One entry -/

theorem AceHeader.encode_eq (h : AceHeader) :
    h.encode = [h.aceType, h.flags] ++ (Bytes.ofUInt16 h.size ++ []) := by
  simp [encode, Bytes.ofUInt8]

namespace Ace

variable {data data' : Bytes} {q : Nat}

theorem encode_withSize (a : Ace) (n : UInt16) :
    (a.withSize n).encode =
      [a.aceType.code, a.flags] ++ (Bytes.ofUInt16 n ++ a.payload.encode) := by
  simp [encode, header, AceHeader.encode, withSize, aceType, Bytes.ofUInt8]

/-- An entry that is taken is taken with any other size, and ends at the same place. -/
theorem decoder_of_ok {a : Ace} (h : (decoder .lenient (.seek data q)).result = .ok a)
    (hlen : data'.length = data.length)
    (hagree : ∀ i, q ≤ i → i < q + a.encode.length → i ≠ q + 2 → i ≠ q + 3 →
      data'[i]? = data[i]?) :
    decoder .lenient (.seek data' q) =
      ⟨.ok (a.withSize (data'.uint16At (q + 2))), .seek data' (q + a.encode.length), []⟩ := by
  have hfront : a.encode <+: data.drop q := (reads_decoder.of_ok h).1
  have hencode := a.length_encode
  have hprefix : (a.withSize (data'.uint16At (q + 2))).encode <+: data'.drop q := by
    rw [encode_withSize]
    apply prefix_of_agree rfl (encode_withSize a a.size ▸ hfront) hlen
    intro i hle hlt
    exact hagree i hle (by omega)
  have hrun := run_of_ok (reads_decoder.ok_of_prefix (c := .seek data' q) hprefix)
  rw [hrun, Cursor.advance_seek, length_encode, length_encode]
  rfl

/-- What follows the header of an entry that fails does not look at the size. -/
theorem body_of_error {c c' c₁ : Cursor} {hd : AceHeader} {n : UInt16} (hpos : c'.pos = c.pos)
    (h : AceHeader.decoder c = ⟨.ok hd, c₁, []⟩)
    (h' : AceHeader.decoder c' = ⟨.ok { hd with size := n }, c₁, []⟩) {e : DecodeError}
    (he : (body c).result = .error e) : body c' = body c := by
  rw [body_of_header h] at he ⊢
  rw [body_of_header h', hpos]
  cases hf : form? hd.aceType with
  | none => rfl
  | some f =>
    obtain ⟨access, layout⟩ := f
    simp only [hf] at he ⊢
    rcases hrun : Payload.decoder layout c₁ with ⟨e' | p, c₂, t⟩
    · rw [bind_of_error hrun, bind_of_error hrun]
    · rw [bind_of_ok hrun] at he
      cases he

/-- An entry that fails does so with any other size, for the same reason and at the same place. -/
theorem decoder_of_error {e : DecodeError}
    (h : (decoder .lenient (.seek data q)).result = .error e) (hlen : data'.length = data.length)
    (hagree : ∀ i, q ≤ i → (q + 4 ≤ data.length → i ≠ q + 2 ∧ i ≠ q + 3) →
      data'[i]? = data[i]?) :
    decoder .lenient (.seek data' q) = decoder .lenient (.seek data q) := by
  rcases Nat.lt_or_ge data.length (q + 4) with hlt | hle
  · have hdrop : data'.drop q = data.drop q :=
      drop_eq_of_agree fun i hi => hagree i hi fun hle => by omega
    rw [Cursor.seek, hdrop]
    rfl
  · have hhead (bs : Bytes) (hbs : q + 4 ≤ bs.length) : 4 ≤ (Cursor.seek bs q).rest.length := by
      rw [Cursor.length_rest_seek]
      omega
    obtain ⟨hd, hrun, -⟩ := exists_header (hhead data hle)
    obtain ⟨hd', hrun', -⟩ := exists_header (hhead data' (hlen ▸ hle))
    have hfront := (AceHeader.reads_decoder.of_ok (congrArg Run.result hrun)).1
    have hprefix : AceHeader.encode { hd with size := data'.uint16At (q + 2) } <+:
        data'.drop q := by
      rw [AceHeader.encode_eq] at hfront ⊢
      exact prefix_of_agree rfl hfront hlen fun i hi _ h2 h3 => hagree i hi fun _ => ⟨h2, h3⟩
    have hhd := AceHeader.reads_decoder.ok_of_prefix (c := .seek data' q) hprefix
    rw [hrun'] at hhd
    obtain rfl := Except.ok.inj hhd
    have hdrop : data'.drop (q + 4) = data.drop (q + 4) :=
      drop_eq_of_agree fun i hi => hagree i (by omega) fun _ => ⟨by omega, by omega⟩
    have hcursor : (Cursor.seek data' q).advance 4 = (Cursor.seek data q).advance 4 := by
      rw [Cursor.advance_seek, Cursor.advance_seek, Cursor.seek, hdrop]
      rfl
    rw [hcursor] at hrun'
    rw [decoder, Mode.sized_lenient] at h ⊢
    exact body_of_error rfl hrun hrun' h

end Ace

/-! ## Entry after entry -/

/-- The events that `d` reports are left as they are by `f`. -/
def KeepsEvents {α : Type} (f : Event → Event) (d : Decoder α) : Prop :=
  ∀ c, (d c).trace.map f = (d c).trace

namespace KeepsEvents

variable {α β : Type} {f : Event → Event}

theorem pure (a : α) : KeepsEvents f (pure a) := fun _ => rfl

theorem bind {d : Decoder α} {g : α → Decoder β} (hd : KeepsEvents f d)
    (hg : ∀ a, KeepsEvents f (g a)) : KeepsEvents f (d >>= g) := by
  intro c
  have hc := hd c
  rcases hrun : d c with ⟨e | a, c', t⟩
  · rw [hrun] at hc
    rw [bind_of_error hrun]
    exact hc
  · rw [hrun] at hc
    rw [bind_of_ok hrun, List.map_append, hg a c']
    exact congrArg (· ++ _) hc

end KeepsEvents

namespace Acl

variable {data data' : Bytes} {p q n i : Nat}

theorem IsEntrySizeByte.le (h : IsEntrySizeByte data q n i) : q + 2 ≤ i := by
  obtain ⟨ns, -, -, -, hi⟩ := h
  omega

/-- A size field is the first entry's, or one of the entries behind it. -/
theorem IsEntrySizeByte.cases (h : IsEntrySizeByte data q (n + 1) i) :
    (q + 4 ≤ data.length ∧ (i = q + 2 ∨ i = q + 3)) ∨
    ∃ a : Ace, (Ace.decoder .lenient (.seek data q)).result = .ok a ∧
      IsEntrySizeByte data (q + a.encode.length) n i := by
  obtain ⟨ns, htakes, hn, hle, hi⟩ := h
  cases htakes with
  | nil => exact .inl ⟨by simpa using hle, by simpa using hi⟩
  | @cons _ m ns a hr hc hs =>
    have hm : m = a.encode.length := by
      rw [Ace.run_of_ok hr, Cursor.advance_seek] at hc
      have hpos := congrArg Cursor.pos hc
      simp only [Cursor.seek] at hpos
      omega
    subst hm
    rw [List.sum_cons] at hle hi
    exact .inr ⟨a, hr, ns, hs, Nat.lt_of_succ_lt_succ hn, by omega, by omega⟩

/-- Both runs find every entry at the same offset. -/
theorem replicate_of_agree (hlen : data'.length = data.length)
    (hagree : ∀ i, q ≤ i → ¬IsEntrySizeByte data q n i → data'[i]? = data[i]?) :
    replicate (Ace.decoder .lenient) n (.seek data' q) =
      ⟨(replicate (Ace.decoder .lenient) n (.seek data q)).result.map fun xs =>
          ⟨Ace.resizeFrom data' q xs.val, by rw [Ace.length_resizeFrom, xs.property]⟩,
        (replicate (Ace.decoder .lenient) n (.seek data q)).cursor,
        (replicate (Ace.decoder .lenient) n (.seek data q)).trace⟩ := by
  induction n generalizing q with
  | zero =>
    have hdrop : data'.drop q = data.drop q :=
      drop_eq_of_agree fun i hi => hagree i hi fun ⟨_, _, hn, _⟩ => Nat.not_lt_zero _ hn
    rw [Cursor.seek, hdrop]
    rfl
  | succ n ih =>
    cases hr : (Ace.decoder .lenient (.seek data q)).result with
    | error e =>
      have hrun' := Ace.decoder_of_error hr hlen fun i hi hne => hagree i hi fun hsize => by
        rcases hsize.cases with ⟨hle, hi⟩ | ⟨a, ha, -⟩
        · have := hne hle
          omega
        · rw [hr] at ha
          cases ha
      rcases hrun : Ace.decoder .lenient (.seek data q) with ⟨r, c, t⟩
      rw [hrun] at hr hrun'
      obtain rfl : r = .error e := hr
      rw [replicate, bind_of_error hrun, bind_of_error hrun']
      rfl
    | ok a =>
      have hrun := Ace.run_of_ok hr
      rw [Cursor.advance_seek] at hrun
      have hrun' := Ace.decoder_of_ok hr hlen fun i hi hlt h2 h3 => hagree i hi fun hsize => by
        rcases hsize.cases with ⟨-, hi⟩ | ⟨a', ha', hrest⟩
        · omega
        · -- the size fields of later entries lie behind this one
          obtain rfl := Except.ok.inj (hr.symm.trans ha')
          have := hrest.le
          omega
      have hrest := ih (q := q + a.encode.length) fun i hi hne =>
          hagree i (by omega) fun hsize => by
        rcases hsize.cases with ⟨-, hi'⟩ | ⟨a', ha', hrest⟩
        · have := a.length_encode
          omega
        · obtain rfl := Except.ok.inj (hr.symm.trans ha')
          exact hne hrest
      rw [replicate, bind_of_ok hrun, bind_of_ok hrun']
      rcases hxs : replicate (Ace.decoder .lenient) n (.seek data (q + a.encode.length)) with
        ⟨e | xs, c, t⟩
      · rw [hxs] at hrest
        rw [bind_of_error hxs, bind_of_error hrest]
        rfl
      · rw [hxs] at hrest
        rw [bind_of_ok hxs, bind_of_ok hrest]
        rfl

/-- Entries report nothing about the size of their list. -/
theorem keepsEvents_replicate (size : UInt16) (n : Nat) :
    KeepsEvents (Event.withSize size) (replicate (Ace.decoder .lenient) n) := by
  have hentry : KeepsEvents (Event.withSize size) (Ace.decoder .lenient) := by
    intro c
    have hends := Ace.ends_decoder .lenient c
    generalize Ace.decoder .lenient c = r at hends
    cases hends <;> rfl
  induction n with
  | zero => exact .pure _
  | succ n ih => exact hentry.bind fun _ => ih.bind fun _ => .pure _

/-! ## Headers of lists -/

end Acl

/-- Where the bytes do not suffice, two decoders miss them in the same read, whatever the bytes. -/
def ShortAlike {α : Type} (n : Nat) (d d' : Decoder α) : Prop :=
  ∀ c c' : Cursor, c'.rest.length = c.rest.length → c.rest.length < n →
    (d' c').result = (d c).result

namespace ShortAlike

variable {α β : Type}

theorem map_readBlock (n : Nat) (what : Option String) (f : Block n → α) :
    ShortAlike n (f <$> readBlock n what) (f <$> readBlock n what) := by
  intro c c' hlen hlt
  rw [map_apply, map_apply, readBlock_of_lt what hlt, readBlock_of_lt what (by omega), hlen]

theorem readUInt8 (what : String) : ShortAlike 1 (readUInt8 what) (readUInt8 what) :=
  map_readBlock _ _ _

theorem readUInt16 (what : String) : ShortAlike 2 (readUInt16 what) (readUInt16 what) :=
  map_readBlock _ _ _

theorem bind {m n : Nat} {d : Decoder α} {f f' : α → Decoder β} (hm : ReadsLength m d)
    (hd : ShortAlike m d d) (hf : ∀ a a', ShortAlike n (f a) (f' a')) :
    ShortAlike (m + n) (d >>= f) (d >>= f') := by
  intro c c' hlen hlt
  rcases Nat.lt_or_ge c.rest.length m with hltm | hlem
  · obtain ⟨needed, available, what, he⟩ := hm.of_lt c hltm
    have he' : (d c').result = .error (.insufficientData needed available what) := by
      rw [hd c c' hlen hltm, he]
    rw [bind_of_error he]
    exact bind_result_of_error he' f'
  · obtain ⟨a, ha⟩ := hm.of_le c hlem
    obtain ⟨a', ha'⟩ := hm.of_le c' (by omega)
    rw [bind_of_ok ha, bind_of_ok ha']
    apply hf a a'
    · rw [Cursor.length_rest_advance, Cursor.length_rest_advance, hlen]
    · rw [Cursor.length_rest_advance]
      omega

end ShortAlike

theorem AclHeader.shortAlike_decoder : ShortAlike 8 AclHeader.decoder AclHeader.decoder :=
  .bind (.readUInt8 _) (.readUInt8 _) fun _ _ => .bind (.readUInt8 _) (.readUInt8 _) fun _ _ =>
    .bind (.readUInt16 _) (.readUInt16 _) fun _ _ =>
      .bind (.readUInt16 _) (.readUInt16 _) fun _ _ =>
        .bind (n := 0) (.readUInt16 _) (.readUInt16 _) fun _ _ _ _ _ hlt =>
          absurd hlt (Nat.not_lt_zero _)

theorem AclHeader.encode_eq (h : AclHeader) :
    h.encode = [h.revision, h.sbz1] ++
      (Bytes.ofUInt16 h.size ++ (Bytes.ofUInt16 h.aceCount ++ Bytes.ofUInt16 h.sbz2)) := by
  simp [encode, Bytes.ofUInt8]

namespace Acl

/-- Short of a header nothing but the number of bytes matters. -/
theorem decoder_of_length_eq (hlen : data'.length = data.length) (hlt : data.length < p + 8) :
    ∃ e, decoder .lenient (.seek data p) = ⟨.error e, (Cursor.seek data p).finish, []⟩ ∧
      decoder .lenient (.seek data' p) = ⟨.error e, (Cursor.seek data p).finish, []⟩ := by
  have hrest : (Cursor.seek data' p).rest.length = (Cursor.seek data p).rest.length := by
    rw [Cursor.length_rest_seek, Cursor.length_rest_seek, hlen]
  have hshort : (Cursor.seek data p).rest.length < 8 := by
    rw [Cursor.length_rest_seek]
    omega
  obtain ⟨needed, available, what, hrun⟩ := AclHeader.readsLength_decoder.of_lt _ hshort
  obtain ⟨_, _, _, hrun'⟩ := AclHeader.readsLength_decoder.of_lt _ (hrest.trans_lt hshort)
  have hresult := AclHeader.shortAlike_decoder _ _ hrest hshort
  rw [hrun, hrun'] at hresult
  cases hresult
  have hfinish : (Cursor.seek data' p).finish = (Cursor.seek data p).finish := by
    rw [Cursor.finish, hrest]
    rfl
  rw [hfinish] at hrun'
  rw [decoder, Mode.sized_lenient]
  exact ⟨_, bind_of_error hrun _, bind_of_error hrun' _⟩

/-- **Declared sizes do not matter to lenient decoding.**  Whatever is written over the size
fields that the lenient decode of an ACL reads, its own and those of the entries whose headers
are all there, the decode takes the same way: it ends with the same error, or with the same
record but for the new sizes, at the same place and with the same bytes left, and it reports the
same, but for the size of the list. -/
theorem decoder_of_resized (h : Resized data data' p) :
    decoder .lenient (.seek data' p) =
      ⟨(decoder .lenient (.seek data p)).result.map (resize data' p),
        (decoder .lenient (.seek data p)).cursor,
        (decoder .lenient (.seek data p)).trace.map (Event.withSize (data'.uint16At (p + 2)))⟩ := by
  obtain ⟨hlen, hagree⟩ := h
  rcases Nat.lt_or_ge data.length (p + 8) with hlt | hle
  · obtain ⟨e, hrun, hrun'⟩ := decoder_of_length_eq hlen hlt
    rw [hrun, hrun']
    rfl
  · obtain ⟨hd, hrun⟩ := AclHeader.readsLength_decoder.of_le (.seek data p)
      (by rw [Cursor.length_rest_seek]; omega)
    have hfront : hd.encode <+: data.drop p :=
      (AclHeader.reads_decoder.of_ok (congrArg Run.result hrun)).1
    rw [Cursor.advance_seek] at hrun
    -- the entries' size fields lie behind the header
    have hheader : AclHeader.encode { hd with size := data'.uint16At (p + 2) } <+:
        data'.drop p := by
      rw [AclHeader.encode_eq] at hfront ⊢
      apply prefix_of_agree rfl hfront hlen
      intro i hle hlt h2 h3
      apply hagree i
      rintro (hi | hi | ⟨offset, ⟨_, ns, -, -, -, rfl⟩, -, hi⟩)
      · exact h2 hi
      · exact h3 hi
      · simp only [List.length_append, Bytes.length_ofUInt16] at hlt
        omega
    have hentries := replicate_of_agree (n := hd.aceCount.toNat) (q := p + 8) hlen
      fun i hi hne => hagree i (by
        rintro (rfl | rfl | ⟨offset, ⟨hd', ns, hh', htakes, hn, rfl⟩, hle, hi⟩)
        · omega
        · omega
        · have hsame := congrArg Run.result (header_run hh')
          rw [hrun] at hsame
          obtain rfl := Except.ok.inj hsame
          exact hne ⟨ns, htakes, hn, hle, hi⟩)
    rw [decoder, Mode.sized_lenient, body, bind_of_ok hrun, bind_of_ok (header_run hheader),
      report_bind, report_bind]
    have htrace :=
      keepsEvents_replicate (data'.uint16At (p + 2)) hd.aceCount.toNat (.seek data (p + 8))
    rcases hxs : replicate (Ace.decoder .lenient) hd.aceCount.toNat (.seek data (p + 8)) with
      ⟨e | xs, c, t⟩
    · rw [hxs] at hentries
      rw [hxs] at htrace
      rw [bind_of_error hxs, bind_of_error hentries]
      simp [Except.map, Event.withSize, htrace]
    · rw [hxs] at hentries
      rw [hxs] at htrace
      rw [bind_of_ok hxs, bind_of_ok hentries]
      simp [Except.map, Event.withSize, htrace, resize]

/-- The second of two entries has no form: whatever sizes are declared, the decode goes over the
first one and stops behind the header of the second. -/
theorem decoder_of_resized_unsupported :
    Resized
      [2, 0, 32, 0, 2, 0, 0, 0, 0, 0, 20, 0, 255, 1, 31, 0, 1, 1, 0, 0, 0, 0, 0, 5, 18, 0, 0, 0,
        2, 0, 4, 0]
      [2, 0, 7, 1, 2, 0, 0, 0, 0, 0, 0, 0, 255, 1, 31, 0, 1, 1, 0, 0, 0, 0, 0, 5, 18, 0, 0, 0,
        2, 0, 255, 255] 0 ∧
    decoder .lenient (.seek
      [2, 0, 7, 1, 2, 0, 0, 0, 0, 0, 0, 0, 255, 1, 31, 0, 1, 1, 0, 0, 0, 0, 0, 5, 18, 0, 0, 0,
        2, 0, 255, 255] 0) =
      ⟨.error (.unrecognizedVariant 2), ⟨32, []⟩, [.aclHeader 2 2 263, .unsupportedAce 2 28]⟩ := by
  have h : Resized
      [2, 0, 32, 0, 2, 0, 0, 0, 0, 0, 20, 0, 255, 1, 31, 0, 1, 1, 0, 0, 0, 0, 0, 5, 18, 0, 0, 0,
        2, 0, 4, 0]
      [2, 0, 7, 1, 2, 0, 0, 0, 0, 0, 0, 0, 255, 1, 31, 0, 1, 1, 0, 0, 0, 0, 0, 5, 18, 0, 0, 0,
        2, 0, 255, 255] 0 := by
    refine ⟨rfl, fun i hi => ?_⟩
    have hown : i ≠ 2 ∧ i ≠ 3 := not_or.1 fun h => hi (h.imp_right .inl)
    have hfirst : i ≠ 10 ∧ i ≠ 11 := not_or.1 fun h => hi (.inr (.inr
      ⟨8, ⟨⟨2, 0, 32, 2, 0⟩, [], ⟨_, rfl⟩, .nil 8, by decide, rfl⟩, by decide, h⟩))
    have hsecond : i ≠ 30 ∧ i ≠ 31 := not_or.1 fun h => hi (.inr (.inr
      ⟨28, ⟨⟨2, 0, 32, 2, 0⟩, [20], ⟨_, rfl⟩, .cons rfl rfl (.nil 28), by decide, rfl⟩,
        by decide, h⟩))
    rcases Nat.lt_or_ge i 32 with hlt | hge
    · interval_cases i <;> first | rfl | omega
    · rw [List.getElem?_eq_none hge, List.getElem?_eq_none hge]
  exact ⟨h, (decoder_of_resized h).trans rfl⟩

end Acl

end SecurityDescriptor
