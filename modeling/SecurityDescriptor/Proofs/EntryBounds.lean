import SecurityDescriptor.Proofs.EntryRuns

/-!
# How many entries a list can have

The count field of an ACL goes up to 65535, but no entry is smaller than 16 bytes, so a list of
entries ends with the data at the latest.  What bounds an entry is its layout:

    l.leastSize ≤ a.encode.length ≤ l.greatestSize, 4 ∣ a.encode.length     (Ace.size_bounds)

The entries that a list's decode tries, one run for each, are the runs up to the first that fails
(`Decoder.attempts`).  Every run that succeeds takes its bytes from those that are left:

    m * number of successes ≤ c.rest.length              (Decoder.mul_countP_attempts_le)

So the decode of a list tries at most one entry more than there is room for, whatever count the
header declares (`Acl.parse_bounds`).
-/

namespace SecurityDescriptor

/-! ## The size of an entry -/

namespace Layout

/-- The bytes of an entry with no sub-authorities and no GUIDs. -/
def leastSize : Layout → Nat
  | plain => 16
  | object => 20

/-- The bytes of an entry with 255 sub-authorities and both GUIDs. -/
def greatestSize : Layout → Nat
  | plain => 1036
  | object => 1072

theorem le_leastSize (l : Layout) : 16 ≤ l.leastSize := by
  cases l <;> decide

theorem greatestSize_le (l : Layout) : l.greatestSize ≤ 1072 := by
  cases l <;> decide

end Layout

namespace Ace

/-- The bounds are those of the payload's layout, with every count of sub-authorities and every
choice of GUIDs between them. -/
theorem size_bounds (a : Ace) :
    a.payload.layout.leastSize ≤ a.encode.length ∧
    a.encode.length ≤ a.payload.layout.greatestSize ∧ 4 ∣ a.encode.length := by
  have hguid : ∀ g : Option Guid, g.toList.length ≤ 1 := by
    rintro (_ | g)
    · exact Nat.zero_le 1
    · exact Nat.le_refl 1
  rw [length_encode]
  rcases a with ⟨access, flags, size, p | p⟩
  · have hlen := p.length_encode
    have hsub := p.sid.length_le
    simp only [Payload.layout, Payload.encode, Layout.leastSize, Layout.greatestSize]
    omega
  · have hlen := p.length_encode
    have hsub := p.sid.length_le
    have hobject := hguid p.objectType
    have hinherited := hguid p.inheritedObjectType
    simp only [Payload.layout, Payload.encode, Layout.leastSize, Layout.greatestSize]
    omega

theorem le_length_encode (a : Ace) : 16 ≤ a.encode.length :=
  a.payload.layout.le_leastSize.trans a.size_bounds.1

theorem length_encode_le (a : Ace) : a.encode.length ≤ 1072 :=
  a.size_bounds.2.1.trans a.payload.layout.greatestSize_le

/-- The bytes of entries one behind the other. -/
def totalSize (as : List Ace) : Nat := (as.map (·.encode.length)).sum

theorem totalSize_bounds (as : List Ace) :
    16 * as.length ≤ totalSize as ∧ totalSize as ≤ 1072 * as.length ∧ 4 ∣ totalSize as := by
  induction as with
  | nil => exact ⟨Nat.le_refl 0, Nat.le_refl 0, Nat.dvd_zero 4⟩
  | cons a as ih =>
    obtain ⟨hle, hge, hdvd⟩ := ih
    have hcons : totalSize (a :: as) = a.encode.length + totalSize as := List.sum_cons
    have hleast := a.le_length_encode
    have hgreatest := a.length_encode_le
    rw [hcons, List.length_cons]
    refine ⟨by omega, by omega, ?_⟩
    exact Nat.dvd_add a.size_bounds.2.2 hdvd

end Ace

theorem Acl.length_encode (a : Acl) : a.encode.length = 8 + Ace.totalSize a.aces := by
  simp [encode, AclHeader.encode, Ace.totalSize, List.length_flatMap]
  omega

/-! ## Attempts -/

namespace Decoder

variable {α : Type} {d : Decoder α}

/-- The runs of a decoder that is repeated `n` times, up to the first that fails. -/
def attempts (d : Decoder α) : Nat → Cursor → List (Run α)
  | 0, _ => []
  | n + 1, c => d c :: if (d c).result.isOk then attempts d n (d c).cursor else []

theorem attempts_of_ok {c c' : Cursor} {a : α} {t : List Event} (h : d c = ⟨.ok a, c', t⟩)
    (n : Nat) : attempts d (n + 1) c = ⟨.ok a, c', t⟩ :: attempts d n c' := by
  rw [attempts, h]
  rfl

theorem attempts_of_error {c c' : Cursor} {e : DecodeError} {t : List Event}
    (h : d c = ⟨.error e, c', t⟩) (n : Nat) : attempts d (n + 1) c = [⟨.error e, c', t⟩] := by
  rw [attempts, h]
  rfl

/-- A repeated decode gives what its attempts give, and reports what they report. -/
theorem replicate_eq_attempts (d : Decoder α) (n : Nat) (c : Cursor) :
    (replicate d n c).result.map Subtype.val = (attempts d n c).mapM Run.result ∧
    (replicate d n c).trace = (attempts d n c).flatMap Run.trace := by
  induction n generalizing c with
  | zero => exact ⟨rfl, rfl⟩
  | succ n ih =>
    rcases hrun : d c with ⟨e | a, c', t⟩
    · rw [attempts_of_error hrun, replicate, bind_of_error hrun]
      exact ⟨rfl, (List.append_nil t).symm⟩
    · obtain ⟨hresult, htrace⟩ := ih c'
      rw [attempts_of_ok hrun, replicate, bind_of_ok hrun, List.mapM_cons, ← hresult,
        List.flatMap_cons, ← htrace]
      rcases hxs : replicate d n c' with ⟨e | xs, c'', t'⟩
      · rw [bind_of_error hxs]
        exact ⟨rfl, rfl⟩
      · rw [bind_of_ok hxs]
        exact ⟨rfl, congrArg (t ++ ·) (List.append_nil t')⟩

theorem length_attempts_le (d : Decoder α) (n : Nat) (c : Cursor) :
    (attempts d n c).length ≤ n := by
  induction n generalizing c with
  | zero => exact Nat.le_refl 0
  | succ n ih =>
    rcases hrun : d c with ⟨e | a, c', t⟩
    · rw [attempts_of_error hrun]
      exact Nat.le_add_left 1 n
    · rw [attempts_of_ok hrun]
      exact Nat.succ_le_succ (ih c')

/-- At most the last attempt fails. -/
theorem length_attempts_le_countP (d : Decoder α) (n : Nat) (c : Cursor) :
    (attempts d n c).length ≤ (attempts d n c).countP (·.result.isOk) + 1 := by
  induction n generalizing c with
  | zero => exact Nat.zero_le _
  | succ n ih =>
    rcases hrun : d c with ⟨e | a, c', t⟩
    · rw [attempts_of_error hrun]
      exact Nat.le_add_left 1 _
    · rw [attempts_of_ok hrun, List.countP_cons_of_pos rfl]
      exact Nat.succ_le_succ (ih c')

/-- Where every success takes at least `m` bytes, there are no more of them than there is room
for. -/
theorem mul_countP_attempts_le {m : Nat}
    (hd : ∀ c a, (d c).result = .ok a →
      ∃ k, m ≤ k ∧ k ≤ c.rest.length ∧ (d c).cursor = c.advance k) (n : Nat) (c : Cursor) :
    m * (attempts d n c).countP (·.result.isOk) ≤ c.rest.length := by
  induction n generalizing c with
  | zero => exact Nat.zero_le _
  | succ n ih =>
    rcases hrun : d c with ⟨e | a, c', t⟩
    · rw [attempts_of_error hrun]
      exact Nat.zero_le _
    · obtain ⟨k, hm, hk, hc⟩ := hd c a (congrArg Run.result hrun)
      rw [hrun] at hc
      obtain rfl : c' = c.advance k := hc
      -- the first success pays for itself, and the others share the bytes that it leaves
      have hrest := ih (c.advance k)
      rw [Cursor.length_rest_advance] at hrest
      rw [attempts_of_ok hrun, List.countP_cons_of_pos rfl, Nat.mul_add_one]
      omega

end Decoder

open Decoder

/-! ## The entries of a list -/

theorem Ace.exists_advance_of_ok {mode : Mode} (c : Cursor) (a : Ace)
    (h : (decoder mode c).result = .ok a) :
    ∃ k, 16 ≤ k ∧ k ≤ c.rest.length ∧ (decoder mode c).cursor = c.advance k := by
  have hends := ends_decoder mode c
  rw [run_of_ok h] at hends ⊢
  cases hends with
  | taken ha => exact ⟨_, a.le_length_encode, ha.length_le, rfl⟩

namespace Acl

variable {mode : Mode} {data : Bytes}

/-- The entries that the decode of a list tries. -/
def entryRuns (mode : Mode) (data : Bytes) : List (Run Ace) :=
  match AclHeader.decoder (.start data) with
  | ⟨.ok h, c, _⟩ => attempts (Ace.decoder mode) h.aceCount.toNat c
  | ⟨.error _, _, _⟩ => []

theorem entryRuns_of_lt (h : data.length < 8) : entryRuns mode data = [] := by
  obtain ⟨needed, available, what, hrun⟩ := AclHeader.readsLength_decoder.of_lt (.start data) h
  rw [entryRuns, hrun]

theorem header_run_start {h : AclHeader} (hh : h.encode <+: data) :
    AclHeader.decoder (.start data) = ⟨.ok h, .seek data 8, []⟩ :=
  header_run (p := 0) hh

theorem entryRuns_of_header {h : AclHeader} (hh : h.encode <+: data) :
    entryRuns mode data = attempts (Ace.decoder mode) h.aceCount.toNat (.seek data 8) := by
  rw [entryRuns, header_run_start hh]

/-- A list holds what the attempts at its entries give, and reports what they report. -/
theorem body_eq_entryRuns (mode : Mode) {h : AclHeader} (hh : h.encode <+: data) :
    (body mode (.start data)).result.map aces = (entryRuns mode data).mapM Run.result ∧
    (body mode (.start data)).trace =
      headerEvent h :: (entryRuns mode data).flatMap Run.trace := by
  obtain ⟨hresult, htrace⟩ :=
    replicate_eq_attempts (Ace.decoder mode) h.aceCount.toNat (.seek data 8)
  rw [entryRuns_of_header hh, ← hresult, ← htrace, body, bind_of_ok (header_run_start hh),
    report_bind]
  rcases hxs : replicate (Ace.decoder mode) h.aceCount.toNat (.seek data 8) with ⟨e | xs, c, t⟩
  · rw [bind_of_error hxs]
    exact ⟨rfl, rfl⟩
  · rw [bind_of_ok hxs]
    exact ⟨rfl, congrArg (headerEvent h :: ·) (List.append_nil t)⟩

/-- A list that is taken was read, and in strict mode has the size that it declares. -/
theorem decoder_of_ok {c : Cursor} {a : Acl} (h : (decoder mode c).result = .ok a) :
    decoder mode c = body mode c ∧ (mode = .strict → a.encode.length = a.size.toNat) := by
  rcases hrun : body mode c with ⟨e | a', c', t⟩
  · have hd : decoder mode c = ⟨.error e, c', t⟩ := Mode.sized_of_error hrun
    rw [hd] at h
    cases h
  · rw [decoder_of_body hrun] at h ⊢
    split at h
    · cases h
    · next hsize =>
      cases h
      exact ⟨if_neg hsize, fun hm => not_not.1 fun hne => hsize ⟨hm, hne⟩⟩

/-- A list that is not taken was not read, or in strict mode was read and has another size. -/
theorem body_of_decoder_error {c : Cursor} {e : DecodeError}
    (h : (decoder mode c).result = .error e) :
    (body mode c).result = .error e ∨
    ∃ a : Acl, (body mode c).result = .ok a ∧ mode = .strict ∧
      a.encode.length ≠ a.size.toNat ∧
      e = .sizeMismatch "ACL" a.size.toNat a.encode.length := by
  rcases hrun : body mode c with ⟨e' | a, c', t⟩
  · have hd : decoder mode c = ⟨.error e', c', t⟩ := Mode.sized_of_error hrun
    rw [hd] at h
    exact .inl h
  · rw [decoder_of_body hrun] at h
    split at h
    · next hsize =>
      cases h
      exact .inr ⟨a, rfl, hsize.1, hsize.2, rfl⟩
    · cases h

theorem parse_eq_ok_iff {r : Record} {rest : Bytes} :
    Kind.acl.parse mode data = .ok (r, rest) ↔
      ∃ a, r = .acl a ∧ (decoder mode (.start data)).result = .ok a ∧
        rest = (decoder mode (.start data)).cursor.rest := by
  rw [Kind.parse, Kind.ofBytes, Kind.decoder, map_apply]
  cases (decoder mode (.start data)).result with
  | error e => simp [Except.map]
  | ok a => simp [Except.map, eq_comm]

theorem parse_eq_error_iff {e : DecodeError} :
    Kind.acl.parse mode data = .error e ↔ (decoder mode (.start data)).result = .error e := by
  rw [Kind.parse, Kind.ofBytes, Kind.decoder, map_apply]
  cases (decoder mode (.start data)).result <;> simp [Except.map]

/-- A list that is parsed is its wire form, and its entries are the ones that were tried. -/
theorem parse_ok {r : Record} {rest : Bytes} (h : Kind.acl.parse mode data = .ok (r, rest)) :
    ∃ a : Acl, r = .acl a ∧ data = a.encode ++ rest ∧
      (entryRuns mode data).mapM Run.result = .ok a.aces ∧
      (mode = .strict → a.encode.length = a.size.toNat) := by
  obtain ⟨a, rfl, hdecoder, rfl⟩ := parse_eq_ok_iff.1 h
  obtain ⟨heq, hsize⟩ := decoder_of_ok hdecoder
  rw [heq] at hdecoder ⊢
  obtain ⟨⟨rest, hrest⟩, hcursor⟩ := encode_prefix_of_body hdecoder
  have hdata : a.encode ++ rest = data := hrest
  have hheader : a.header.encode <+: data := by
    rw [← hdata, encode, List.append_assoc]
    exact List.prefix_append ..
  have hresult := (body_eq_entryRuns mode hheader).1
  rw [hdecoder] at hresult
  refine ⟨a, rfl, ?_, hresult.symm, hsize⟩
  rw [hcursor]
  show data = a.encode ++ data.drop a.encode.length
  rw [← hdata, List.drop_left]

/-- A list that is not parsed failed with an entry, or in strict mode has a wrong size. -/
theorem parse_error {h : AclHeader} (hh : h.encode <+: data) {e : DecodeError}
    (he : Kind.acl.parse mode data = .error e) :
    (entryRuns mode data).mapM Run.result = .error e ∨
    ∃ a : Acl, (entryRuns mode data).mapM Run.result = .ok a.aces ∧ mode = .strict ∧
      a.encode.length ≠ a.size.toNat ∧
      e = .sizeMismatch "ACL" a.size.toNat a.encode.length := by
  have hresult := (body_eq_entryRuns mode hh).1
  rcases body_of_decoder_error (parse_eq_error_iff.1 he) with hbody | ⟨a, hbody, hsize⟩
  · rw [hbody] at hresult
    exact .inl hresult.symm
  · rw [hbody] at hresult
    exact .inr ⟨a, hresult.symm, hsize⟩

/-- Eight bytes are a header, whatever they are. -/
theorem exists_header_of_le (h : 8 ≤ data.length) : ∃ hd : AclHeader, hd.encode <+: data := by
  obtain ⟨hd, hrun⟩ := AclHeader.readsLength_decoder.of_le (.start data) h
  exact ⟨hd, (AclHeader.reads_decoder.of_ok (congrArg Run.result hrun)).1⟩

/-- However many entries the header counts, those that are taken lie behind it in the data. -/
theorem entryRuns_bounds (mode : Mode) (data : Bytes) :
    (entryRuns mode data).countP (·.result.isOk) ≤ (data.length - 8) / 16 ∧
    (entryRuns mode data).length ≤ (data.length - 8) / 16 + 1 := by
  rcases Nat.lt_or_ge data.length 8 with hlt | hle
  · rw [entryRuns_of_lt hlt]
    exact ⟨Nat.zero_le _, Nat.zero_le _⟩
  · obtain ⟨h, hh⟩ := exists_header_of_le hle
    have hcount := mul_countP_attempts_le (d := Ace.decoder mode) Ace.exists_advance_of_ok
      h.aceCount.toNat (.seek data 8)
    rw [Cursor.length_rest_seek, ← entryRuns_of_header hh] at hcount
    have htaken : (entryRuns mode data).countP (·.result.isOk) ≤ (data.length - 8) / 16 := by
      omega
    have htried : (entryRuns mode data).length ≤
        (entryRuns mode data).countP (·.result.isOk) + 1 := by
      rw [entryRuns_of_header hh]
      exact length_attempts_le_countP ..
    exact ⟨htaken, htried.trans (Nat.succ_le_succ htaken)⟩

/-- **The declared count cannot outrun the data.**  A list that is parsed takes a multiple of 4
bytes, which its count bounds from both sides, and each of its entries has a size within its
layout's bounds; in strict mode its size field tells that number and so bounds its count and the
size of its entries.  The decode tries one entry after the other up to the first that fails: at
most as many succeed as 16 bytes for each leave room for behind the header, and at most one more is
tried, whatever the count is.  Without a header none is. -/
theorem parse_bounds (mode : Mode) (data : Bytes) :
    (∀ r rest, Kind.acl.parse mode data = .ok (r, rest) →
      ∃ (a : Acl) (n : Nat), r = .acl a ∧
        data = a.header.encode ++ a.aces.flatMap Ace.encode ++ rest ∧
        data.length = n + rest.length ∧ n = 8 + Ace.totalSize a.aces ∧ 4 ∣ n ∧
        8 + 16 * a.aceCount.toNat ≤ n ∧ n ≤ 8 + 1072 * a.aceCount.toNat ∧
        (∀ ace ∈ a.aces, ace.payload.layout.leastSize ≤ ace.encode.length ∧
          ace.encode.length ≤ ace.payload.layout.greatestSize) ∧
        (entryRuns mode data).mapM Run.result = .ok a.aces ∧
        (mode = .strict → a.size.toNat = n ∧ 4 ∣ a.size.toNat ∧ a.aceCount.toNat ≤ 4095 ∧
          Ace.totalSize a.aces ≤ 65527)) ∧
    ((entryRuns mode data).countP (·.result.isOk) ≤ (data.length - 8) / 16 ∧
      (entryRuns mode data).length ≤ (data.length - 8) / 16 + 1) ∧
    (8 ≤ data.length → ∃ h : AclHeader, h.encode <+: data ∧
      (entryRuns mode data).length ≤ h.aceCount.toNat ∧
      (Kind.acl.ofBytes mode data).trace =
        headerEvent h :: (entryRuns mode data).flatMap Run.trace ∧
      ∀ e, Kind.acl.parse mode data = .error e →
        (entryRuns mode data).mapM Run.result = .error e ∨
        ∃ a : Acl, (entryRuns mode data).mapM Run.result = .ok a.aces ∧ mode = .strict ∧
          a.encode.length ≠ a.size.toNat ∧
          e = .sizeMismatch "ACL" a.size.toNat a.encode.length) ∧
    (data.length < 8 → entryRuns mode data = []) := by
  refine ⟨?_, entryRuns_bounds mode data, ?_, entryRuns_of_lt⟩
  · intro r rest h
    obtain ⟨a, rfl, rfl, haces, hstrict⟩ := parse_ok h
    obtain ⟨hle, hge, hdvd⟩ := Ace.totalSize_bounds a.aces
    have hlen := a.length_encode
    have hdvd' : 4 ∣ a.encode.length := by omega
    have hcount := a.toNat_aceCount
    refine ⟨a, a.encode.length, rfl, rfl, List.length_append, hlen, hdvd', by omega, by omega,
      fun ace _ => ⟨ace.size_bounds.1, ace.size_bounds.2.1⟩, haces, ?_⟩
    intro hm
    have hsize := hstrict hm
    have hlt := a.size.toNat_lt
    exact ⟨hsize.symm, hsize ▸ hdvd', by omega, by omega⟩
  · intro hle
    obtain ⟨h, hh⟩ := exists_header_of_le hle
    refine ⟨h, hh, ?_, ?_, fun e => parse_error hh⟩
    · rw [entryRuns_of_header hh]
      exact length_attempts_le ..
    · have htrace := (body_eq_entryRuns mode hh).2
      rw [Kind.ofBytes, Kind.decoder, map_apply, ← htrace]
      exact Mode.trace_sized ..

end Acl

end SecurityDescriptor
