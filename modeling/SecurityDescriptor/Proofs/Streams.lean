import SecurityDescriptor.Proofs.EntryRuns
import SecurityDescriptor.Proofs.Relocation
import SecurityDescriptor.Stream

/-!
# Decoding from a stream

A decode at position `p` of a stream gives what the bytes from there on give on their own, and
leaves the stream at a place that its ending tells (`Kind.Ends`): behind the record; behind the
last byte if bytes were missing; 4 bytes into an entry whose type has no form; behind a record
whose size is wrong.  So steps on one stream need to know of each other only where the step before
ended:

    runAll data (.seek data p) steps = the runs of each step where the one before left the stream
                                                                        (Step.runAll_eq_zipWith)
-/

namespace SecurityDescriptor

open Decoder

/-! ## Where a decode leaves the stream -/

namespace Record

/-- The wire form of a record.  A descriptor has none, as its parts may lie anywhere. -/
def wireForm? : Record → Option Bytes
  | authority a => some a.encode
  | sid s => some s.encode
  | guid g => some g.encode
  | aceHeader h => some h.encode
  | plainPayload p => some p.encode
  | objectPayload p => some p.encode
  | ace a => some a.encode
  | acl a => some a.encode
  | header h => some h.encode
  | descriptor _ => none

/-- A record that declares a size, with the size that it has. -/
def completed? : Record → Option Completed
  | ace a => some ⟨a.aceType.name, a.size.toNat, a.encode.length⟩
  | acl a => some ⟨"ACL", a.size.toNat, a.encode.length⟩
  | _ => none

end Record

namespace Kind

/-- A decode of kind `k` at `p` comes to a record of kind `k'` at `q`: to the one that it is to
read, or to an entry of it. -/
inductive Reaches (mode : Mode) (data : Bytes) : Kind → Nat → Kind → Nat → Prop where
  | here (k : Kind) (p : Nat) : Reaches mode data k p k p
  | entry {p q : Nat} (h : Acl.ReachesEntry mode data p q) : Reaches mode data .acl p .ace q

/-- How a decode of kind `k` at `p` may end, and where each ending leaves the stream. -/
inductive Ends (mode : Mode) (data : Bytes) (k : Kind) (p : Nat) :
    Except DecodeError Record → Cursor → Prop where
  /-- A record leaves the stream behind its wire form. -/
  | taken {r : Record} {w : Bytes} (hr : r.wireForm? = some w) (hw : w <+: data.drop p) :
      Ends mode data k p (.ok r) (.seek data (p + w.length))
  /-- Missing bytes leave it behind the last byte. -/
  | shortage (needed available : Int) (what : Option String) :
      Ends mode data k p (.error (.insufficientData needed available what))
        (.seek data (max p data.length))
  /-- A type without a form leaves it 4 bytes into the entry of that type. -/
  | unsupported {q : Nat} {b : UInt8} (hq : k.Reaches mode data p .ace q)
      (hb : data[q]? = some b) (hform : b ∉ [0x00, 0x01, 0x05, 0x06]) :
      Ends mode data k p (.error (.unrecognizedVariant b.toNat)) (.seek data (q + 4))
  /-- A wrong size leaves it behind the record that declares it. -/
  | mismatch {q : Nat} {r : Record} {w : Bytes} {m : Completed}
      (hq : k.Reaches mode data p r.kind q) (hr : r.wireForm? = some w) (hw : w <+: data.drop q)
      (hm : r.completed? = some m) (hne : m.consumed ≠ m.declared) (hs : mode = .strict) :
      Ends mode data k p (.error m.error) (.seek data (q + m.consumed))

variable {mode : Mode} {data : Bytes} {p : Nat} {k : Kind}

/-- Reads end in two ways. -/
theorem ends_of_reading {α : Type} {d : Decoder α} {enc : α → Bytes} {mk : α → Record}
    (hk : k.decoder mode = mk <$> d) (hreading : Reading d) (hreads : Reads d enc)
    (hw : ∀ a, (mk a).wireForm? = some (enc a)) :
    k.Ends mode data p (k.decoder mode (.seek data p)).result
      (k.decoder mode (.seek data p)).cursor := by
  rw [hk, map_apply]
  rcases hreading.run_cases (data.drop p) with ⟨a, n, -, hrun⟩ | ⟨needed, available, what, hrun⟩
  · obtain ⟨hfront, hcursor⟩ := hreads.of_ok (c := .seek data p) (congrArg Run.result (hrun p))
    have hresult : (d (.seek data p)).result = .ok a := congrArg Run.result (hrun p)
    rw [hresult, hcursor, Cursor.advance_seek]
    exact .taken (hw a) hfront
  · have hresult : (d (.seek data p)).result = _ := congrArg Run.result (hrun p)
    have hcursor : (d (.seek data p)).cursor = (Cursor.seek data p).finish :=
      congrArg Run.cursor (hrun p)
    rw [hresult, hcursor, Cursor.finish_seek]
    exact .shortage needed available what

theorem ends_ace (mode : Mode) (data : Bytes) (p : Nat) :
    Kind.ace.Ends mode data p (Kind.ace.decoder mode (.seek data p)).result
      (Kind.ace.decoder mode (.seek data p)).cursor := by
  rw [decoder, map_apply]
  have hends := Ace.ends_decoder mode (.seek data p)
  generalize Ace.decoder mode (.seek data p) = r at hends
  cases hends with
  | unsupported hle hb hf =>
    rw [Cursor.advance_seek]
    exact .unsupported (.here .ace p) (Acl.rest_seek_iff.1 ⟨hle, hb⟩).2 (Ace.form?_eq_none_iff.1 hf)
  | shortage needed available what =>
    rw [Cursor.finish_seek]
    exact .shortage needed available what
  | @taken a ha =>
    rw [Cursor.advance_seek]
    exact .taken (r := .ace a) rfl ha
  | @mismatch a ha hm hne =>
    rw [Cursor.advance_seek]
    exact .mismatch (r := .ace a) (.here .ace p) rfl ha rfl hne hm

theorem ends_acl (mode : Mode) (data : Bytes) (p : Nat) :
    Kind.acl.Ends mode data p (Kind.acl.decoder mode (.seek data p)).result
      (Kind.acl.decoder mode (.seek data p)).cursor := by
  rw [decoder, map_apply]
  have hends := Acl.ends_decoder mode data p
  have hshortage : ∀ needed available what,
      (Acl.decoder mode (.seek data p)).result =
        .error (.insufficientData needed available what) →
      (Acl.decoder mode (.seek data p)).cursor = (Cursor.seek data p).finish :=
    fun _ _ _ => (Acl.built_decoder mode).cursor_of_shortage
  generalize Acl.decoder mode (.seek data p) = r at hends hshortage
  cases hends with
  | shortage hlt needed available what =>
    rw [Cursor.finish_seek]
    exact .shortage needed available what
  | @entry h hh offset hreach e c t he =>
    have hentry := Ace.ends_decoder mode (.seek data offset)
    rw [he] at hentry
    cases hentry with
    | unsupported hle hb hf =>
      rw [Cursor.advance_seek]
      exact .unsupported (.entry hreach) (Acl.rest_seek_iff.1 ⟨hle, hb⟩).2
        (Ace.form?_eq_none_iff.1 hf)
    | shortage needed available what =>
      -- the entry's end of the stream is the list's
      have hcursor := hshortage needed available what rfl
      rw [hcursor, Cursor.finish_seek data p]
      exact .shortage needed available what
    | @mismatch a ha hm hne =>
      rw [Cursor.advance_seek]
      exact .mismatch (r := .ace a) (.entry hreach) rfl ha rfl hne hm
  | @taken h hh a ha => exact .taken (r := .acl a) rfl ha
  | @mismatch h hh a ha hm hne =>
    exact .mismatch (r := .acl a) (.here .acl p) rfl ha rfl hne hm

theorem ends_decoder (hk : k ≠ .descriptor) (mode : Mode) (data : Bytes) (p : Nat) :
    k.Ends mode data p (k.decoder mode (.seek data p)).result
      (k.decoder mode (.seek data p)).cursor := by
  cases k with
  | authority =>
    exact ends_of_reading rfl Authority.reading_decoder Authority.reads_decoder fun _ => rfl
  | sid => exact ends_of_reading rfl Sid.reading_decoder Sid.reads_decoder fun _ => rfl
  | guid => exact ends_of_reading rfl Guid.reading_decoder Guid.reads_decoder fun _ => rfl
  | aceHeader =>
    exact ends_of_reading rfl AceHeader.reading_decoder AceHeader.reads_decoder fun _ => rfl
  | plainPayload =>
    exact ends_of_reading rfl PlainPayload.reading_decoder PlainPayload.reads_decoder fun _ => rfl
  | objectPayload =>
    exact ends_of_reading rfl ObjectPayload.reading_decoder ObjectPayload.reads_decoder fun _ => rfl
  | ace => exact ends_ace mode data p
  | acl => exact ends_acl mode data p
  | header => exact ends_of_reading rfl Header.reading_decoder Header.reads_decoder fun _ => rfl
  | descriptor => exact absurd rfl hk

/-! ## Streams of their own -/

/-- An event with `p` bytes more in front of the record; those of a descriptor count from its own
first byte. -/
def shift (p : Nat) : Kind → Event → Event
  | descriptor => id
  | _ => Event.shift p

theorem shift_of_ne (hk : k ≠ .descriptor) (p : Nat) : k.shift p = Event.shift p := by
  cases k with
  | descriptor => exact absurd rfl hk
  | _ => rfl

/-- A descriptor takes all there is, and its parts take nothing from the stream. -/
theorem decoder_descriptor_seek (mode : Mode) (data : Bytes) (p : Nat) :
    Kind.descriptor.decoder mode (.seek data p) =
      ⟨(Kind.descriptor.ofBytes mode (data.drop p)).result, (Cursor.seek data p).finish,
        (Kind.descriptor.ofBytes mode (data.drop p)).trace⟩ := by
  obtain ⟨r, t, hrun⟩ := Descriptor.detached_ofBytes mode (data.drop p)
  have hseek : Descriptor.decoder mode (.seek data p) = ⟨r, (Cursor.seek data p).finish, t⟩ :=
    hrun _
  have hstart : Descriptor.decoder mode (.start (data.drop p)) =
      ⟨r, (Cursor.start (data.drop p)).finish, t⟩ := hrun _
  rw [ofBytes, decoder, map_apply, map_apply, hseek, hstart]

/-- A decode at `p` is the decode of the bytes from there on. -/
theorem decoder_seek_eq (k : Kind) (mode : Mode) (data : Bytes) (p : Nat) :
    k.decoder mode (.seek data p) =
      ⟨(k.ofBytes mode (data.drop p)).result, (k.ofBytes mode (data.drop p)).cursor.shift p,
        (k.ofBytes mode (data.drop p)).trace.map (k.shift p)⟩ := by
  by_cases hk : k = .descriptor
  · subst hk
    have hcursor : (Kind.descriptor.ofBytes mode (data.drop p)).cursor =
        (Cursor.start (data.drop p)).finish := by
      have hseek := decoder_descriptor_seek mode (data.drop p) 0
      exact congrArg Run.cursor hseek
    rw [decoder_descriptor_seek, hcursor, Cursor.seek_eq_shift]
    simp [Cursor.finish, Cursor.shift, shift, Nat.add_right_comm]
  · rw [Cursor.seek_eq_shift, shiftsBy_decoder hk mode p, shift_of_ne hk]
    rfl

end Kind

/-! ## Steps -/

namespace Step

/-- An event of a step with `p` bytes more in front. -/
def shift (p : Nat) : Step → Event → Event
  | decode k _ => k.shift p
  | _ => Event.shift p

/-- Every step but a move does on a stream what it does on the bytes that are left. -/
theorem run_seek_eq (s : Step) (hs : ∀ pos, s ≠ .seek pos) (data : Bytes) (q : Nat) :
    s.run data (.seek data q) =
      ⟨(s.run (data.drop q) (.start (data.drop q))).result,
        (s.run (data.drop q) (.start (data.drop q))).cursor.shift q,
        (s.run (data.drop q) (.start (data.drop q))).trace.map (s.shift q)⟩ := by
  cases s with
  | seek pos => exact absurd rfl (hs pos)
  | readExact size what =>
    rw [Cursor.seek_eq_shift]
    exact (Decoder.shiftsBy_readExact size what q).map _ _
  | readUInt size what =>
    rw [Cursor.seek_eq_shift]
    exact ((Decoder.shiftsBy_readExact size what q).map _).map _ _
  | decode k mode =>
    rw [run, map_apply, Kind.decoder_seek_eq, run, map_apply]
    rfl

theorem exists_advance_readExact (size : Int) (what : Option String) (c : Cursor) :
    ∃ n, (Decoder.readExact size what c).cursor = c.advance n := by
  by_cases hi : IsIndex size
  · rw [readExact_of_isIndex hi]
    cases size with
    | ofNat n =>
      obtain ⟨m, -, hm⟩ := ((Reading.readBlock n what).map Block.bytes).built.exists_advance c
      exact ⟨m, hm⟩
    | negSucc n => exact ⟨c.rest.length, c.finish_eq_advance⟩
  · rw [readExact_of_not_isIndex hi]
    exact ⟨0, rfl⟩

/-- No step leaves the stream. -/
theorem exists_cursor_run (s : Step) (data : Bytes) (q : Nat) :
    ∃ q', (s.run data (.seek data q)).cursor = .seek data q' := by
  have hadvance : (∃ n, (s.run data (.seek data q)).cursor = (Cursor.seek data q).advance n) →
      ∃ q', (s.run data (.seek data q)).cursor = .seek data q' := by
    rintro ⟨n, hn⟩
    exact ⟨q + n, hn.trans (Cursor.advance_seek data q n)⟩
  cases s with
  | seek pos =>
    rw [run, map_apply, moveTo]
    split
    · exact ⟨pos, rfl⟩
    · exact ⟨q, rfl⟩
  | readExact size what =>
    apply hadvance
    obtain ⟨n, hn⟩ := exists_advance_readExact size what (.seek data q)
    refine ⟨n, ?_⟩
    rw [run, map_apply, hn]
  | readUInt size what =>
    apply hadvance
    obtain ⟨n, hn⟩ := exists_advance_readExact size what (.seek data q)
    refine ⟨n, ?_⟩
    rw [run, map_apply, Decoder.readUInt, map_apply, hn]
  | decode k mode =>
    apply hadvance
    rw [run, map_apply]
    by_cases hk : k = .descriptor
    · subst hk
      rw [Kind.decoder_descriptor_seek]
      exact ⟨_, Cursor.finish_eq_advance _⟩
    · obtain ⟨n, -, hn⟩ := (Kind.built_decoder hk mode).exists_advance (.seek data q)
      exact ⟨n, hn⟩

/-- Each step starts where the one before left the stream, and nothing else of the steps before
matters to it. -/
theorem runAll_eq_zipWith (data : Bytes) (p : Nat) (steps : List Step) :
    runAll data (.seek data p) steps =
      List.zipWith (fun q s => s.run data (.seek data q))
        (p :: (runAll data (.seek data p) steps).map (·.cursor.pos)) steps := by
  induction steps generalizing p with
  | nil => rfl
  | cons s ss ih =>
    obtain ⟨q, hq⟩ := exists_cursor_run s data p
    have hrest := ih q
    rw [← hq] at hrest
    have hpos : (s.run data (.seek data p)).cursor.pos = q := congrArg Cursor.pos hq
    rw [runAll, List.map_cons, List.zipWith_cons_cons, hpos, ← hrest]

end Step

/-- **Reading at a position.**  A record is decoded at `p` as it is from the bytes there on, only
that an event about an entry counts from the start of the stream; how the decode ends tells where
it leaves the stream.  A descriptor is decoded as from the bytes there on, events included, and
always leaves the stream at its end.  In a sequence of steps each one starts where the one before
left the stream, whatever became of it, and gives what it gives on the bytes that are left. -/
theorem Kind.decoder_seek (mode : Mode) (data : Bytes) (p : Nat) :
    (∀ k : Kind, k ≠ .descriptor →
      (k.decoder mode (.seek data p)).result = (k.ofBytes mode (data.drop p)).result ∧
      (k.decoder mode (.seek data p)).trace =
        (k.ofBytes mode (data.drop p)).trace.map (Event.shift p) ∧
      k.Ends mode data p (k.decoder mode (.seek data p)).result
        (k.decoder mode (.seek data p)).cursor) ∧
    ((Kind.descriptor.decoder mode (.seek data p)).result =
        (Kind.descriptor.ofBytes mode (data.drop p)).result ∧
      (Kind.descriptor.decoder mode (.seek data p)).trace =
        (Kind.descriptor.ofBytes mode (data.drop p)).trace ∧
      (Kind.descriptor.decoder mode (.seek data p)).cursor =
        .seek data (max p data.length)) ∧
    (∀ steps, Step.runAll data (.seek data p) steps =
      List.zipWith (fun q s => s.run data (.seek data q))
        (p :: (Step.runAll data (.seek data p) steps).map (·.cursor.pos)) steps) ∧
    (∀ (s : Step) (q : Nat), (∀ pos, s ≠ .seek pos) →
      (s.run data (.seek data q)).result =
        (s.run (data.drop q) (.start (data.drop q))).result ∧
      (s.run data (.seek data q)).trace =
        (s.run (data.drop q) (.start (data.drop q))).trace.map (s.shift q) ∧
      (s.run data (.seek data q)).cursor =
        (s.run (data.drop q) (.start (data.drop q))).cursor.shift q) := by
  refine ⟨?_, ?_, ?_, ?_⟩
  · intro k hk
    refine ⟨?_, ?_, ends_decoder hk mode data p⟩
    · rw [decoder_seek_eq]
    · rw [decoder_seek_eq, shift_of_ne hk]
  · rw [decoder_descriptor_seek]
    exact ⟨rfl, rfl, Cursor.finish_seek data p⟩
  · intro steps
    exact Step.runAll_eq_zipWith data p steps
  · intro s q hs
    rw [Step.run_seek_eq s hs]
    exact ⟨rfl, rfl, rfl⟩

end SecurityDescriptor
