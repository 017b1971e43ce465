import SecurityDescriptor.Proofs.Reading

/-!
# Decoders built from reads

Every decoder below the descriptor is a sequence of reads, reports and failures: nothing in it
looks ahead, goes back or asks how much is left.  `Built` says so, once for each decoder; a
law that holds of the parts and passes from the parts to a sequence then holds of all.

    Built d → ∃ n ≤ c.rest.length, (d c).cursor = c.advance n      (Built.exists_advance)
    Kind.built_decoder : k ≠ .descriptor → Built (k.decoder mode)
-/

namespace SecurityDescriptor

/-- No bytes behind the ones at hand could change the error. -/
def DecodeError.Final : DecodeError → Prop
  | insufficientData .. => False
  | unrecognizedVariant _ => True
  | sizeMismatch .. => True
  | general _ => True
  | sizeOverflow => True
  | positionOverflow => True

namespace Decoder

variable {α β : Type}

/-! ## Sequences of reads -/

/-- A decoder that is put together from reads, reports and final errors. -/
inductive Built : {α : Type} → Decoder α → Prop where
  | pure {α : Type} (a : α) : Built (pure a)
  | fail {α : Type} {e : DecodeError} (he : e.Final) : Built (fail e : Decoder α)
  | report (e : Event) : Built (report e)
  | position : Built position
  | readBlock (n : Nat) (what : Option String) : Built (readBlock n what)
  | bind {α β : Type} {d : Decoder α} {f : α → Decoder β} (hd : Built d)
      (hf : ∀ a, Built (f a)) : Built (d >>= f)

namespace Built

theorem map {d : Decoder α} (h : Built d) (f : α → β) : Built (f <$> d) := by
  rw [map_eq_pure_bind]
  exact h.bind fun a => .pure (f a)

theorem replicate {d : Decoder α} (h : Built d) (n : Nat) : Built (replicate d n) := by
  induction n with
  | zero => exact .pure _
  | succ n ih => exact h.bind fun _ => ih.bind fun _ => .pure _

theorem sized {d : Decoder α} (h : Built d) (mode : Mode) (name : α → String)
    (declared : α → UInt16) : Built (mode.sized name declared d) := by
  refine position.bind fun start => h.bind fun a => position.bind fun stop => ?_
  split
  · exact .fail trivial
  · exact .pure a

/-! ## Laws -/

/-- A decoder only moves forward, and not past the end. -/
theorem exists_advance {d : Decoder α} (h : Built d) (c : Cursor) :
    ∃ n, n ≤ c.rest.length ∧ (d c).cursor = c.advance n := by
  induction h generalizing c with
  | pure a => exact ⟨0, Nat.zero_le _, rfl⟩
  | fail he => exact ⟨0, Nat.zero_le _, rfl⟩
  | report e => exact ⟨0, Nat.zero_le _, rfl⟩
  | position => exact ⟨0, Nat.zero_le _, rfl⟩
  | readBlock n what =>
    rcases Nat.lt_or_ge c.rest.length n with hlt | hle
    · rw [readBlock_of_lt what hlt]
      exact ⟨c.rest.length, Nat.le_refl _, c.finish_eq_advance⟩
    · rw [readBlock_of_le what hle]
      exact ⟨n, hle, rfl⟩
  | @bind _ _ d f hd hf ihd ihf =>
    obtain ⟨m, hm, hcm⟩ := ihd c
    -- an error keeps the cursor where it struck, so both ends of `d` are advances
    rcases hrun : d c with ⟨e | a, c', t⟩
    · rw [bind_of_error hrun]
      rw [hrun] at hcm
      exact ⟨m, hm, hcm⟩
    · rw [hrun] at hcm
      obtain rfl : c' = c.advance m := hcm
      obtain ⟨n, hn, hcn⟩ := ihf a (c.advance m)
      rw [Cursor.length_rest_advance] at hn
      rw [bind_of_ok hrun]
      exact ⟨m + n, by omega, hcn.trans (c.advance_advance m n)⟩

/-- A read that fails wants more than there is, and what there is lies ahead of the start. -/
theorem shortage_bounds {d : Decoder α} (h : Built d) {c : Cursor} {needed available : Int}
    {what : Option String}
    (hr : (d c).result = .error (.insufficientData needed available what)) :
    0 ≤ available ∧ available < needed ∧ available ≤ c.rest.length := by
  induction h generalizing c with
  | pure a => cases hr
  | fail he =>
    cases hr
    exact he.elim
  | report e => cases hr
  | position => cases hr
  | readBlock n what =>
    rcases Nat.lt_or_ge c.rest.length n with hlt | hle
    · rw [readBlock_of_lt what hlt] at hr
      cases hr
      omega
    · rw [readBlock_of_le what hle] at hr
      cases hr
  | @bind _ _ d f hd hf ihd ihf =>
    rcases hrun : d c with ⟨e | a, c', t⟩
    · rw [bind_of_error hrun] at hr
      cases hr
      exact ihd (congrArg Run.result hrun)
    · rw [bind_of_ok hrun] at hr
      -- the bound of the second part counts from where the first one ended
      obtain ⟨n, hn, hcn⟩ := hd.exists_advance c
      rw [hrun] at hcn
      obtain rfl : c' = c.advance n := hcn
      have hb := ihf a hr
      rw [Cursor.length_rest_advance] at hb
      omega

/-- A decode that is short of bytes has taken all there were. -/
theorem cursor_of_shortage {d : Decoder α} (h : Built d) {c : Cursor} {needed available : Int}
    {what : Option String}
    (hr : (d c).result = .error (.insufficientData needed available what)) :
    (d c).cursor = c.finish := by
  induction h generalizing c with
  | pure a => cases hr
  | fail he =>
    cases hr
    exact he.elim
  | report e => cases hr
  | position => cases hr
  | readBlock n what =>
    rcases Nat.lt_or_ge c.rest.length n with hlt | hle
    · rw [readBlock_of_lt what hlt]
    · rw [readBlock_of_le what hle] at hr
      cases hr
  | @bind _ _ d f hd hf ihd ihf =>
    rcases hrun : d c with ⟨e | a, c', t⟩
    · rw [bind_of_error hrun] at hr ⊢
      cases hr
      have hc := ihd (congrArg Run.result hrun)
      rwa [hrun] at hc
    · rw [bind_of_ok hrun] at hr ⊢
      obtain ⟨n, hn, hcn⟩ := hd.exists_advance c
      rw [hrun] at hcn
      obtain rfl : c' = c.advance n := hcn
      exact (ihf a hr).trans (Cursor.finish_advance hn)

end Built

theorem Reading.built {d : Decoder α} (h : Reading d) : Built d := by
  induction h with
  | pure a => exact .pure a
  | readBlock n what => exact .readBlock n what
  | bind _ _ ihd ihf => exact ihd.bind ihf

/-! ## Decoders on bytes of their own -/

/-- The run is the same wherever it starts, and ends where it started. -/
def Detached (d : Decoder α) : Prop := ∃ r t, ∀ c, d c = ⟨r, c, t⟩

namespace Detached

theorem pure (a : α) : Detached (pure a) := ⟨.ok a, [], fun _ => rfl⟩

theorem fail (e : DecodeError) : Detached (fail e : Decoder α) := ⟨.error e, [], fun _ => rfl⟩

theorem report (e : Event) : Detached (report e) := ⟨.ok (), [e], fun _ => rfl⟩

theorem within (data : Bytes) (d : Decoder α) : Detached (within data d) :=
  ⟨_, _, fun _ => rfl⟩

theorem bind {d : Decoder α} {f : α → Decoder β} (hd : Detached d) (hf : ∀ a, Detached (f a)) :
    Detached (d >>= f) := by
  obtain ⟨r, t, h⟩ := hd
  cases r with
  | error e => exact ⟨.error e, t, fun c => bind_of_error (h c) f⟩
  | ok a =>
    obtain ⟨r', t', h'⟩ := hf a
    exact ⟨r', t ++ t', fun c => by rw [bind_of_ok (h c), h']⟩

theorem map {d : Decoder α} (hd : Detached d) (f : α → β) : Detached (f <$> d) := by
  rw [map_eq_pure_bind]
  exact hd.bind fun a => .pure (f a)

theorem result_eq {d : Decoder α} (h : Detached d) (c c' : Cursor) :
    (d c).result = (d c').result := by
  obtain ⟨r, t, h⟩ := h
  rw [h, h]

end Detached

end Decoder

open Decoder

/-! ## The decoders of records -/

theorem Ace.built_decoder (mode : Mode) : Built (Ace.decoder mode) := by
  apply Built.sized
  refine Built.position.bind fun _ => AceHeader.reading_decoder.built.bind fun h => ?_
  split
  · exact (Built.report _).bind fun _ => .fail trivial
  · exact (Payload.reading_decoder _).built.bind fun _ => .pure _

theorem Acl.built_decoder (mode : Mode) : Built (Acl.decoder mode) := by
  apply Built.sized
  exact AclHeader.reading_decoder.built.bind fun _ => (Built.report _).bind fun _ =>
    ((Ace.built_decoder mode).replicate _).bind fun _ => .pure _

theorem Descriptor.detached_follow (data : Bytes) (part : Part) (offset : UInt32) {α : Type}
    (d : Decoder α) : Detached (follow data part offset d) := by
  unfold follow
  split
  · exact .pure none
  · split
    · exact (Detached.report _).bind fun _ => (Detached.within _ d).map some
    · exact .fail _

theorem Descriptor.detached_ofBytes (mode : Mode) (data : Bytes) :
    Detached (ofBytes mode data) :=
  (Detached.within data _).bind fun _ => (detached_follow ..).bind fun _ =>
    (detached_follow ..).bind fun _ => (detached_follow ..).bind fun _ =>
      (detached_follow ..).bind fun _ => .pure _

/-- A descriptor is not built from reads: it takes all there is and goes back to its parts. -/
theorem Kind.built_decoder {k : Kind} (hk : k ≠ .descriptor) (mode : Mode) :
    Built (k.decoder mode) := by
  cases k with
  | ace => exact (Ace.built_decoder mode).map _
  | acl => exact (Acl.built_decoder mode).map _
  | descriptor => exact absurd rfl hk
  | _ => exact (reading_decoder (by decide) mode).built

end SecurityDescriptor
