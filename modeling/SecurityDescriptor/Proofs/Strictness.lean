import SecurityDescriptor.Record

/-!
# Strict decoding and lenient decoding

A lenient decode takes records one inside or behind the other.  Those that it takes
completely, in the order in which they end, are its *ledger*: the name of each, the size it
declares and the number of bytes it took.  A strict decode is the lenient one, stopped at
the first line of the ledger where the two numbers differ.

    firstMismatch (k.completed c) = some m → strict fails, with the numbers of `m`
    firstMismatch (k.completed c) = none   → strict and lenient are the same run
                                                              (Kind.decoder_ofSwitch)

The ledger of a decode that fails has the records which were complete by then.
-/

namespace SecurityDescriptor

open Decoder

/-! ## Ledgers -/

/-- A record that was taken completely. -/
structure Completed where
  record : String
  declared : Nat
  consumed : Nat
deriving DecidableEq

/-- The error of strict decoding at a record. -/
def Completed.error (r : Completed) : DecodeError :=
  .sizeMismatch r.record r.declared r.consumed

/-- The first record that declares another size than it has. -/
def firstMismatch (rs : List Completed) : Option Completed :=
  rs.find? fun r => r.consumed ≠ r.declared

/-- The records that a decode completes, for each place where it may start. -/
abbrev Ledger := Cursor → List Completed

namespace Ledger

/-- What is completed behind `d`, if `d` succeeds. -/
def after {α : Type} (d : Decoder α) (l : α → Ledger) : Ledger := fun c =>
  match d c with
  | ⟨.ok a, c', _⟩ => l a c'
  | ⟨.error _, _, _⟩ => []

/-- The record that `d` takes, if `d` succeeds. -/
def record {α : Type} (d : Decoder α) (name : α → String) (declared : α → UInt16) : Ledger :=
  fun c => after d (fun a c' => [⟨name a, (declared a).toNat, c'.pos - c.pos⟩]) c

end Ledger

/-- An entry is complete when its payload ends. -/
def Ace.completed : Ledger := .record (Ace.decoder .lenient) (·.aceType.name) (·.size)

/-- So many entries, one behind the other. -/
def Acl.completedAces : Nat → Ledger
  | 0 => fun _ => []
  | n + 1 => fun c =>
    Ace.completed c ++ Ledger.after (Ace.decoder .lenient) (fun _ => completedAces n) c

/-- The entries behind the header, then the list itself. -/
def Acl.completed : Ledger := fun c =>
  Ledger.after AclHeader.decoder (fun h => completedAces h.aceCount.toNat) c
    ++ Ledger.record (Acl.decoder .lenient) (fun _ => "ACL") (·.size) c

namespace Descriptor

/-- What is completed in the ACL at an offset, if there is one. -/
def completedAt (data : Bytes) (offset : UInt32) : Ledger := fun _ =>
  if offset ≠ 0 ∧ offset.toNat < data.length then
    Acl.completed (.start (data.drop offset.toNat))
  else []

/-- The ACLs are reached only behind the header, the owner and the group, and the DACL only
behind the SACL. -/
def completed (data : Bytes) : Ledger :=
  .after (within data Header.decoder) fun h =>
  .after (follow data .owner h.offsetOwner Sid.decoder) fun _ =>
  .after (follow data .group h.offsetGroup Sid.decoder) fun _ => fun c =>
    completedAt data h.offsetSacl c ++
      Ledger.after (follow data .sacl h.offsetSacl (Acl.decoder .lenient))
        (fun _ => completedAt data h.offsetDacl) c

end Descriptor

/-- Only entries, ACLs and what holds them declare a size. -/
def Kind.completed : Kind → Ledger
  | .ace => Ace.completed
  | .acl => Acl.completed
  | .descriptor => fun c => Descriptor.completed c.rest c.finish
  | _ => fun _ => []

/-! ## Runs that check a ledger -/

/-- `ds` is `dl`, but fails at the first mismatch in the ledger `l` of `dl`. -/
structure ChecksLedger {α : Type} (ds dl : Decoder α) (l : Ledger) : Prop where
  mismatch : ∀ c m, firstMismatch (l c) = some m → (ds c).result = .error m.error
  same : ∀ c, firstMismatch (l c) = none → ds c = dl c

theorem firstMismatch_append (rs rs' : List Completed) :
    firstMismatch (rs ++ rs') = (firstMismatch rs).or (firstMismatch rs') :=
  List.find?_append

theorem firstMismatch_singleton (r : Completed) :
    firstMismatch [r] = if r.consumed = r.declared then none else some r := by
  by_cases h : r.consumed = r.declared <;> simp [firstMismatch, h]

namespace Ledger

variable {α : Type} {d : Decoder α} {c c' : Cursor} {t : List Event}

theorem after_of_ok {a : α} (h : d c = ⟨.ok a, c', t⟩) (l : α → Ledger) :
    after d l c = l a c' := by
  rw [after, h]

theorem after_of_error {e : DecodeError} (h : d c = ⟨.error e, c', t⟩) (l : α → Ledger) :
    after d l c = [] := by
  rw [after, h]

end Ledger

namespace ChecksLedger

variable {α β : Type}

/-- Where the checked run gives a value there was no mismatch. -/
theorem eq_of_ok {ds dl : Decoder α} {l : Ledger} (h : ChecksLedger ds dl l) {c : Cursor} {a : α}
    (ha : (ds c).result = .ok a) : ds c = dl c := by
  apply h.same
  cases hm : firstMismatch (l c) with
  | none => rfl
  | some m =>
    rw [h.mismatch c m hm] at ha
    cases ha

/-- What both modes read alike has nothing to check. -/
theorem refl (d : Decoder α) : ChecksLedger d d fun _ => [] where
  mismatch := by
    intro c m h
    cases h
  same := fun _ _ => rfl

/-- The ledger of a sequence goes on where the lenient run does. -/
theorem bind {ds dl : Decoder α} {fs fl : α → Decoder β} {l : Ledger} {k : α → Ledger}
    (hd : ChecksLedger ds dl l) (hf : ∀ a, ChecksLedger (fs a) (fl a) (k a)) :
    ChecksLedger (ds >>= fs) (dl >>= fl) fun c => l c ++ Ledger.after dl k c where
  mismatch := by
    intro c m h
    rw [firstMismatch_append] at h
    -- a mismatch in the first part hides whatever the second part holds
    cases hm : firstMismatch (l c) with
    | some m' =>
      rw [hm] at h
      cases h
      exact bind_result_of_error (hd.mismatch c _ hm) fs
    | none =>
      rw [hm, Option.none_or] at h
      rcases hrun : dl c with ⟨e | a, c', t⟩
      · rw [Ledger.after_of_error hrun] at h
        cases h
      · rw [Ledger.after_of_ok hrun] at h
        rw [bind_of_ok ((hd.same c hm).trans hrun)]
        exact (hf a).mismatch c' m h
  same := by
    intro c h
    rw [firstMismatch_append, Option.or_eq_none_iff] at h
    have hc := hd.same c h.1
    rcases hrun : dl c with ⟨e | a, c', t⟩
    · rw [bind_of_error hrun, bind_of_error (hc.trans hrun)]
    · rw [Ledger.after_of_ok hrun] at h
      rw [bind_of_ok hrun, bind_of_ok (hc.trans hrun), (hf a).same c' h.2]

/-- Behind what both modes read alike only the rest is to be checked. -/
theorem after (d : Decoder α) {fs fl : α → Decoder β} {k : α → Ledger}
    (hf : ∀ a, ChecksLedger (fs a) (fl a) (k a)) :
    ChecksLedger (d >>= fs) (d >>= fl) (Ledger.after d k) :=
  (refl d).bind hf

/-- What both modes do alike at the end adds nothing to be checked. -/
theorem bind_same {ds dl : Decoder α} {l : Ledger} (h : ChecksLedger ds dl l)
    (f : α → Decoder β) : ChecksLedger (ds >>= f) (dl >>= f) l := by
  have hb := h.bind fun a => refl (f a)
  have hl : (fun c => l c ++ Ledger.after dl (fun _ _ => []) c) = l := by
    funext c
    rw [Ledger.after]
    split <;> rw [List.append_nil]
  rwa [hl] at hb

theorem map {ds dl : Decoder α} {l : Ledger} (h : ChecksLedger ds dl l) (f : α → β) :
    ChecksLedger (f <$> ds) (f <$> dl) l := by
  rw [map_eq_pure_bind, map_eq_pure_bind]
  exact h.bind_same _

/-- On bytes of its own a decoder checks what it completes there. -/
theorem within {ds dl : Decoder α} {l : Ledger} (h : ChecksLedger ds dl l) (data : Bytes) :
    ChecksLedger (within data ds) (within data dl) fun _ => l (.start data) where
  mismatch _ m hm := h.mismatch (.start data) m hm
  same c hm := by
    rw [Decoder.within, Decoder.within, h.same (.start data) hm]

/-- A record is checked last, when all that it holds has been. -/
theorem sized {ds dl : Decoder α} {l : Ledger} (h : ChecksLedger ds dl l)
    (name : α → String) (declared : α → UInt16) :
    ChecksLedger (Mode.strict.sized name declared ds) dl
      fun c => l c ++ Ledger.record dl name declared c where
  mismatch := by
    intro c m hm
    rw [firstMismatch_append] at hm
    cases hl : firstMismatch (l c) with
    | some m' =>
      rw [hl] at hm
      cases hm
      have hc := h.mismatch c _ hl
      rcases hrun : ds c with ⟨r, c', t⟩
      rw [hrun] at hc
      obtain rfl : r = .error m.error := hc
      rw [Mode.sized_of_error hrun]
    | none =>
      rw [hl, Option.none_or, Ledger.record] at hm
      rcases hrun : dl c with ⟨e | a, c', t⟩
      · rw [Ledger.after_of_error hrun] at hm
        cases hm
      · rw [Ledger.after_of_ok hrun, firstMismatch_singleton] at hm
        split at hm
        · cases hm
        · next hne =>
          cases hm
          rw [Mode.sized_of_ok ((h.same c hl).trans hrun), if_pos ⟨rfl, hne⟩]
          rfl
  same := by
    intro c hm
    rw [firstMismatch_append, Option.or_eq_none_iff, Ledger.record] at hm
    have hc := h.same c hm.1
    rcases hrun : dl c with ⟨e | a, c', t⟩
    · rw [Mode.sized_of_error (hc.trans hrun)]
    · rw [Ledger.after_of_ok hrun, firstMismatch_singleton] at hm
      split at hm
      · next heq =>
        rw [Mode.sized_of_ok (hc.trans hrun), if_neg (fun hne => hne.2 heq)]
      · cases hm.2

end ChecksLedger

/-! ## The decoders -/

theorem Ace.checksLedger_decoder :
    ChecksLedger (Ace.decoder .strict) (Ace.decoder .lenient) Ace.completed := by
  unfold Ace.completed Ace.decoder
  rw [Mode.sized_lenient]
  exact (ChecksLedger.refl body).sized _ _

theorem Acl.checksLedger_replicate (n : Nat) :
    ChecksLedger (replicate (Ace.decoder .strict) n) (replicate (Ace.decoder .lenient) n)
      (completedAces n) := by
  induction n with
  | zero => exact .refl _
  | succ n ih => exact Ace.checksLedger_decoder.bind fun _ => ih.bind_same _

theorem Acl.checksLedger_body :
    ChecksLedger (body .strict) (body .lenient)
      (Ledger.after AclHeader.decoder fun h => completedAces h.aceCount.toNat) := by
  apply ChecksLedger.after
  intro h
  exact .after (Decoder.report _) fun _ => (checksLedger_replicate _).bind_same _

theorem Acl.checksLedger_decoder :
    ChecksLedger (Acl.decoder .strict) (Acl.decoder .lenient) Acl.completed := by
  unfold Acl.completed Acl.decoder
  rw [Mode.sized_lenient]
  exact checksLedger_body.sized _ _

namespace Descriptor

theorem checksLedger_follow (data : Bytes) (part : Part) (offset : UInt32) :
    ChecksLedger (follow data part offset (Acl.decoder .strict))
      (follow data part offset (Acl.decoder .lenient)) (completedAt data offset) := by
  unfold follow
  split
  · next h0 =>
    have hl : completedAt data offset = fun _ => [] := by
      funext c
      exact if_neg fun h => h.1 h0
    rw [hl]
    exact .refl _
  · next h0 =>
    split
    · next hlt =>
      have hl : completedAt data offset =
          fun _ => Acl.completed (.start (data.drop offset.toNat)) := by
        funext c
        exact if_pos ⟨h0, hlt⟩
      rw [hl]
      exact .after (Decoder.report _) fun _ => (Acl.checksLedger_decoder.within _).map some
    · next hge =>
      have hl : completedAt data offset = fun _ => [] := by
        funext c
        exact if_neg fun h => hge h.2
      rw [hl]
      exact .refl _

theorem checksLedger_ofBytes (data : Bytes) :
    ChecksLedger (ofBytes .strict data) (ofBytes .lenient data) (completed data) := by
  apply ChecksLedger.after
  intro h
  apply ChecksLedger.after
  intro owner
  apply ChecksLedger.after
  intro group
  apply (checksLedger_follow data .sacl h.offsetSacl).bind
  intro sacl
  exact (checksLedger_follow data .dacl h.offsetDacl).bind_same _

end Descriptor

theorem Kind.checksLedger_decoder (k : Kind) :
    ChecksLedger (k.decoder .strict) (k.decoder .lenient) k.completed := by
  cases k with
  | ace => exact Ace.checksLedger_decoder.map _
  | acl => exact Acl.checksLedger_decoder.map _
  | descriptor =>
    apply ChecksLedger.map
    constructor
    · intro c m h
      rw [Descriptor.decoder_apply]
      exact (Descriptor.checksLedger_ofBytes c.rest).mismatch c.finish m h
    · intro c h
      exact (Descriptor.checksLedger_ofBytes c.rest).same c.finish h
  | _ => exact .refl _

/-- **Strict decoding is lenient decoding up to the first wrong size.**  Only the truth value
`true` switches it on; it fails with the first mismatch in the ledger of the lenient run, and
without a mismatch it is that very run.  So what it accepts, lenient decoding accepts alike. -/
theorem Kind.decoder_ofSwitch (k : Kind) (c : Cursor) :
    (∀ s : Switch, s ≠ .flag true →
      k.decoder (.ofSwitch s) c = k.decoder .lenient c) ∧
    (∀ m, firstMismatch (k.completed c) = some m →
      (k.decoder (.ofSwitch (.flag true)) c).result =
        .error (.sizeMismatch m.record m.declared m.consumed)) ∧
    (firstMismatch (k.completed c) = none →
      k.decoder (.ofSwitch (.flag true)) c = k.decoder .lenient c) ∧
    (∀ r, (k.decoder (.ofSwitch (.flag true)) c).result = .ok r →
      k.decoder (.ofSwitch (.flag true)) c = k.decoder .lenient c) := by
  have h := k.checksLedger_decoder
  refine ⟨?_, h.mismatch c, h.same c, ?_⟩
  · intro s hs
    have hm : Mode.ofSwitch s = .lenient := by
      cases s with
      | flag on =>
        cases on with
        | false => rfl
        | true => exact absurd rfl hs
      | value text => rfl
    rw [hm]
  · intro r hr
    exact h.eq_of_ok hr

/-- One entry of 20 bytes in an ACL that declares none: the entry passes, the list does not. -/
example : Kind.acl.completed (.start [2, 0, 0, 0, 1, 0, 0, 0,
      0, 0, 20, 0, 255, 1, 31, 0, 1, 1, 0, 0, 0, 0, 0, 5, 18, 0, 0, 0]) =
    [⟨"ACCESS_ALLOWED_ACE_TYPE", 20, 20⟩, ⟨"ACL", 0, 28⟩] := by
  decide +kernel

end SecurityDescriptor
