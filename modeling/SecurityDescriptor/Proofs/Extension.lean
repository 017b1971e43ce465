import SecurityDescriptor.Proofs.Built

/-!
# When more bytes arrive

A decode of `data` and one of `data ++ x` do the same until the first read that `data` cannot
serve.  So a record stays the same record, and an error that is not about missing bytes stays
the same error.  A read that missed bytes either still misses some, and says so with the new
number, or is served; then the decode fails, if at all, at a later read.

    ExtendsBy x d d' → (∀ a, ExtendsBy x (f a) (f' a)) → ExtendsBy x (d >>= f) (d' >>= f')
                                                                            (ExtendsBy.bind)

The parts of a descriptor are cut out of all its bytes, so the two runs there are runs of two
decoders, and the law is one about pairs.
-/

namespace SecurityDescriptor

/-- The same place in a stream with `x` behind its end. -/
def Cursor.extend (c : Cursor) (x : Bytes) : Cursor := ⟨c.pos, c.rest ++ x⟩

namespace Run

variable {α : Type}

/-- The same run on a stream with `x` behind its end. -/
def extend (r : Run α) (x : Bytes) : Run α := ⟨r.result, r.cursor.extend x, r.trace⟩

/-- The run did not end for want of bytes. -/
def Final (r : Run α) : Prop :=
  match r.result with
  | .ok _ => True
  | .error e => e.Final

end Run

open Decoder

variable {α β : Type}

/-- With `x` behind the end `d'` does what `d` does, as far as `d` came. -/
structure ExtendsBy (x : Bytes) (d d' : Decoder α) : Prop where
  final : ∀ c, (d c).Final → d' (c.extend x) = (d c).extend x
  shortage : ∀ c needed available what,
    (d c).result = .error (.insufficientData needed available what) →
    available + x.length < needed →
    (d' (c.extend x)).result = .error (.insufficientData needed (available + x.length) what)

/-! ## Closure -/

namespace ExtendsBy

variable {x : Bytes}

/-- A step that takes no bytes and is never short of them. -/
theorem of_final {d d' : Decoder α} (hf : ∀ c, (d c).Final)
    (h : ∀ c, d' (c.extend x) = (d c).extend x) : ExtendsBy x d d' where
  final c _ := h c
  shortage := by
    intro c needed available what hr
    have hc := hf c
    rw [Run.Final, hr] at hc
    exact hc.elim

theorem pure (a : α) : ExtendsBy x (pure a) (pure a) :=
  of_final (fun _ => trivial) (fun _ => rfl)

theorem bind {d d' : Decoder α} {f f' : α → Decoder β} (hd : ExtendsBy x d d')
    (hf : ∀ a, ExtendsBy x (f a) (f' a)) : ExtendsBy x (d >>= f) (d' >>= f') where
  final := by
    intro c hfin
    have hc := hd.final c
    rcases hrun : d c with ⟨e | a, c', t⟩
    · rw [bind_of_error hrun] at hfin ⊢
      rw [hrun] at hc
      exact bind_of_error (hc hfin) f'
    · rw [bind_of_ok hrun] at hfin ⊢
      rw [hrun] at hc
      rw [bind_of_ok (hc trivial), (hf a).final c' hfin]
      rfl
  shortage := by
    intro c needed available what hr hx
    rcases hrun : d c with ⟨e | a, c', t⟩
    · rw [bind_of_error hrun] at hr
      cases hr
      exact bind_result_of_error
        (hd.shortage c needed available what (congrArg Run.result hrun) hx) f'
    · rw [bind_of_ok hrun] at hr
      -- `d` got its value without the new bytes, so the shortage is one of `f a`
      have hc := hd.final c (by rw [hrun]; trivial)
      rw [hrun] at hc
      rw [bind_of_ok hc]
      exact (hf a).shortage c' needed available what hr hx

theorem map {d d' : Decoder α} (hd : ExtendsBy x d d') (f : α → β) :
    ExtendsBy x (f <$> d) (f <$> d') := by
  rw [map_eq_pure_bind, map_eq_pure_bind]
  exact hd.bind fun a => .pure (f a)

theorem readBlock (n : Nat) (what : Option String) :
    ExtendsBy x (readBlock n what) (readBlock n what) where
  final := by
    intro c hfin
    rcases Nat.lt_or_ge c.rest.length n with hlt | hle
    · rw [readBlock_of_lt what hlt] at hfin
      exact hfin.elim
    · have hle' : n ≤ (c.extend x).rest.length := by
        rw [Cursor.extend, List.length_append]
        omega
      have htake : (c.extend x).rest.take n = c.rest.take n := List.take_append_of_le_length hle
      have hdrop : (c.extend x).rest.drop n = c.rest.drop n ++ x :=
        List.drop_append_of_le_length hle
      rw [readBlock_of_le what hle, readBlock_of_le what hle']
      simp only [Run.extend, Cursor.advance, htake, hdrop]
      rfl
  shortage := by
    intro c needed available what' hr hx
    rcases Nat.lt_or_ge c.rest.length n with hlt | hle
    · rw [readBlock_of_lt what hlt] at hr
      cases hr
      have hlen : (c.extend x).rest.length = c.rest.length + x.length := List.length_append
      rw [readBlock_of_lt what (by omega), hlen, Int.natCast_add]
    · rw [readBlock_of_le what hle] at hr
      cases hr

/-- On bytes of their own the two start with the same bytes. -/
theorem within {d d' : Decoder α} (hd : ExtendsBy x d d') (data : Bytes) :
    ExtendsBy x (within data d) (within (data ++ x) d') where
  final := by
    intro c hfin
    have h : d' (.start (data ++ x)) = (d (.start data)).extend x := hd.final (.start data) hfin
    rw [Decoder.within, Decoder.within, h]
    rfl
  shortage c := hd.shortage (.start data)

end ExtendsBy

theorem Decoder.Built.extendsBy {d : Decoder α} (h : Built d) (x : Bytes) : ExtendsBy x d d := by
  induction h with
  | pure a => exact .pure a
  | fail he => exact .of_final (fun _ => he) (fun _ => rfl)
  | report e => exact .of_final (fun _ => trivial) (fun _ => rfl)
  | position => exact .of_final (fun _ => trivial) (fun _ => rfl)
  | readBlock n what => exact .readBlock n what
  | bind _ _ ihd ihf => exact ihd.bind ihf

/-! ## Descriptors -/

namespace Descriptor

/-- A part that lies inside the data still does; one that lies behind its end either comes to
lie inside or is as far out of it as it was. -/
theorem extendsBy_follow {x : Bytes} {d : Decoder α} (hd : ExtendsBy x d d) (data : Bytes)
    (part : Part) (offset : UInt32) :
    ExtendsBy x (follow data part offset d) (follow (data ++ x) part offset d) := by
  unfold follow
  split
  · exact .pure _
  · split
    · next hlt =>
      rw [if_pos (by rw [List.length_append]; omega),
        List.drop_append_of_le_length (Nat.le_of_lt hlt)]
      exact ((Built.report _).extendsBy x).bind fun _ =>
        (hd.within _).map some
    · next hge =>
      constructor
      · intro c hfin
        exact hfin.elim
      · intro c needed available what hr hx
        cases hr
        rw [if_neg (by rw [List.length_append]; omega), List.length_append]
        rfl

theorem extendsBy_ofBytes (mode : Mode) (data x : Bytes) :
    ExtendsBy x (ofBytes mode data) (ofBytes mode (data ++ x)) := by
  have hsid := Sid.reading_decoder.built.extendsBy x
  have hacl := (Acl.built_decoder mode).extendsBy x
  exact ((Header.reading_decoder.built.extendsBy x).within data).bind fun h =>
    (extendsBy_follow hsid data .owner h.offsetOwner).bind fun _ =>
    (extendsBy_follow hsid data .group h.offsetGroup).bind fun _ =>
    (extendsBy_follow hacl data .sacl h.offsetSacl).bind fun _ =>
    (extendsBy_follow hacl data .dacl h.offsetDacl).bind fun _ => .pure _

end Descriptor

/-! ## Later reads -/

/-- How many bytes lay ahead at the end of a run, or at the read it failed for want of. -/
def Run.ahead (r : Run α) : Int :=
  match r.result with
  | .error (.insufficientData _ available _) => available
  | _ => r.cursor.rest.length

namespace Decoder.Built

theorem ahead_le {d : Decoder α} (h : Built d) (c : Cursor) : (d c).ahead ≤ c.rest.length := by
  obtain ⟨n, hn, hc⟩ := h.exists_advance c
  have hlen : ((d c).cursor.rest.length : Int) ≤ c.rest.length := by
    rw [hc, Cursor.length_rest_advance]
    omega
  unfold Run.ahead
  split
  · next hr => exact (h.shortage_bounds hr).2.2
  · exact hlen

/-- A sequence is no further from the end than its first part. -/
theorem ahead_bind_le {d : Decoder α} {f : α → Decoder β} (hf : ∀ a, Built (f a)) (c : Cursor) :
    ((d >>= f) c).ahead ≤ (d c).ahead := by
  rcases hrun : d c with ⟨e | a, c', t⟩
  · rw [bind_of_error hrun]
    cases e <;> exact Int.le_refl _
  · rw [bind_of_ok hrun]
    exact (hf a).ahead_le c'

/-- Once the bytes are there that a read wanted, the run ends behind that read. -/
theorem ahead_extend_le {d : Decoder α} (h : Built d) {c : Cursor} {needed available : Int}
    {what : Option String} {x : Bytes}
    (hr : (d c).result = .error (.insufficientData needed available what))
    (hx : needed ≤ available + x.length) :
    (d (c.extend x)).ahead + needed ≤ available + x.length := by
  induction h generalizing c with
  | pure a => cases hr
  | fail he =>
    cases hr
    exact he.elim
  | report e => cases hr
  | position => cases hr
  | readBlock n what =>
    rcases Nat.lt_or_ge c.rest.length n with hlt | hle
    · rw [readBlock_of_lt what hlt] at hr
      cases hr
      have hlen : (c.extend x).rest.length = c.rest.length + x.length := List.length_append
      rw [readBlock_of_le what (by omega)]
      show (((c.extend x).advance n).rest.length : Int) + n ≤ _
      rw [Cursor.length_rest_advance]
      omega
    · rw [readBlock_of_le what hle] at hr
      cases hr
  | @bind _ _ d f hd hf ihd ihf =>
    rcases hrun : d c with ⟨e | a, c', t⟩
    · rw [bind_of_error hrun] at hr
      cases hr
      -- once `d` is served the rest runs too, but no further back than `d` ended
      have hfirst := ihd (congrArg Run.result hrun)
      have hrest := ahead_bind_le (d := d) hf (c.extend x)
      omega
    · rw [bind_of_ok hrun] at hr
      have hc := (hd.extendsBy x).final c (by rw [hrun]; trivial)
      rw [hrun] at hc
      rw [bind_of_ok hc]
      exact ihf a hr

end Decoder.Built

/-! ## Records of every kind -/

namespace Kind

variable {mode : Mode} {k : Kind} {data : Bytes}

/-- For a descriptor the place does not matter, so its law is the one of `Descriptor.ofBytes`. -/
theorem ofBytes_descriptor_result (mode : Mode) (data : Bytes) (c : Cursor) :
    (Kind.descriptor.ofBytes mode data).result =
      ((Record.descriptor <$> Descriptor.ofBytes mode data) c).result :=
  ((Descriptor.detached_ofBytes mode data).map _).result_eq ..

theorem result_append_of_final (h : (k.ofBytes mode data).Final) (x : Bytes) :
    (k.ofBytes mode (data ++ x)).result = (k.ofBytes mode data).result := by
  by_cases hk : k = .descriptor
  · subst hk
    have hd := (Descriptor.extendsBy_ofBytes mode data x).map Record.descriptor
    have hres := ofBytes_descriptor_result mode data (.start data)
    unfold Run.Final at h
    rw [hres] at h ⊢
    rw [ofBytes_descriptor_result mode (data ++ x) ((Cursor.start data).extend x),
      hd.final (.start data) h]
    rfl
  · have hd := ((built_decoder hk mode).extendsBy x).final (.start data) h
    show (k.decoder mode ((Cursor.start data).extend x)).result = _
    rw [hd]
    rfl

theorem result_append_of_ok {r : Record} (h : (k.ofBytes mode data).result = .ok r) (x : Bytes) :
    (k.ofBytes mode (data ++ x)).result = .ok r := by
  have hfin : (k.ofBytes mode data).Final := by
    rw [Run.Final, h]
    trivial
  rw [result_append_of_final hfin, h]

theorem result_append_of_error {e : DecodeError} (he : e.Final)
    (h : (k.ofBytes mode data).result = .error e) (x : Bytes) :
    (k.ofBytes mode (data ++ x)).result = .error e := by
  have hfin : (k.ofBytes mode data).Final := by
    rw [Run.Final, h]
    exact he
  rw [result_append_of_final hfin, h]

theorem result_append_of_lt {needed available : Int} {what : Option String}
    (hr : (k.ofBytes mode data).result = .error (.insufficientData needed available what))
    {x : Bytes} (hx : available + x.length < needed) :
    (k.ofBytes mode (data ++ x)).result =
      .error (.insufficientData needed (available + x.length) what) := by
  by_cases hk : k = .descriptor
  · subst hk
    have hd := (Descriptor.extendsBy_ofBytes mode data x).map Record.descriptor
    rw [ofBytes_descriptor_result mode data (.start data)] at hr
    rw [ofBytes_descriptor_result mode (data ++ x) ((Cursor.start data).extend x)]
    exact hd.shortage (.start data) needed available what hr hx
  · exact ((built_decoder hk mode).extendsBy x).shortage (.start data) needed available what hr hx

theorem parse_append_of_ok (hk : k ≠ .descriptor) {r : Record} {rest : Bytes}
    (h : k.parse mode data = .ok (r, rest)) (x : Bytes) :
    k.parse mode (data ++ x) = .ok (r, rest ++ x) := by
  have hd := ((built_decoder hk mode).extendsBy x).final (.start data)
  unfold parse ofBytes at h ⊢
  show (k.decoder mode ((Cursor.start data).extend x)).result.map
    (·, (k.decoder mode ((Cursor.start data).extend x)).cursor.rest) = _
  rcases hrun : k.decoder mode (.start data) with ⟨e | r', c, t⟩
  · rw [hrun] at h
    cases h
  · rw [hrun] at h hd
    cases h
    rw [hd trivial]
    rfl

/-- A read that more bytes serve is not the one that fails then. -/
theorem le_of_result_append (hk : k ≠ .descriptor) {needed available : Int}
    {what : Option String}
    (hr : (k.ofBytes mode data).result = .error (.insufficientData needed available what))
    {x : Bytes} (hx : needed ≤ available + x.length) {needed' available' : Int}
    {what' : Option String}
    (hr' : (k.ofBytes mode (data ++ x)).result =
      .error (.insufficientData needed' available' what')) :
    available' + needed ≤ available + x.length := by
  have h := (built_decoder hk mode).ahead_extend_le hr hx
  have hahead : (k.decoder mode ((Cursor.start data).extend x)).ahead = available' := by
    unfold Run.ahead
    rw [show (k.decoder mode ((Cursor.start data).extend x)).result = _ from hr']
  omega

/-- **The extension law.**  A record stays the record and leaves so much more; an error about
a type or a size stays the error.  A read that wanted bytes still wants them, with so many
more at hand, or is served: what fails for want of bytes then is a later read. -/
theorem ofBytes_append (mode : Mode) (k : Kind) (data x : Bytes) :
    (∀ r, (k.ofBytes mode data).result = .ok r → (k.ofBytes mode (data ++ x)).result = .ok r) ∧
    (k ≠ .descriptor → ∀ r rest, k.parse mode data = .ok (r, rest) →
      k.parse mode (data ++ x) = .ok (r, rest ++ x)) ∧
    (∀ t, (k.ofBytes mode data).result = .error (.unrecognizedVariant t) →
      (k.ofBytes mode (data ++ x)).result = .error (.unrecognizedVariant t)) ∧
    (∀ name declared consumed,
      (k.ofBytes mode data).result = .error (.sizeMismatch name declared consumed) →
      (k.ofBytes mode (data ++ x)).result = .error (.sizeMismatch name declared consumed)) ∧
    (∀ needed available what,
      (k.ofBytes mode data).result = .error (.insufficientData needed available what) →
      ((x.length : Int) < needed - available →
        (k.ofBytes mode (data ++ x)).result =
          .error (.insufficientData needed (available + x.length) what)) ∧
      (k ≠ .descriptor → needed - available ≤ x.length → ∀ needed' available' what',
        (k.ofBytes mode (data ++ x)).result =
          .error (.insufficientData needed' available' what') →
        (data.length : Int) - available + needed ≤ (data ++ x).length - available')) := by
  refine ⟨?_, ?_, ?_, ?_, ?_⟩
  · intro r h
    exact result_append_of_ok h x
  · intro hk r rest h
    exact parse_append_of_ok hk h x
  · intro t h
    have he : (DecodeError.unrecognizedVariant t).Final := trivial
    exact result_append_of_error he h x
  · intro name declared consumed h
    have he : (DecodeError.sizeMismatch name declared consumed).Final := trivial
    exact result_append_of_error he h x
  · intro needed available what h
    constructor
    · intro hx
      exact result_append_of_lt h (by omega)
    · intro hk hx needed' available' what' h'
      have hle := le_of_result_append hk h (by omega) h'
      rw [List.length_append]
      omega

end Kind

end SecurityDescriptor
