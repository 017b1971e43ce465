import SecurityDescriptor.Lookup
import SecurityDescriptor.Proofs.EntryRuns

/-!
# Equality of decoded records

Authorities, SIDs and GUIDs know when they equal another record: a comparison asks the one, then
the other, and if neither can tell, only the very same entry of the list is equal
(`Decoded.equal`).  A SID is compared without its count and hashed by its text.  Yet what was
read decides it all:

    i ≠ j → (equal xs i j = true ↔ xs[i].kind = xs[j].kind ∧ xs[i].kind ∈ Kind.valued ∧
      xs[i].taken = xs[j].taken)                                      (Decoded.equal_iff)

So the keys of `Identity.ofRecords` are equal where the records are (`Decoded.equal_eq`), and a
hash table filled in order holds the least place of each (`Identity.firstPlaces_eq`).
-/

namespace SecurityDescriptor

/-! ## Records that are values -/

/-- Of these kinds two records may be equal. -/
def Kind.valued : List Kind := [.authority, .sid, .guid]

/-- Whether a record says the same as another, if it can tell.  A SID leaves the count out, and
leaves the comparison of authorities to them. -/
def Record.same? : Record → Record → Option Bool
  | authority a, authority b => some (a.value == b.value)
  | sid s, sid t => some (s.revision == t.revision && s.authority == t.authority
      && s.subAuthorities == t.subAuthorities)
  | guid g, guid h => some (g.encode == h.encode)
  | _, _ => none

/-- A value and its wire form. -/
inductive Record.ValueOf : Record → Bytes → Prop where
  | authority (a : Authority) : ValueOf (.authority a) a.encode
  | sid (s : Sid) : ValueOf (.sid s) s.encode
  | guid (g : Guid) : ValueOf (.guid g) g.encode

namespace Decoder

variable {α : Type} {d : Decoder α} {enc : α → Bytes}

/-- A wire form is that of one value only. -/
theorem Reads.inj (hd : Reads d enc) {a b : α} (h : enc a = enc b) : a = b := by
  have hrun : ∀ x : α, (d ⟨0, enc x⟩).result = .ok x := fun x =>
    ((hd 0 (enc x) x ⟨0 + (enc x).length, []⟩).2 ⟨_, [], rfl, by simp, rfl⟩).1
  have hb := hrun b
  rw [← h, hrun a] at hb
  exact Except.ok.inj hb

theorem Reads.take_pos (hd : Reads d enc) {data : Bytes} {a : α}
    (h : (d (.start data)).result = .ok a) :
    data.take (d (.start data)).cursor.pos = enc a := by
  obtain ⟨hfront, hcursor⟩ := hd.of_ok h
  have hpos : (d (.start data)).cursor.pos = (enc a).length := by
    rw [hcursor]
    exact Nat.zero_add _
  rw [hpos]
  exact (List.prefix_iff_eq_take.1 hfront).symm

end Decoder

open Decoder

theorem Authority.ext_value {a b : Authority} : a.value = b.value ↔ a = b := by
  cases a
  cases b
  simp

/-- The count is not missed: it is the number of sub-authorities. -/
theorem Sid.ext_fields {s t : Sid} :
    (s.revision = t.revision ∧ s.authority = t.authority) ∧ s.subAuthorities = t.subAuthorities ↔
      s = t := by
  cases s
  cases t
  simp [and_assoc]

theorem Guid.ext_encode {g h : Guid} : g.encode = h.encode ↔ g = h :=
  ⟨Guid.reads_decoder.inj, congrArg _⟩

namespace Record

/-- The three comparisons are one: within a valued kind two records are compared as a whole, and
else there is no answer. -/
theorem same?_eq (r s : Record) :
    r.same? s = if r.kind = s.kind ∧ r.kind ∈ Kind.valued then some (r == s) else none := by
  fun_cases same? r s with
  | case1 a b =>
    have h : (a.value == b.value) = (authority a == authority b) := by
      rw [Bool.eq_iff_iff]
      simp [Authority.ext_value]
    simp [kind, Kind.valued, h]
  | case2 s t =>
    have h : (s.revision == t.revision && s.authority == t.authority
        && s.subAuthorities == t.subAuthorities) = (sid s == sid t) := by
      rw [Bool.eq_iff_iff]
      simp [Sid.ext_fields]
    simp [kind, Kind.valued, h]
  | case3 g h =>
    have h : (g.encode == h.encode) = (guid g == guid h) := by
      rw [Bool.eq_iff_iff]
      simp [Guid.ext_encode]
    simp [kind, Kind.valued, h]
  | case4 ha hs hg =>
    -- two records of one valued kind would have met a case above
    rw [if_neg]
    rintro ⟨hk, hv⟩
    cases r <;> cases s <;> simp_all [kind, Kind.valued]

/-- If neither can tell, two records are equal only as the same entry. -/
theorem same?_or_same?_iff {r s : Record} {same : Bool} (h : same = true → r = s) :
    ((r.same? s).or (s.same? r)).getD same = true ↔
      same = true ∨ r = s ∧ r.kind ∈ Kind.valued := by
  rw [same?_eq, same?_eq]
  by_cases hk : r.kind = s.kind
  · by_cases hv : r.kind ∈ Kind.valued
    · rw [if_pos ⟨hk, hv⟩]
      simpa [hv] using h
    · rw [if_neg (fun h => hv h.2), if_neg (fun h => hv (hk ▸ h.2))]
      simp [hv]
  · have hne : r ≠ s := fun h => hk (congrArg kind h)
    simp [hk, Ne.symm hk, hne]

theorem ValueOf.eq_iff {r s : Record} {v w : Bytes} (hr : ValueOf r v) (hs : ValueOf s w)
    (hk : r.kind = s.kind) : v = w ↔ r = s := by
  cases hr with
  | authority a =>
    cases hs with
    | authority b =>
      rw [authority.injEq]
      exact ⟨Authority.reads_decoder.inj, congrArg _⟩
    | _ => cases hk
  | sid s =>
    cases hs with
    | sid t =>
      rw [sid.injEq]
      exact ⟨Sid.reads_decoder.inj, congrArg _⟩
    | _ => cases hk
  | guid g =>
    cases hs with
    | guid h =>
      rw [guid.injEq]
      exact Guid.ext_encode
    | _ => cases hk

end Record

/-! ## Decoded records -/

/-- A record that was read from the start of a byte string. -/
structure Decoded where
  mode : Mode
  kind : Kind
  data : Bytes
  record : Record
  result_eq : (kind.ofBytes mode data).result = .ok record

namespace Decoded

/-- The bytes that the decode took. -/
def taken (x : Decoded) : Bytes := x.data.take (x.kind.ofBytes x.mode x.data).cursor.pos

theorem kind_record (x : Decoded) : x.record.kind = x.kind := Kind.kind_of_decoder x.result_eq

/-- A value was taken as its wire form. -/
theorem valueOf_taken (x : Decoded) (hv : x.kind ∈ Kind.valued) : x.record.ValueOf x.taken := by
  obtain ⟨mode, kind, data, record, h⟩ := x
  have hread : ∀ {α : Type} {d : Decoder α} {enc : α → Bytes} {f : α → Record}, Reads d enc →
      kind.decoder mode = f <$> d → ∃ a, record = f a ∧
        data.take (kind.ofBytes mode data).cursor.pos = enc a := by
    intro α d enc f hd hk
    rw [Kind.ofBytes, hk] at h ⊢
    obtain ⟨a, ha, rfl⟩ := map_eq_ok_iff.1 h
    rw [map_apply]
    exact ⟨a, rfl, hd.take_pos ha⟩
  have hcases : kind = .authority ∨ kind = .sid ∨ kind = .guid := by simpa [Kind.valued] using hv
  rw [taken]
  rcases hcases with rfl | rfl | rfl
  · obtain ⟨a, rfl, ha⟩ := hread Authority.reads_decoder rfl
    rw [ha]
    exact .authority a
  · obtain ⟨s, rfl, hs⟩ := hread Sid.reads_decoder rfl
    rw [hs]
    exact .sid s
  · obtain ⟨g, rfl, hg⟩ := hread Guid.reads_decoder rfl
    rw [hg]
    exact .guid g

variable (xs : List Decoded) (i j : Fin xs.length)

/-- Whether two entries of a list are equal: what the first says, else what the second says, else
whether they are the same entry. -/
def equal : Bool :=
  ((xs[i].record.same? xs[j].record).or (xs[j].record.same? xs[i].record)).getD (i == j)

/-- Whether two entries of a list differ, asked in the same order. -/
def unequal : Bool :=
  (((xs[i].record.same? xs[j].record).map not).or
    ((xs[j].record.same? xs[i].record).map not)).getD (i != j)

/-- The key of an entry. -/
def key : Identity := .ofRecord i xs[i].record

/-- The same entry, or a value that says the same. -/
theorem key_eq_iff :
    key xs i = key xs j ↔
      i = j ∨ xs[i].record = xs[j].record ∧ xs[i].record.kind ∈ Kind.valued := by
  rw [key, key, Fin.ext_iff]
  have h : (i : Nat) = j → xs[i].record = xs[j].record := fun h => by rw [Fin.ext h]
  generalize xs[i].record = r, xs[j].record = s at h
  generalize (i : Nat) = m, (j : Nat) = n at h
  cases r <;> cases s <;> simp_all [Identity.ofRecord, Record.kind, Kind.valued]

/-- Two entries are equal where their keys are. -/
theorem equal_eq : equal xs i j = (key xs i == key xs j) := by
  rw [equal, Bool.eq_iff_iff, beq_iff_eq, key_eq_iff, Record.same?_or_same?_iff, beq_iff_eq]
  exact fun h => by rw [beq_iff_eq.1 h]

theorem unequal_eq : unequal xs i j = !equal xs i j := by
  rw [unequal, equal]
  cases xs[i].record.same? xs[j].record <;> cases xs[j].record.same? xs[i].record <;> rfl

/-- Entries at different places are equal if they are of one valued kind and took the same
bytes. -/
theorem equal_iff (h : i ≠ j) :
    equal xs i j = true ↔
      xs[i].kind = xs[j].kind ∧ xs[i].kind ∈ Kind.valued ∧ xs[i].taken = xs[j].taken := by
  rw [equal_eq, beq_iff_eq, key_eq_iff, kind_record]
  constructor
  · rintro (heq | ⟨heq, hv⟩)
    · exact absurd heq h
    · have hk : xs[i].kind = xs[j].kind := by rw [← kind_record, heq, kind_record]
      refine ⟨hk, hv, ?_⟩
      exact ((valueOf_taken _ hv).eq_iff (valueOf_taken _ (hk ▸ hv)) (congrArg _ heq)).2 heq
  · rintro ⟨hk, hv, htaken⟩
    refine .inr ⟨?_, hv⟩
    refine ((valueOf_taken _ hv).eq_iff (valueOf_taken _ (hk ▸ hv)) ?_).1 htaken
    rw [kind_record, kind_record, hk]

theorem equivalence_equal : Equivalence fun i j => equal xs i j = true where
  refl i := by simp [equal_eq]
  symm h := by simp_all [equal_eq]
  trans h h' := by simp_all [equal_eq]

end Decoded

/-! ## Looking records up -/

namespace Identity

variable (is : List Identity)

/-- A table keeps what it had, and else has the first place of each identity. -/
theorem getElem?_placesFrom (n : Nat) (table : Std.HashMap Identity Nat) (a : Identity) :
    (placesFrom n table is)[a]? =
      table[a]?.or (if a ∈ is then some (n + is.idxOf a) else none) := by
  induction is generalizing n table with
  | nil => simp [placesFrom]
  | cons i is ih =>
    rw [placesFrom, ih, Std.HashMap.getElem?_insertIfNew]
    by_cases hi : i = a
    · subst hi
      -- an entry that the table has already is kept, so an earlier place wins
      cases h : table[i]? with
      | none => simp [h, Std.HashMap.mem_iff_isSome_getElem?]
      | some v => simp [h, Std.HashMap.mem_iff_isSome_getElem?]
    · have hne : (i == a) = false := beq_false_of_ne hi
      have hplace : n + 1 + is.idxOf a = n + (is.idxOf a + 1) := by omega
      simp [Ne.symm hi, hne, List.idxOf_cons, hplace]

/-- The table tells the first place of each identity. -/
theorem firstPlaces_eq : firstPlaces is = is.map is.idxOf := by
  rw [firstPlaces]
  refine List.map_congr_left fun a ha => ?_
  rw [Std.HashMap.getD_eq_getD_getElem?, getElem?_placesFrom]
  simp [ha]

end Identity

namespace Decoded

variable (xs : List Decoded)

theorem ofRecords_eq : Identity.ofRecords (xs.map record) = List.ofFn (key xs) := by
  apply List.ext_getElem
  · simp [Identity.ofRecords]
  · intro i h h'
    simp [Identity.ofRecords, key]

/-- The place that the table tells is the least place of an equal entry. -/
theorem exists_first :
    ∃ first : Fin xs.length → Fin xs.length,
      Identity.firstPlaces (Identity.ofRecords (xs.map record)) =
        List.ofFn (fun i => (first i : Nat)) ∧
      ∀ i, equal xs (first i) i = true ∧ ∀ j, equal xs j i = true → first i ≤ j := by
  have hmem : ∀ i, key xs i ∈ List.ofFn (key xs) := fun i => List.mem_ofFn.2 ⟨i, rfl⟩
  have hlt : ∀ i, (List.ofFn (key xs)).idxOf (key xs i) < xs.length := fun i => by
    simpa using List.idxOf_lt_length_iff.2 (hmem i)
  refine ⟨fun i => ⟨_, hlt i⟩, ?_, fun i => ⟨?_, fun j hj => ?_⟩⟩
  · rw [Identity.firstPlaces_eq, ofRecords_eq, List.map_ofFn]
    rfl
  · have h := List.getElem_idxOf (List.idxOf_lt_length_iff.2 (hmem i))
    rw [List.getElem_ofFn] at h
    rw [equal_eq, beq_iff_eq]
    exact h
  · rw [equal_eq] at hj
    rw [Fin.le_def]
    -- in front of the first place of a key there is no key that equals it
    by_contra hlt
    have hne := List.not_of_lt_findIdx (Nat.lt_of_not_le hlt)
    rw [List.getElem_ofFn] at hne
    exact absurd hj (Bool.eq_false_iff.1 hne)

end Decoded

/-- **Equality is one equivalence, and tables follow it.**  On a list of decoded records equality
is an equivalence and inequality its complement.  Two entries at different places are equal
exactly if both are authorities, both SIDs or both GUIDs and the bytes that their decodes took are
the same.  The keys of the entries are equal where the entries are, and then have equal hashes,
and the place found through a hash table that is keyed by the entries in order is the least place
of an equal one. -/
theorem Decoded.equal_spec (xs : List Decoded) :
    (Equivalence fun i j : Fin xs.length => equal xs i j = true) ∧
    (∀ i j, unequal xs i j = !equal xs i j) ∧
    (∀ i j, i ≠ j → (equal xs i j = true ↔
      xs[i].kind = xs[j].kind ∧ xs[i].kind ∈ Kind.valued ∧ xs[i].taken = xs[j].taken)) ∧
    Identity.ofRecords (xs.map record) = List.ofFn (key xs) ∧
    (∀ i j, (key xs i == key xs j) = equal xs i j ∧ (key xs i != key xs j) = unequal xs i j ∧
      (equal xs i j = true → hash (key xs i) = hash (key xs j))) ∧
    ∃ first : Fin xs.length → Fin xs.length,
      Identity.firstPlaces (Identity.ofRecords (xs.map record)) =
        List.ofFn (fun i => (first i : Nat)) ∧
      ∀ i, equal xs (first i) i = true ∧ ∀ j, equal xs j i = true → first i ≤ j := by
  refine ⟨equivalence_equal xs, unequal_eq xs, equal_iff xs, ofRecords_eq xs, ?_,
    exists_first xs⟩
  intro i j
  refine ⟨(equal_eq xs i j).symm, ?_, ?_⟩
  · rw [unequal_eq, equal_eq]
    rfl
  · intro h
    rw [equal_eq, beq_iff_eq] at h
    rw [h]

/-- Two SIDs with other bytes behind them are equal, and the table has the place of the first.  An
authority is equal to neither, though its bytes are those that both begin with. -/
theorem Decoded.equal_spec_trailing :
    ∃ first authority second : Decoded,
      let sid : Bytes := [1, 1, 0, 0, 0, 5, 18, 0, 0, 0, 0, 0]
      let xs := [first, authority, second]
      (first.kind = .sid ∧ authority.kind = .authority ∧ second.kind = .sid) ∧
      (first.data = sid ++ [7] ∧ authority.data = sid ∧ second.data = sid ++ [8, 9]) ∧
      let entry (i : Nat) (h : i < 3) : Fin xs.length := ⟨i, h⟩
      equal xs (entry 0 (by decide)) (entry 2 (by decide)) = true ∧
      equal xs (entry 0 (by decide)) (entry 1 (by decide)) = false ∧
      (Identity.firstPlaces (Identity.ofRecords (xs.map record)))[2]? = some 0 := by
  let sid : Bytes := [1, 1, 0, 0, 0, 5, 18, 0, 0, 0, 0, 0]
  have decoded (kind : Kind) (data : Bytes)
      (h : (kind.ofBytes .lenient data).result.isOk = true) :
      ∃ x : Decoded, x.mode = .lenient ∧ x.kind = kind ∧ x.data = data := by
    cases hr : (kind.ofBytes .lenient data).result with
    | error e =>
      rw [hr] at h
      cases h
    | ok r => exact ⟨⟨.lenient, kind, data, r, hr⟩, rfl, rfl, rfl⟩
  obtain ⟨first, hm, hk, hd⟩ := decoded .sid (sid ++ [7]) (by decide +kernel)
  obtain ⟨authority, -, hk', hd'⟩ := decoded .authority sid (by decide +kernel)
  obtain ⟨second, hm'', hk'', hd''⟩ := decoded .sid (sid ++ [8, 9]) (by decide +kernel)
  obtain ⟨-, -, hequal, -, -, place, hplaces, hplace⟩ := equal_spec [first, authority, second]
  have htaken : first.taken = second.taken := by
    rw [taken, taken, hm, hk, hd, hm'', hk'', hd'']
    decide +kernel
  have hvalued : first.kind ∈ Kind.valued := by
    rw [hk]
    decide
  have hsids : equal [first, authority, second] ⟨0, by simp⟩ ⟨2, by simp⟩ = true :=
    (hequal _ _ (by simp)).2 ⟨hk.trans hk''.symm, hvalued, htaken⟩
  refine ⟨first, authority, second, ⟨hk, hk', hk''⟩, ⟨hd, hd', hd''⟩, hsids, ?_, ?_⟩
  · rw [Bool.eq_false_iff]
    intro h
    have hkinds : first.kind = authority.kind := ((hequal _ _ (by simp)).1 h).1
    rw [hk, hk'] at hkinds
    cases hkinds
  · have hzero : (place ⟨2, by simp⟩ : Nat) = 0 :=
      Nat.le_zero.1 ((hplace ⟨2, by simp⟩).2 _ hsids)
    rw [hplaces, List.getElem?_ofFn, dif_pos (by simp), hzero]

end SecurityDescriptor
