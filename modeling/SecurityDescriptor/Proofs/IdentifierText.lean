import Mathlib.Data.List.Basic
import Std.Data.String.ToNat
import SecurityDescriptor.Guid
import SecurityDescriptor.Proofs.Legible
import SecurityDescriptor.Proofs.Numbers

/-!
# Texts of numbers and identifiers

Numerals consist of letters and digits, so a hyphen ends one.  A SID is a list of numerals with
hyphens between them and is split back at the hyphens; a GUID is five of fixed widths.

    a.text = b.text ↔ a = b            (Authority.text_inj, Sid.text_inj, Guid.text_inj)
-/

namespace SecurityDescriptor

/-! ## Numerals -/

namespace Hex

theorem mem_fixed {w n : Nat} {c : Char} (h : c ∈ fixed w n) :
    ∃ d, d < 16 ∧ c = Nat.digitChar d := by
  induction w generalizing n with
  | zero => cases h
  | succ w ih =>
    rw [fixed, List.mem_append, List.mem_singleton] at h
    rcases h with h | rfl
    · exact ih h
    · exact ⟨n % 16, Nat.mod_lt _ (by decide), rfl⟩

/-- Numbers that fit have different digits, also if these are rewritten one by one. -/
theorem map_fixed_inj {f : Char → Char}
    (hf : ∀ d, d < 16 → ∀ e, e < 16 → f (Nat.digitChar d) = f (Nat.digitChar e) → d = e)
    {w n m : Nat} (hn : n < 16 ^ w) (hm : m < 16 ^ w) :
    (fixed w n).map f = (fixed w m).map f ↔ n = m := by
  constructor
  · intro h
    induction w generalizing n m with
    | zero =>
      rw [Nat.pow_zero] at hn hm
      omega
    | succ w ih =>
      rw [fixed, fixed, List.map_append, List.map_append] at h
      obtain ⟨hinit, hlast⟩ := List.append_inj' h rfl
      have hdiv := ih (by omega) (by omega) hinit
      have hmod := hf _ (Nat.mod_lt n (by decide)) _ (Nat.mod_lt m (by decide))
        (List.singleton_inj.1 hlast)
      omega
  · rintro rfl
    rfl

theorem fixed_inj {w n m : Nat} (hn : n < 16 ^ w) (hm : m < 16 ^ w) :
    fixed w n = fixed w m ↔ n = m := by
  have h := map_fixed_inj (f := id) (by decide +kernel) hn hm
  rwa [List.map_id, List.map_id] at h

theorem fixedUpper_inj {w n m : Nat} (hn : n < 16 ^ w) (hm : m < 16 ^ w) :
    fixedUpper w n = fixedUpper w m ↔ n = m :=
  map_fixed_inj (by decide +kernel) hn hm

theorem isAlphanum_digitChar : ∀ d, d < 16 →
    (Nat.digitChar d).isAlphanum = true ∧ (Nat.digitChar d).toUpper.isAlphanum = true := by
  decide +kernel

theorem isAlphanum_of_mem_fixed {w n : Nat} {c : Char} (h : c ∈ fixed w n) :
    c.isAlphanum = true := by
  obtain ⟨d, hd, rfl⟩ := mem_fixed h
  exact (isAlphanum_digitChar d hd).1

theorem isAlphanum_of_mem_fixedUpper {w n : Nat} {c : Char} (h : c ∈ fixedUpper w n) :
    c.isAlphanum = true := by
  obtain ⟨c, hc, rfl⟩ := List.mem_map.1 h
  obtain ⟨d, hd, rfl⟩ := mem_fixed hc
  exact (isAlphanum_digitChar d hd).2

theorem ofBytes_inj {bs bs' : Bytes} : ofBytes bs = ofBytes bs' ↔ bs = bs' := by
  constructor
  · intro h
    have hread := congrArg read h
    rw [read_ofBytes, read_ofBytes] at hread
    exact Except.ok.inj hread
  · rintro rfl
    rfl

theorem length_ofBytes (bs : Bytes) : (ofBytes bs).length = 2 * bs.length := by
  induction bs with
  | nil => rfl
  | cons b bs ih =>
    rw [ofBytes, List.flatMap_cons, List.length_append, length_fixed, List.length_cons]
    rw [ofBytes] at ih
    omega

end Hex

theorem isDigit_of_mem_toString {n : Nat} {c : Char} (h : c ∈ (toString n).toList) :
    c.isDigit = true := by
  rw [Nat.toString_eq_ofList_toDigits, String.toList_ofList] at h
  exact Nat.isDigit_of_mem_toDigits (by decide) (by decide) h

theorem isAlphanum_of_mem_toString {n : Nat} {c : Char} (h : c ∈ (toString n).toList) :
    c.isAlphanum = true := by
  simp [Char.isAlphanum, isDigit_of_mem_toString h]

/-! ## Authorities -/

namespace Authority

theorem toNat_inj {a b : Authority} : a.toNat = b.toNat ↔ a = b := by
  constructor
  · rcases a with ⟨⟨xs, hx⟩⟩
    rcases b with ⟨⟨ys, hy⟩⟩
    intro h
    have hrev : Bytes.toNatLE xs.reverse = Bytes.toNatLE ys.reverse := h
    have hbytes : xs.reverse = ys.reverse := by
      rw [← Bytes.ofNatLE_toNatLE xs.reverse, ← Bytes.ofNatLE_toNatLE ys.reverse, hrev,
        List.length_reverse, List.length_reverse, hx, hy]
    obtain rfl := List.reverse_inj.1 hbytes
    rfl
  · rintro rfl
    rfl

theorem isAlphanum_of_mem_text {a : Authority} {c : Char} (h : c ∈ a.text.toList) :
    c.isAlphanum = true := by
  unfold text at h
  split at h
  · exact isAlphanum_of_mem_toString h
  · rw [String.toList_append, List.mem_append] at h
    rcases h with h | h
    · have h0x : c = '0' ∨ c = 'x' := by simpa using h
      rcases h0x with rfl | rfl
      · decide
      · decide
    · rw [String.toList_ofList] at h
      exact Hex.isAlphanum_of_mem_fixedUpper h

/-- A decimal authority has no `x`. -/
theorem toString_ne_hex (n : Nat) (cs : List Char) : toString n ≠ "0x" ++ String.ofList cs := by
  intro h
  have hx : 'x' ∈ (toString n).toList := by
    rw [h, String.toList_append]
    exact List.mem_append_left _ (by decide)
  exact absurd (isDigit_of_mem_toString hx) (by decide)

/-- The two notations of authorities share no text, and neither gives two the same one. -/
theorem text_inj {a b : Authority} : a.text = b.text ↔ a = b := by
  constructor
  · intro h
    rw [← toNat_inj]
    unfold text at h
    split at h
    · split at h
      · exact Nat.repr_inj.1 h
      · exact absurd h (toString_ne_hex _ _)
    · split at h
      · exact absurd h.symm (toString_ne_hex _ _)
      · have hlist := congrArg String.toList h
        rw [String.toList_append, String.toList_append, List.append_cancel_left_eq,
          String.toList_ofList, String.toList_ofList] at hlist
        exact (Hex.fixedUpper_inj a.toNat_lt b.toNat_lt).1 hlist
  · rintro rfl
    rfl

end Authority

/-! ## SIDs -/

namespace Sid

/-- The numerals of an identifier. -/
def numerals (s : Sid) : List (List Char) :=
  (toString s.revision.toNat).toList :: s.authority.text.toList ::
    s.subAuthorities.map fun n => (toString n.toNat).toList

theorem isAlphanum_of_mem_numerals {s : Sid} {w : List Char} (hw : w ∈ s.numerals) {c : Char}
    (hc : c ∈ w) : c.isAlphanum = true := by
  rw [numerals, List.mem_cons, List.mem_cons, List.mem_map] at hw
  rcases hw with rfl | rfl | ⟨n, -, rfl⟩
  · exact isAlphanum_of_mem_toString hc
  · exact Authority.isAlphanum_of_mem_text hc
  · exact isAlphanum_of_mem_toString hc

theorem numerals_inj {s t : Sid} : s.numerals = t.numerals ↔ s = t := by
  constructor
  · intro h
    rw [numerals, numerals, List.cons.injEq, List.cons.injEq, String.toList_inj,
      String.toList_inj, Authority.text_inj] at h
    obtain ⟨hrev, hauth, hsub⟩ := h
    have hnum : Function.Injective fun n : UInt32 => (toString n.toNat).toList := by
      intro n m hnm
      exact UInt32.toNat_inj.1 (Nat.repr_inj.1 (String.toList_inj.1 hnm))
    have hsub' := List.map_injective_iff.2 hnum hsub
    have hrev' := UInt8.toNat_inj.1 (Nat.repr_inj.1 hrev)
    cases s
    cases t
    cases hrev'
    cases hauth
    cases hsub'
    rfl
  · rintro rfl
    rfl

/-- Numerals behind hyphens are numerals with hyphens between them. -/
theorem append_flatMap_hyphen (w : List Char) (ws : List (List Char)) :
    w ++ ws.flatMap ('-' :: ·) = ['-'].intercalate (w :: ws) := by
  induction ws generalizing w with
  | nil => simp
  | cons w' ws ih =>
    rw [List.intercalate_cons_cons, ← ih w']
    simp

theorem toList_text (s : Sid) : s.text.toList = "S-".toList ++ ['-'].intercalate s.numerals := by
  rw [numerals, ← append_flatMap_hyphen]
  simp [text, String.toList_join, List.flatMap_map]

/-- Split at its hyphens a text gives back the numerals. -/
theorem text_inj {s t : Sid} : s.text = t.text ↔ s = t := by
  have hsplit : ∀ u : Sid, (['-'].intercalate u.numerals).splitOn '-' = u.numerals := by
    intro u
    apply List.splitOn_intercalate
    · intro w hw hc
      exact absurd (isAlphanum_of_mem_numerals hw hc) (by decide)
    · exact List.cons_ne_nil _ _
  constructor
  · intro h
    rw [← String.toList_inj, toList_text, toList_text, List.append_cancel_left_eq] at h
    rw [← numerals_inj, ← hsplit s, ← hsplit t, h]
  · rintro rfl
    rfl

/-- Letters, digits and hyphens. -/
theorem mem_text {s : Sid} {c : Char} (h : c ∈ s.text.toList) : c.isAlphanum = true ∨ c = '-' := by
  rw [toList_text, List.mem_append] at h
  rcases h with h | h
  · have hS : c = 'S' ∨ c = '-' := by simpa using h
    rcases hS with rfl | rfl
    · exact .inl (by decide)
    · exact .inr rfl
  · rw [numerals, ← append_flatMap_hyphen, List.mem_append, List.mem_flatMap] at h
    rcases h with h | ⟨w, hw, hc⟩
    · exact .inl (isAlphanum_of_mem_numerals (List.mem_cons_self ..) h)
    · rcases List.mem_cons.1 hc with rfl | hc
      · exact .inr rfl
      · exact .inl (isAlphanum_of_mem_numerals (List.mem_cons_of_mem _ hw) hc)

end Sid

/-! ## GUIDs -/

namespace Guid

/-- Numbers written in a width that holds them. -/
theorem legible_fixed {w : Nat} {f : Guid → Nat} (hf : ∀ g, f g < 16 ^ w) :
    Legible (fun g => Hex.fixed w (f g)) fun g h => f g = f h :=
  .ofLength (fun _ => Hex.length_fixed ..) fun g h => Hex.fixed_inj (hf g) (hf h)

/-- As many bytes in every identifier. -/
theorem legible_ofBytes {n : Nat} {f : Guid → Bytes} (hf : ∀ g, (f g).length = n) :
    Legible (fun g => Hex.ofBytes (f g)) fun g h => f g = f h :=
  .ofLength (fun g => by rw [Hex.length_ofBytes, hf g]) fun _ _ => Hex.ofBytes_inj

/-- Every part has its width, so the hyphens tell nothing. -/
theorem legible_text : Legible (fun g : Guid => g.text.toList) Eq := by
  have hhyphen := Legible.const (α := Guid) "-".toList
  have h1 := legible_fixed (w := 8) fun g => g.data1.toNat_lt
  have h2 := legible_fixed (w := 4) fun g => g.data2.toNat_lt
  have h3 := legible_fixed (w := 4) fun g => g.data3.toNat_lt
  have h4 : Legible _ _ := legible_ofBytes (f := fun g => g.data4.bytes.take 2) fun g => by
    rw [List.length_take, g.data4.length_bytes]
  have h5 : Legible _ _ := legible_ofBytes (f := fun g => g.data4.bytes.drop 2) fun g => by
    rw [List.length_drop, g.data4.length_bytes]
  apply ((((((((h1.append hhyphen).append h2).append hhyphen).append h3).append hhyphen).append
    h4).append hhyphen).append h5).congr
  · intro g
    simp [text, Hex.text]
  · rintro ⟨a1, a2, a3, a4⟩ ⟨b1, b2, b3, b4⟩
    simp only [UInt32.toNat_inj, UInt16.toNat_inj, and_true, mk.injEq]
    constructor
    · rintro ⟨⟨⟨⟨rfl, rfl⟩, rfl⟩, htake⟩, hdrop⟩
      refine ⟨rfl, rfl, rfl, Block.ext ?_⟩
      rw [← List.take_append_drop 2 a4.bytes, htake, hdrop, List.take_append_drop]
    · rintro ⟨rfl, rfl, rfl, rfl⟩
      exact ⟨⟨⟨⟨rfl, rfl⟩, rfl⟩, rfl⟩, rfl⟩

theorem text_inj {g h : Guid} : g.text = h.text ↔ g = h := by
  rw [← String.toList_inj, legible_text.eq_iff]

/-- Letters, digits and hyphens. -/
theorem mem_text {g : Guid} {c : Char} (h : c ∈ g.text.toList) :
    c.isAlphanum = true ∨ c = '-' := by
  have hbytes : ∀ {bs : Bytes}, c ∈ Hex.ofBytes bs → c.isAlphanum = true := by
    intro bs hc
    obtain ⟨b, -, hc⟩ := List.mem_flatMap.1 hc
    exact Hex.isAlphanum_of_mem_fixed hc
  simp only [text, Hex.text, String.toList_append, String.toList_ofList, List.mem_append] at h
  rcases h with (((((((h | h) | h) | h) | h) | h) | h) | h) | h
  · exact .inl (Hex.isAlphanum_of_mem_fixed h)
  · exact .inr (List.mem_singleton.1 h)
  · exact .inl (Hex.isAlphanum_of_mem_fixed h)
  · exact .inr (List.mem_singleton.1 h)
  · exact .inl (Hex.isAlphanum_of_mem_fixed h)
  · exact .inr (List.mem_singleton.1 h)
  · exact .inl (hbytes h)
  · exact .inr (List.mem_singleton.1 h)
  · exact .inl (hbytes h)

end Guid

end SecurityDescriptor
