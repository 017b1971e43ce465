import Mathlib.Data.List.Forall2
import SecurityDescriptor.Text.Line

/-!
# Texts that can be read back

Forms are legible if two of them, with anything behind, make equal texts only if they are forms
of values that are taken as equal and have equal texts behind.  So whoever reads such a text
sees where each form ends and what it is the form of.

    Legible p R → Legible q S →
      Legible (fun a => p a ++ q a) fun a b => R a b ∧ S a b              (Legible.append)
    Legible p R → (no form of `p` starts like `w`) →
      Legible (fun xs => xs.flatMap p ++ w) (List.Forall₂ R)              (Legible.list)

`R a b` is what the forms of `a` and `b` have to agree on; it need not be equality.
-/

namespace SecurityDescriptor

variable {α β : Type}

/-- Equal texts that begin with forms of `a` and `b` have forms of related values there, and
go on alike. -/
def Legible (p : α → List Char) (R : α → α → Prop) : Prop :=
  ∀ a b s t, p a ++ s = p b ++ t ↔ R a b ∧ s = t

namespace Legible

variable {p q : α → List Char} {R S : α → α → Prop}

theorem eq_iff (h : Legible p R) (a b : α) : p a = p b ↔ R a b := by
  have := h a b [] []
  simpa using this

theorem congr (h : Legible p R) (hp : ∀ a, q a = p a) (hR : ∀ a b, R a b ↔ S a b) :
    Legible q S := by
  intro a b s t
  rw [hp, hp, h, hR]

/-! ## Single forms -/

/-- Forms of one length end where the length tells. -/
theorem ofLength {n : Nat} (hlen : ∀ a, (p a).length = n) (h : ∀ a b, p a = p b ↔ R a b) :
    Legible p R := by
  intro a b s t
  rw [← h]
  constructor
  · intro he
    exact List.append_inj he ((hlen a).trans (hlen b).symm)
  · rintro ⟨hp, rfl⟩
    rw [hp]

/-- The same form for all values tells nothing of them. -/
theorem const (w : List Char) : Legible (fun _ : α => w) fun _ _ => True :=
  ofLength (fun _ => rfl) (fun _ _ => by simp)

/-- A character that no form holds ends a form. -/
theorem stop {c : Char} (hc : ∀ a, c ∉ p a) (h : ∀ a b, p a = p b ↔ R a b) :
    Legible (fun a => p a ++ [c]) R := by
  -- of two forms that differ in length the longer one would hold the other's end mark
  have hend : ∀ a b s t, p a ++ c :: s = p b ++ c :: t → (p a).length ≤ (p b).length := by
    intro a b s t he
    by_contra hlt
    have hget := congrArg (·[(p b).length]?) he
    simp only [List.getElem?_append_right (Nat.le_refl _), Nat.sub_self,
      List.getElem?_append_left (Nat.lt_of_not_le hlt), List.getElem?_cons_zero] at hget
    exact hc a (List.mem_of_getElem? hget)
  intro a b s t
  simp only [List.append_assoc, List.singleton_append]
  rw [← h]
  constructor
  · intro he
    have hlen := Nat.le_antisymm (hend a b s t he) (hend b a t s he.symm)
    obtain ⟨hp, hs⟩ := List.append_inj he hlen
    exact ⟨hp, (List.cons.inj hs).2⟩
  · rintro ⟨hp, rfl⟩
    rw [hp]

/-! ## Forms made of forms -/

theorem append (hp : Legible p R) (hq : Legible q S) :
    Legible (fun a => p a ++ q a) fun a b => R a b ∧ S a b := by
  intro a b s t
  rw [List.append_assoc, List.append_assoc, hp, hq, and_assoc]

/-- A form of what a value holds is a form of the value. -/
theorem comap (hp : Legible p R) (f : β → α) :
    Legible (fun b => p (f b)) fun b b' => R (f b) (f b') :=
  fun b b' => hp (f b) (f b')

/-- A value that may be absent, with a text for its absence that is no beginning of a form. -/
theorem option (hp : Legible p R) {w : List Char} (hw : ∀ a s t, w ++ s ≠ p a ++ t) :
    Legible (fun o : Option α => o.elim w p) (Option.Rel R) := by
  intro o o' s t
  cases o with
  | none =>
    cases o' with
    | none =>
      simp only [Option.elim_none, List.append_cancel_left_eq]
      exact ⟨fun h => ⟨.none, h⟩, And.right⟩
    | some b => exact ⟨fun h => absurd h (hw b s t), fun h => nomatch h.1⟩
  | some a =>
    cases o' with
    | none => exact ⟨fun h => absurd h.symm (hw a t s), fun h => nomatch h.1⟩
    | some b =>
      show p a ++ s = p b ++ t ↔ _
      rw [hp]
      constructor
      · rintro ⟨h, rfl⟩
        exact ⟨.some h, rfl⟩
      · rintro ⟨h | _, rfl⟩
        exact ⟨h, rfl⟩

/-- Values one behind the other, and an end mark that is no beginning of a form. -/
theorem list (hp : Legible p R) {w : List Char} (hw : ∀ a s t, w ++ s ≠ p a ++ t) :
    Legible (fun xs : List α => xs.flatMap p ++ w) (List.Forall₂ R) := by
  intro xs ys s t
  induction xs generalizing ys with
  | nil =>
    cases ys with
    | nil => simp
    | cons b ys =>
      simp only [List.flatMap_nil, List.nil_append, List.flatMap_cons, List.append_assoc]
      exact ⟨fun h => absurd h (hw b s _), fun h => nomatch h.1⟩
  | cons a xs ih =>
    cases ys with
    | nil =>
      simp only [List.flatMap_nil, List.nil_append, List.flatMap_cons, List.append_assoc]
      exact ⟨fun h => absurd h.symm (hw a t _), fun h => nomatch h.1⟩
    | cons b ys =>
      have hrest := ih ys
      simp only [List.flatMap_cons, List.append_assoc] at hrest ⊢
      rw [hp, hrest, List.forall₂_cons, and_assoc]

/-! ## Lines -/

/-- A line ends at its carriage return. -/
theorem line {f : α → String} (hc : ∀ a, '\r' ∉ (f a).toList) (h : ∀ a b, f a = f b ↔ R a b) :
    Legible (fun a => (Text.line (f a)).toList) R := by
  have hstop := (stop hc fun a b => by rw [String.toList_inj, h]).append (const ['\n'])
  apply hstop.congr
  · intro a
    simp [Text.line]
  · intro a b
    simp

/-- A line with a label in front. -/
theorem labelled (label : String) {f : α → String}
    (hf : Legible (fun a => (Text.line (f a)).toList) R) :
    Legible (fun a => (Text.line (label ++ f a)).toList) R := by
  apply ((const label.toList).append hf).congr
  · intro a
    simp [Text.line]
  · intro a b
    simp

end Legible

end SecurityDescriptor
