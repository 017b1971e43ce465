import Mathlib.Data.List.Basic
import SecurityDescriptor.Text.Newline

/-!
# Cutting a text where lines end

Behind a line feed a new line begins, whatever stands in front of it.  So a text whose first part
ends with a line feed has the lines of that part and then those of the rest, and the only place
where two parts of a text cannot be told apart is between a carriage return and a line feed.

    xs.getLast? = some '\n' → lines (xs ++ ys) = lines xs ++ lines ys        (lines_append)
    c ∈ l → l ∈ lines cs → c = '\n' ∨ c ∈ cs                                 (mem_of_mem_lines)
-/

namespace SecurityDescriptor.Text

/-! ## Line ends -/

theorem unify_cons_of_ne {c : Char} (h : c ≠ '\r') (cs : List Char) :
    unify (c :: cs) = c :: unify cs := by
  rw [unify]
  · rw [if_neg h]
  · rintro cs' rfl
    exact absurd rfl h

theorem unify_return {cs : List Char} (h : cs.head? ≠ some '\n') :
    unify ('\r' :: cs) = '\n' :: unify cs := by
  rw [unify]
  · rw [if_pos rfl]
  · rintro cs' - rfl
    exact h rfl

/-- Texts are unified apart unless a line end lies across their border. -/
theorem unify_append {xs ys : List Char}
    (h : xs.getLast? = some '\r' → ys.head? ≠ some '\n') :
    unify (xs ++ ys) = unify xs ++ unify ys := by
  induction xs using unify.induct with
  | case1 => rfl
  | case2 cs ih =>
    have hrest := ih fun hl => h (by
      cases cs with
      | nil => cases hl
      | cons c cs => exact hl)
    show unify ('\r' :: '\n' :: (cs ++ ys)) = _
    rw [unify, hrest, unify]
    rfl
  | case3 c cs hne ih =>
    have hrest := ih fun hl => h (by
      cases cs with
      | nil => cases hl
      | cons d cs => exact hl)
    by_cases hc : c = '\r'
    · subst hc
      have hhead : cs.head? ≠ some '\n' := by
        intro he
        obtain ⟨cs', rfl⟩ := List.head?_eq_some_iff.1 he
        exact hne cs' rfl rfl
      have hhead' : (cs ++ ys).head? ≠ some '\n' := by
        cases cs with
        | nil => exact h rfl
        | cons d cs => exact hhead
      rw [List.cons_append, unify_return hhead, unify_return hhead', hrest]
      rfl
    · rw [List.cons_append, unify_cons_of_ne hc, unify_cons_of_ne hc, hrest]
      rfl

theorem unify_eq_self {w : List Char} (h : '\r' ∉ w) : unify w = w := by
  induction w with
  | nil => rfl
  | cons c cs ih =>
    rw [unify_cons_of_ne (fun hc => h (by simp [hc])), ih fun hc => h (List.mem_cons_of_mem _ hc)]

theorem mem_of_mem_unify {cs : List Char} {c : Char} (h : c ∈ unify cs) : c = '\n' ∨ c ∈ cs := by
  induction cs using unify.induct with
  | case1 => cases h
  | case2 cs ih =>
    rw [unify, List.mem_cons] at h
    rcases h with h | h
    · exact .inl h
    · exact (ih h).imp_right fun h => by simp [h]
  | case3 d cs hne ih =>
    rw [unify, List.mem_cons] at h
    · rcases h with h | h
      · split at h
        · exact .inl h
        · exact .inr (by simp [h])
      · exact (ih h).imp_right (List.mem_cons_of_mem _)
    · exact hne

theorem getLast?_unify {cs : List Char} (h : cs.getLast? = some '\n') :
    (unify cs).getLast? = some '\n' := by
  induction cs using unify.induct with
  | case1 => cases h
  | case2 cs ih =>
    rw [unify]
    cases cs with
    | nil => rfl
    | cons c cs => rw [List.getLast?_cons, ih h, Option.getD_some]
  | case3 c cs hne ih =>
    rw [unify]
    · cases cs with
      | nil =>
        obtain rfl : c = '\n' := Option.some.inj h
        rfl
      | cons d cs => rw [List.getLast?_cons, ih h, Option.getD_some]
    · exact hne

/-! ## Lines -/

theorem cut_cons (c : Char) (cs : List Char) : cut (c :: cs) = consLine c (cut cs) := rfl

theorem consLine_append (c : Char) {ls : List (List Char)} (h : ls ≠ []) (ms : List (List Char)) :
    consLine c (ls ++ ms) = consLine c ls ++ ms := by
  cases ls with
  | nil => exact absurd rfl h
  | cons l ls =>
    unfold consLine
    split <;> rfl

theorem cut_ne_nil {cs : List Char} (h : cs ≠ []) : cut cs ≠ [] := by
  intro hc
  have hflatten := flatten_cut cs
  rw [hc] at hflatten
  exact h hflatten.symm

/-- Behind a line feed a new line begins. -/
theorem cut_append {xs : List Char} (h : xs.getLast? = some '\n') (ys : List Char) :
    cut (xs ++ ys) = cut xs ++ cut ys := by
  induction xs with
  | nil => cases h
  | cons c xs ih =>
    cases xs with
    | nil =>
      obtain rfl : c = '\n' := Option.some.inj h
      rfl
    | cons d xs =>
      rw [List.cons_append, cut_cons, cut_cons, ih h,
        consLine_append c (cut_ne_nil (List.cons_ne_nil d xs))]

theorem cut_line {w : List Char} (h : '\n' ∉ w) : cut (w ++ ['\n']) = [w ++ ['\n']] := by
  induction w with
  | nil => rfl
  | cons c w ih =>
    have hc : c ≠ '\n' := fun hc => h (by simp [hc])
    rw [List.cons_append, cut_cons, ih fun hw => h (List.mem_cons_of_mem _ hw), consLine, if_neg hc]

theorem cut_unended {w : List Char} (h : '\n' ∉ w) (hne : w ≠ []) : cut w = [w] := by
  induction w with
  | nil => exact absurd rfl hne
  | cons c w ih =>
    have hc : c ≠ '\n' := fun hc => h (by simp [hc])
    cases w with
    | nil => exact if_neg hc
    | cons d w =>
      rw [cut_cons, ih (fun hw => h (List.mem_cons_of_mem _ hw)) (List.cons_ne_nil d w), consLine,
        if_neg hc]

/-- A text is cut at the border of two parts if a line ends there and its end lies on one side. -/
theorem lines_append {xs ys : List Char} (hend : (unify xs).getLast? = some '\n')
    (hborder : xs.getLast? = some '\r' → ys.head? ≠ some '\n') :
    lines (xs ++ ys) = lines xs ++ lines ys := by
  rw [lines, unify_append hborder, cut_append hend]
  rfl

theorem getLast?_append_crlf (cs : List Char) : (cs ++ ['\r', '\n']).getLast? = some '\n' := by
  rw [List.getLast?_append]
  rfl

theorem lines_append_of_getLast? {xs : List Char} (h : xs.getLast? = some '\n') (ys : List Char) :
    lines (xs ++ ys) = lines xs ++ lines ys := by
  apply lines_append (getLast?_unify h)
  intro hr
  rw [h] at hr
  exact absurd hr (by decide)

/-- The three ways in which a line may end. -/
def lineEnds : List (List Char) := [['\n'], ['\r', '\n'], ['\r']]

theorem unify_line {w e : List Char} (hr : '\r' ∉ w) (he : e ∈ lineEnds) :
    unify (w ++ e) = w ++ ['\n'] := by
  have hborder : w.getLast? = some '\r' → e.head? ≠ some '\n' := fun hl =>
    absurd (List.mem_of_getLast? hl) hr
  have hend : unify e = ['\n'] := by
    simp only [lineEnds, List.mem_cons, List.not_mem_nil, or_false] at he
    rcases he with rfl | rfl | rfl <;> rfl
  rw [unify_append hborder, unify_eq_self hr, hend]

section Line

variable {w e : List Char} (hr : '\r' ∉ w) (hn : '\n' ∉ w)

include hr hn

/-- However its end is written, a line ends with a line feed. -/
theorem lines_line (he : e ∈ lineEnds) : lines (w ++ e) = [w ++ ['\n']] := by
  rw [lines, unify_line hr he, cut_line hn]

theorem lines_unended (hne : w ≠ []) : lines w = [w] := by
  rw [lines, unify_eq_self hr, cut_unended hn hne]

/-- A carriage return that ends a line and a line feed that ends an empty one behind it are read
as one line end.  So lines are kept apart if empty ones do not matter. -/
theorem filter_lines_append (he : e ∈ lineEnds) {p : List Char → Bool} (hp : p ['\n'] = false)
    (rest : List Char) :
    (lines (w ++ e ++ rest)).filter p =
      [w ++ ['\n']].filter p ++ (lines rest).filter p := by
  by_cases hborder : (w ++ e).getLast? = some '\r' → rest.head? ≠ some '\n'
  · have hend : (unify (w ++ e)).getLast? = some '\n' := by
      rw [unify_line hr he, List.getLast?_append]
      rfl
    rw [lines_append hend hborder, lines_line hr hn he, List.filter_append]
  · obtain ⟨hreturn, hfeed⟩ := Classical.not_imp.1 hborder
    obtain ⟨rest', rfl⟩ := List.head?_eq_some_iff.1 (not_not.1 hfeed)
    have he' : e = ['\r'] := by
      simp only [lineEnds, List.mem_cons, List.not_mem_nil, or_false] at he
      rcases he with rfl | rfl | rfl
      · simp at hreturn
      · simp at hreturn
      · rfl
    subst he'
    have hleft : w ++ ['\r'] ++ '\n' :: rest' = w ++ ['\r', '\n'] ++ rest' := by simp
    have hempty : (lines ('\n' :: rest')).filter p = (lines rest').filter p := by
      have hcut : lines (['\n'] ++ rest') = ['\n'] :: lines rest' :=
        lines_append_of_getLast? rfl rest'
      rw [← List.singleton_append, hcut, List.filter_cons_of_neg (by rw [hp]; decide)]
    rw [hleft, lines_append_of_getLast? (getLast?_append_crlf w),
      lines_line hr hn (by simp [lineEnds]), hempty, List.filter_append]

end Line

/-- A line holds no characters but those of the text and the line feed that ends it. -/
theorem mem_of_mem_lines {cs l : List Char} {c : Char} (hl : l ∈ lines cs) (hc : c ∈ l) :
    c = '\n' ∨ c ∈ cs := by
  apply mem_of_mem_unify
  rw [← flatten_lines]
  exact List.mem_flatten_of_mem hl hc

end SecurityDescriptor.Text
