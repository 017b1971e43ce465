/-!
# Lines of a text

A line ends at a line feed, at a carriage return, or at the two in this order, and at
no other character.  However a line end is written, it is read as a line feed, and
each line keeps its own.  The last line may have none.

    (lines cs).flatten = unify cs                (flatten_lines)
-/

namespace SecurityDescriptor.Text

/-! ## Algorithm -/

/-- Writes every line end as a line feed. -/
def unify : List Char → List Char
  | [] => []
  | '\r' :: '\n' :: cs => '\n' :: unify cs
  | c :: cs => (if c = '\r' then '\n' else c) :: unify cs

/-- Puts a character in front of a text cut into lines. -/
def consLine (c : Char) (ls : List (List Char)) : List (List Char) :=
  if c = '\n' then [c] :: ls
  else match ls with
    | [] => [[c]]
    | l :: rest => (c :: l) :: rest

/-- Cuts a text after every line feed. -/
def cut (cs : List Char) : List (List Char) := cs.foldr consLine []

/-- The lines of a text. -/
def lines (cs : List Char) : List (List Char) := cut (unify cs)

/-! ## Lemmas -/

theorem flatten_consLine (c : Char) (ls : List (List Char)) :
    (consLine c ls).flatten = c :: ls.flatten := by
  unfold consLine
  split
  · rfl
  · cases ls <;> rfl

theorem flatten_cut (cs : List Char) : (cut cs).flatten = cs := by
  induction cs with
  | nil => rfl
  | cons c cs ih =>
    rw [cut, List.foldr_cons, flatten_consLine]
    exact congrArg (c :: ·) ih

/-- Cutting loses nothing. -/
theorem flatten_lines (cs : List Char) : (lines cs).flatten = unify cs := flatten_cut _

end SecurityDescriptor.Text
