import Mathlib.Data.List.Forall2
import SecurityDescriptor.CommandLine.Session

/-!
# Contents that are read alike

Of an input a call sees the record lines and nothing else.  Let two contents have the same record
lines.  As standard input they make the same call, and as a file, under whatever paths, they make
calls that print, log and exit alike, also throughout a session.

    readLines a = readLines b → Interchangeable a b                  (interchangeable_of_readLines)

The calls need not leave the same files, for a file that is not written keeps its content.  But
these were one but for a file, and have got the same texts since (`Parted`), as each act gives
them (`Act.perform_alike`).  So what a file is read as is the same (`ReadAlike`), and a path leads
to the same file.
-/

namespace SecurityDescriptor.CommandLine

open FileSystem

variable {σ ι : Type} [FileSystem σ ι]

/-! ## File systems -/

/-- Paths lead to the same files, and these have the same record lines. -/
structure ReadAlike (d d' : σ) : Prop where
  locate_eq : locate d = locate d'
  read?_eq (f : ι) : (read? d f).map readLines = (read? d' f).map readLines

theorem ReadAlike.readPath_eq {d d' : σ} (h : ReadAlike d d') (path : String) :
    (readPath d path).map readLines = (readPath d' path).map readLines := by
  rw [readPath, readPath, h.locate_eq]
  cases locate d' .reading path with
  | error e => rfl
  | ok f =>
    have hread := h.read?_eq f
    dsimp only
    cases hd' : read? d' f with
    | none =>
      rw [hd', Option.map_none, Option.map_eq_none_iff] at hread
      rw [hread]
    | some content' =>
      rw [hd', Option.map_some, Option.map_eq_some_iff] at hread
      obtain ⟨content, hd, hlines⟩ := hread
      rw [hd]
      exact congrArg Except.ok hlines

/-- What was one state and has got the same files since, with the same record lines. -/
inductive Parted : σ → σ → Prop where
  | refl (d : σ) : Parted d d
  | write {d d' : σ} {a b : ByteArray} (f : ι) : Parted d d' → readLines a = readLines b →
      Parted (write d f a) (write d' f b)

namespace Parted

variable {d d' : σ}

theorem exists_writes (h : Parted d d') :
    ∃ (e : σ) (ws ws' : List (ι × ByteArray)),
      d = writes e ws ∧ d' = writes e ws' ∧ ws.map Prod.fst = ws'.map Prod.fst := by
  induction h with
  | refl d => exact ⟨d, [], [], rfl, rfl, rfl⟩
  | @write d d' a b f _ _ ih =>
    obtain ⟨e, ws, ws', rfl, rfl, hws⟩ := ih
    refine ⟨e, ws ++ [(f, a)], ws' ++ [(f, b)], ?_, ?_, ?_⟩
    · rw [writes_concat]
    · rw [writes_concat]
    · rw [List.map_append, List.map_append, hws]
      rfl

variable [LawfulFileSystem σ ι]

theorem readAlike (h : Parted d d') : ReadAlike d d' where
  locate_eq := by
    obtain ⟨e, ws, ws', rfl, rfl, hws⟩ := h.exists_writes
    exact LawfulFileSystem.locate_writes e hws
  read?_eq g := by
    induction h with
    | refl => rfl
    | @write d d' a b f _ hab ih =>
      by_cases hg : g = f
      · subst hg
        rw [LawfulFileSystem.read?_write, LawfulFileSystem.read?_write, Option.map_some,
          Option.map_some, hab]
      · rw [LawfulFileSystem.read?_write_of_ne d a hg, LawfulFileSystem.read?_write_of_ne d' b hg]
        exact ih

end Parted

/-! ## Acts -/

/-- The same outputs, and files that have parted. -/
structure Surroundings.Alike (w w' : Surroundings σ) : Prop where
  stdout_eq : w.stdout = w'.stdout
  log_eq : w.log = w'.log
  parted : Parted w.directory w'.directory

section Acts

variable [LawfulFileSystem σ ι] {w w' : Surroundings σ}

/-- An act fails in both surroundings, for the same reason, or leaves them alike. -/
theorem Act.perform_alike (h : w.Alike w') (act : Act) :
    (∃ e, act.perform w = .error e ∧ act.perform w' = .error e) ∨
      ∃ v v', act.perform w = .ok v ∧ act.perform w' = .ok v' ∧ v.Alike v' := by
  cases act with
  | log notices =>
    exact .inr ⟨_, _, rfl, rfl, h.stdout_eq, congrArg (· ++ notices) h.log_eq, h.parted⟩
  | print text =>
    exact .inr ⟨_, _, rfl, rfl, congrArg (· ++ text) h.stdout_eq, h.log_eq, h.parted⟩
  | save path text =>
    rw [perform, perform, h.parted.readAlike.locate_eq]
    cases locate w'.directory .writing path with
    | error e => exact .inl ⟨e, rfl, rfl⟩
    | ok f => exact .inr ⟨_, _, rfl, rfl, h.stdout_eq, h.log_eq, h.parted.write f rfl⟩
  | saveNameless => exact .inl ⟨.noPath, rfl, rfl⟩

theorem performAll_alike (h : w.Alike w') (acts : List Act) :
    (performAll w acts).1 = (performAll w' acts).1 ∧
      (performAll w acts).2.Alike (performAll w' acts).2 := by
  induction acts generalizing w w' with
  | nil => exact ⟨rfl, h⟩
  | cons act acts ih =>
    rw [performAll, performAll]
    rcases act.perform_alike h with ⟨e, he, he'⟩ | ⟨v, v', hv, hv', halike⟩
    · rw [he, he']
      exact ⟨rfl, h⟩
    · rw [hv, hv']
      exact ih halike

end Acts

/-! ## Calls -/

/-- Calls that print, log and exit alike, and leave files that are read alike. -/
structure Call.Alike (c c' : Call σ) : Prop where
  exit_eq : c.exit = c'.exit
  stdout_eq : c.stdout = c'.stdout
  stderr_eq : c.stderr = c'.stderr
  levels_eq : c.levels = c'.levels
  directory : ReadAlike c.directory c'.directory

namespace Settings

variable (s : Settings) {d d' : σ} {stdin stdin' : ByteArray} (levels : LogLevels)

/-- The input of a run counts by its record lines. -/
theorem run_eq_match (dir : σ) (stdin : ByteArray) :
    s.run dir stdin levels =
      match (s.content dir stdin).map readLines with
      | .error e => ⟨.error (.cannotOpen e), "", "", dir, levels.configure s.verbosity⟩
      | .ok none => ⟨.error .notText, "", "", dir, levels.configure s.verbosity⟩
      | .ok (some lines) => s.runLines dir (levels.configure s.verbosity) lines := by
  rw [run]
  cases s.content dir stdin with
  | error e => rfl
  | ok content =>
    simp only [Except.map]
    cases readLines content <;> rfl

theorem content_eq (h : ReadAlike d d') (hin : readLines stdin = readLines stdin') :
    (s.content d stdin).map readLines = (s.content d' stdin').map readLines := by
  rw [content, content]
  split
  · exact congrArg Except.ok hin
  · exact h.readPath_eq s.input

variable [LawfulFileSystem σ ι]

theorem runLines_alike (h : Parted d d') (lines : List String) :
    (s.runLines d levels lines).Alike (s.runLines d' levels lines) ∧
      Parted (s.runLines d levels lines).directory (s.runLines d' levels lines).directory := by
  have hstart : Surroundings.Alike ⟨"", [], d⟩ ⟨"", [], d'⟩ := ⟨rfl, rfl, h⟩
  obtain ⟨herror, hend⟩ := performAll_alike hstart (s.script lines).acts
  have hparted : Parted (s.runLines d levels lines).directory
    (s.runLines d' levels lines).directory := hend.parted
  exact ⟨⟨congrArg (s.script lines).exit herror, hend.stdout_eq,
    congrArg (Notice.shown levels.threshold) hend.log_eq, rfl, hparted.readAlike⟩, hparted⟩

theorem run_alike (h : Parted d d') (hin : readLines stdin = readLines stdin') :
    (s.run d stdin levels).Alike (s.run d' stdin' levels) ∧
      Parted (s.run d stdin levels).directory (s.run d' stdin' levels).directory := by
  rw [run_eq_match, run_eq_match, s.content_eq h.readAlike hin]
  cases (s.content d' stdin').map readLines with
  | error e => exact ⟨⟨rfl, rfl, rfl, rfl, h.readAlike⟩, h⟩
  | ok lines? =>
    cases lines? with
    | none => exact ⟨⟨rfl, rfl, rfl, rfl, h.readAlike⟩, h⟩
    | some lines => exact s.runLines_alike _ h lines

end Settings

section Sessions

variable {d d' : σ} {stdin stdin' : ByteArray}

theorem call_alike [LawfulFileSystem σ ι] (h : Parted d d')
    (hin : readLines stdin = readLines stdin') (levels : LogLevels) (args : List String) :
    (call d levels args stdin).Alike (call d' levels args stdin') ∧
      Parted (call d levels args stdin).directory (call d' levels args stdin').directory := by
  rw [call, call]
  cases Request.ofArguments args with
  | help => exact ⟨⟨rfl, rfl, rfl, rfl, h.readAlike⟩, h⟩
  | error e => exact ⟨⟨rfl, rfl, rfl, rfl, h.readAlike⟩, h⟩
  | run s => exact s.run_alike levels h hin

/-- On the same files, calls that find the same record lines in the standard input are the same. -/
theorem call_eq_of_readLines (h : readLines stdin = readLines stdin') (dir : σ)
    (levels : LogLevels) (args : List String) :
    call dir levels args stdin = call dir levels args stdin' := by
  have hdir : ReadAlike dir dir := ⟨rfl, fun _ => rfl⟩
  rw [call, call]
  cases Request.ofArguments args with
  | run s =>
    show s.run dir stdin levels = s.run dir stdin' levels
    rw [s.run_eq_match, s.run_eq_match, s.content_eq hdir h]
  | _ => rfl

/-- What one call leaves alike the next one finds alike. -/
theorem session_alike [LawfulFileSystem σ ι] (h : Parted d d') (levels : LogLevels)
    (calls : List (List String × ByteArray)) :
    List.Forall₂ Call.Alike (session d levels calls) (session d' levels calls) := by
  induction calls generalizing d d' levels with
  | nil => exact .nil
  | cons c calls ih =>
    obtain ⟨args, stdin⟩ := c
    have hin : readLines stdin = readLines stdin := rfl
    obtain ⟨hcall, hparted⟩ := call_alike h hin levels args
    rw [session, session, hcall.levels_eq]
    exact .cons hcall (ih hparted _)

end Sessions

/-! ## Contents -/

/-- No call can tell one content from the other, on any file system. -/
structure Interchangeable (a b : ByteArray) : Prop where
  readLines_eq : readLines a = readLines b
  /-- As standard input. -/
  call_eq {σ ι : Type} [FileSystem σ ι] (dir : σ) (levels : LogLevels) (args : List String) :
    call dir levels args a = call dir levels args b
  /-- As a file, to which calls may be given paths as input, as target or as both. -/
  session_alike {σ ι : Type} [FileSystem σ ι] [LawfulFileSystem σ ι] (dir : σ) (f : ι)
    (levels : LogLevels) (calls : List (List String × ByteArray)) :
    List.Forall₂ Call.Alike (session (write dir f a) levels calls)
      (session (write dir f b) levels calls)

theorem interchangeable_of_readLines {a b : ByteArray} (h : readLines a = readLines b) :
    Interchangeable a b where
  readLines_eq := h
  call_eq := call_eq_of_readLines h
  session_alike dir f := session_alike ((Parted.refl dir).write f h)

end SecurityDescriptor.CommandLine
