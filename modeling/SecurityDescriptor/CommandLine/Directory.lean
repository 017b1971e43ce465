import SecurityDescriptor.CommandLine.FileSystem

/-!
# Working directories

The smallest file system: one directory, which holds files under plain names and no other
directories, and nothing outside of it.  A path is walked component by component, and the first
one that leads no further decides: a single dot stays, two dots go upwards, and there is nothing
below a file.  A path that is walked to its end without a name is a directory.

    (d.write n c).read? n = some c               (read?_write)
-/

namespace SecurityDescriptor.CommandLine

/-- The files of a directory. -/
structure Directory where
  files : List (String × ByteArray)

namespace Directory

/-! ## Algorithm -/

/-- The content of a file. -/
def read? (d : Directory) (name : String) : Option ByteArray := d.files.lookup name

/-- Puts a content under a name, in place of what is there. -/
def put (name : String) (content : ByteArray) : List (String × ByteArray) →
    List (String × ByteArray)
  | [] => [(name, content)]
  | (n, c) :: rest =>
    if name = n then (n, content) :: rest else (n, c) :: put name content rest

/-- The directory with a file written. -/
def write (d : Directory) (name : String) (content : ByteArray) : Directory :=
  ⟨put name content d.files⟩

/-- A name has at most so many bytes. -/
def maxNameBytes : Nat := 255

/-- A path has at most so many bytes. -/
def maxPathBytes : Nat := 4095

/-- The components of a path.  Empty ones lead nowhere. -/
def components (path : List Char) : List (List Char) :=
  (path.splitOn '/').filter (· != [])

/-- A file of this name is met on a walk, which has left the directory or not. -/
def meets (d : Directory) (inside : Bool) (name : String) : Bool :=
  inside && (d.read? name).isSome

/-- The name that a walk ends with, opened for a purpose.  For reading, the file has to be
there, and outside of the directory none can be made. -/
def last (d : Directory) (purpose : Purpose) (path : String) (inside : Bool) (name : String) :
    Except OpenError String :=
  if d.meets inside name ∨ (inside ∧ purpose = .writing) then .ok name
  else .error (.notFound path)

/-- Why a walk cannot go on below a name. -/
def below (d : Directory) (path : String) (inside : Bool) (name : String) : OpenError :=
  if d.meets inside name then .notDirectory path else .notFound path

/-- Walks along the components of a path.  A slash behind the last one asks for a
directory, and none can be made by writing. -/
def walk (d : Directory) (purpose : Purpose) (path : String) (inside : Bool) :
    List (List Char) → Except OpenError String
  | [] => .error (.isDirectory path)
  | c :: cs =>
    let name := String.ofList c
    let slash := path.toList.getLast? = some '/'
    if c = ['.'] then d.walk purpose path inside cs
    else if c = ['.', '.'] then d.walk purpose path false cs
    else if cs = [] ∧ slash ∧ purpose = .writing then .error (.isDirectory path)
    else if maxNameBytes < name.utf8ByteSize then .error (.nameTooLong path)
    else if cs = [] ∧ ¬slash then d.last purpose path inside name
    else .error (d.below path inside name)

/-- The name of the file that a path leads to. -/
def locate (d : Directory) (purpose : Purpose) (path : String) : Except OpenError String :=
  let cs := path.toList
  if cs.contains '\x00' then .error .nullCharacter
  else if cs = [] then .error (.notFound path)
  else if maxPathBytes < path.utf8ByteSize then .error (.nameTooLong path)
  else d.walk purpose path (cs.head? != some '/') (components cs)

instance : FileSystem Directory String := ⟨locate, read?, write⟩

/-! ## Lemmas -/

theorem lookup_put (name other : String) (content : ByteArray)
    (files : List (String × ByteArray)) :
    (put name content files).lookup other =
      if other = name then some content else files.lookup other := by
  have hb {a b : String} (h : ¬a = b) : (a == b) = false := by simpa using h
  induction files with
  | nil => by_cases h : other = name <;> simp [put, List.lookup_cons, h, hb]
  | cons f files ih =>
    obtain ⟨n, c⟩ := f
    by_cases h : name = n
    · subst h
      by_cases h' : other = name <;> simp [put, List.lookup_cons, h', hb]
    · by_cases h' : other = n
      · subst h'
        simp [put, h, Ne.symm h]
      · simp [put, h, List.lookup_cons, hb h', ih]

/-- A file that was written has its new content. -/
theorem read?_write (d : Directory) (name : String) (content : ByteArray) :
    (d.write name content).read? name = some content := by
  simp [read?, write, lookup_put]

/-- Writing a file changes no other. -/
theorem read?_write_of_ne (d : Directory) {name other : String} (content : ByteArray)
    (h : other ≠ name) : (d.write name content).read? other = d.read? other := by
  simp [read?, write, lookup_put, h]

/-! ### Paths -/

variable {d d' : Directory} {path name : String}

theorem last_write (content : ByteArray) {inside : Bool} {other : String}
    (h : d.last .writing path inside other = .ok name) :
    (d.write name content).last .reading path inside other = .ok name := by
  unfold last at h ⊢
  split at h
  · next hmeets =>
    cases h
    have hinside : inside = true := by
      rcases hmeets with hmeets | hmeets
      · exact (Bool.and_eq_true_iff.1 hmeets).1
      · exact hmeets.1
    rw [if_pos (.inl (by simp [meets, hinside, read?_write]))]
  · cases h

/-- A walk that may end in a new file finds it once it is there. -/
theorem walk_write (content : ByteArray) {inside : Bool} {cs : List (List Char)}
    (h : d.walk .writing path inside cs = .ok name) :
    (d.write name content).walk .reading path inside cs = .ok name := by
  fun_induction walk d .writing path inside cs with
  | case1 inside => cases h
  | case2 inside cs ih => exact ih h
  | case3 inside cs hc ih => exact ih h
  | case4 => cases h
  | case5 => cases h
  | case6 inside c cs _ _ hdot hdots _ hlong hlast =>
    rw [walk, if_neg hdot, if_neg hdots, if_neg (fun h => nomatch h.2.2), if_neg hlong,
      if_pos hlast]
    exact last_write content h
  | case7 => cases h

theorem locate_write (content : ByteArray) (h : d.locate .writing path = .ok name) :
    (d.write name content).locate .reading path = .ok name := by
  unfold locate at h ⊢
  by_cases hnull : path.toList.contains '\x00' = true
  · rw [if_pos hnull] at h
    cases h
  · by_cases hempty : path.toList = []
    · rw [if_neg hnull, if_pos hempty] at h
      cases h
    · by_cases hlong : maxPathBytes < path.utf8ByteSize
      · rw [if_neg hnull, if_neg hempty, if_pos hlong] at h
        cases h
      · rw [if_neg hnull, if_neg hempty, if_neg hlong] at h ⊢
        exact walk_write content h

/-- The same names are taken in two directories. -/
def SameNames (d d' : Directory) : Prop :=
  ∀ name, (d.read? name).isSome = (d'.read? name).isSome

namespace SameNames

theorem write (h : SameNames d d') (name : String) (content content' : ByteArray) :
    SameNames (d.write name content) (d'.write name content') := by
  intro other
  by_cases hother : other = name
  · subst hother
    rw [read?_write, read?_write]
    rfl
  · rw [read?_write_of_ne d content hother, read?_write_of_ne d' content' hother]
    exact h other

/-- Names are all that a walk asks for. -/
theorem walk_eq (h : SameNames d d') (purpose : Purpose) (path : String) (inside : Bool)
    (cs : List (List Char)) : d.walk purpose path inside cs = d'.walk purpose path inside cs := by
  have hmeets (inside : Bool) (name : String) : d.meets inside name = d'.meets inside name := by
    rw [meets, meets, h name]
  induction cs generalizing inside with
  | nil => rfl
  | cons c cs ih => rw [walk, walk, ih, ih, last, last, below, below, hmeets]

theorem locate_eq (h : SameNames d d') : d.locate = d'.locate := by
  funext purpose path
  rw [locate, locate, h.walk_eq]

theorem writes (h : SameNames d d') {ws ws' : List (String × ByteArray)}
    (hws : ws.map Prod.fst = ws'.map Prod.fst) :
    SameNames (FileSystem.writes d ws) (FileSystem.writes d' ws') := by
  induction ws generalizing d d' ws' with
  | nil =>
    obtain rfl := List.map_eq_nil_iff.1 hws.symm
    exact h
  | cons w ws ih =>
    obtain ⟨w', ws', rfl, hname, hrest⟩ := List.map_eq_cons_iff.1 hws.symm
    obtain ⟨name, content⟩ := w
    obtain ⟨name', content'⟩ := w'
    obtain rfl : name' = name := hname
    exact ih (h.write name' content content') hrest.symm

end SameNames

instance : LawfulFileSystem Directory String where
  read?_write := read?_write
  read?_write_of_ne d _ _ := read?_write_of_ne d
  locate_write := locate_write
  locate_writes _ _ _ h := SameNames.locate_eq (SameNames.writes (fun _ => rfl) h)

end Directory

end SecurityDescriptor.CommandLine
