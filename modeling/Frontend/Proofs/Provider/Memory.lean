import Frontend.Provider.Memory
import Frontend.Proofs.Provider.Path

/-!
# The last file stored is read

A store is known by the files stored in it, one after the other. Storing a file answers to one
normal form only, so what is read under a path depends on the files with the normal form of the
path, and of those on the last one. Paths that lead out of the root have no normal form.
-/

namespace Frontend.MemoryStore

/-- The store after files have been stored one after the other. -/
def ofFiles (files : List (String × Bytes)) : MemoryStore :=
  files.foldl (fun store file => store.add file.1 file.2) empty

/-- Two paths have the same normal form, so neither leads out of the root. -/
def SameFile (path other : String) : Prop :=
  ¬Path.Escapes path.toList ∧ Path.normalize? path.toList = Path.normalize? other.toList

/-- The file stored under a normal form. -/
def content? (store : MemoryStore) (key : Text) : Option Bytes :=
  store.files.lookup key

/-- The files with a normal form, in the order they are stored in. -/
def storedUnder (key : Text) (files : List (String × Bytes)) : List (String × Bytes) :=
  files.filter fun file => Path.normalize? file.1.toList = some key

variable {store : MemoryStore} {path path' : String} {content : Bytes} {key : Text}
  {files front later : List (String × Bytes)}

/-- A path that does not lead out of the root has a normal form. -/
theorem exists_key (h : ¬Path.Escapes path.toList) :
    ∃ key, Path.normalize? path.toList = some key :=
  Option.ne_none_iff_exists'.mp fun hnone => h (Path.normalize?_eq_none_iff.mp hnone)

/-- Two paths with the same normal form have that normal form. -/
theorem sameFile_iff (hkey : Path.normalize? path'.toList = some key) :
    SameFile path path' ↔ Path.normalize? path.toList = some key := by
  rw [SameFile, hkey, ← Path.normalize?_eq_none_iff]
  constructor
  · exact fun h => h.2
  · intro h
    exact ⟨by simp [h], h⟩

/-- No file is stored under the normal form of a path that no file shares. -/
theorem storedUnder_eq_nil (hkey : Path.normalize? path.toList = some key)
    (h : ∀ file ∈ files, ¬SameFile file.1 path) : storedUnder key files = [] := by
  apply List.filter_eq_nil_iff.mpr
  intro file hfile
  simpa using mt (sameFile_iff hkey).mpr (h file hfile)

/-- The paths of one file have a normal form in common. -/
theorem SameFile.exists_key (h : SameFile path path') :
    ∃ key, Path.normalize? path.toList = some key ∧ Path.normalize? path'.toList = some key := by
  obtain ⟨hpath, hsame⟩ := h
  obtain ⟨key, hkey⟩ := MemoryStore.exists_key hpath
  exact ⟨key, hkey, hsame.symm.trans hkey⟩

/-! ## What is stored -/

/-- Storing a file changes what is stored under its normal form, if it has one, and nothing else. -/
theorem content?_add (store : MemoryStore) (path : String) (content : Bytes) (key : Text) :
    (store.add path content).content? key =
      if Path.normalize? path.toList = some key then some content else store.content? key := by
  unfold add content?
  cases hform : Path.normalize? path.toList with
  | none => simp
  | some form =>
    by_cases hkey : key = form
    · simp [hkey]
    · simp [Ne.symm hkey, List.lookup_cons, beq_eq_false_iff_ne.mpr hkey]

/-- Of the files with a normal form, the last one is stored. -/
theorem content?_ofFiles (files : List (String × Bytes)) (key : Text) :
    (ofFiles files).content? key = (storedUnder key files).getLast?.map Prod.snd := by
  induction files using List.reverseRecOn with
  | nil => rfl
  | append_singleton files file ih =>
    have hadd : ofFiles (files ++ [file]) = (ofFiles files).add file.1 file.2 := by
      simp [ofFiles]
    rw [hadd, content?_add, ih, storedUnder, storedUnder, List.filter_append]
    by_cases hkey : Path.normalize? file.1.toList = some key
    · simp [hkey]
    · simp [hkey]

/-! ## What is read -/

/-- A path that leads out of the root reads nothing, whatever is stored. -/
theorem readBytes_of_escapes (h : Path.Escapes path.toList) (store : MemoryStore) :
    store.readBytes path = .error (.unreadable "Invalid path") := by
  rw [readBytes, Path.normalize?_eq_none_iff.mpr h]

/-- What is stored under the normal form of a path is read by the path. -/
theorem readBytes_of_content? (hkey : Path.normalize? path.toList = some key)
    (h : store.content? key = some content) : store.readBytes path = .ok content := by
  unfold content? at h
  rw [readBytes, hkey]
  simp only [h]

/-- A path under whose normal form nothing is stored reads nothing. -/
theorem readBytes_of_content?_eq_none (hkey : Path.normalize? path.toList = some key)
    (h : store.content? key = none) :
    store.readBytes path = .error (.unreadable "File not found") := by
  unfold content? at h
  rw [readBytes, hkey]
  simp only [h]

/-- Two stores read the same under a path if the same is stored under its normal form. -/
theorem readBytes_congr {store' : MemoryStore}
    (h : ∀ key, Path.normalize? path.toList = some key → store.content? key = store'.content? key) :
    store.readBytes path = store'.readBytes path := by
  unfold readBytes
  cases hkey : Path.normalize? path.toList with
  | none => rfl
  | some key =>
    have hcontent := h key hkey
    unfold content? at hcontent
    simp only [hcontent]

/-- A file that has no later one under the same path is read. -/
theorem readBytes_last (hsame : SameFile path path')
    (hlater : ∀ file ∈ later, ¬SameFile file.1 path') :
    (ofFiles (front ++ (path, content) :: later)).readBytes path' = .ok content := by
  obtain ⟨key, hpath, hkey⟩ := hsame.exists_key
  have hfiles : storedUnder key (front ++ (path, content) :: later) =
      storedUnder key front ++ [(path, content)] := by
    rw [storedUnder, List.filter_append, List.filter_cons_of_pos (by simpa using hpath)]
    exact congrArg (storedUnder key front ++ (path, content) :: ·)
      (storedUnder_eq_nil hkey hlater)
  apply readBytes_of_content? hkey
  rw [content?_ofFiles, hfiles, List.getLast?_concat, Option.map_some]

/-- Where no file is stored, none is found. -/
theorem readBytes_missing (hpath : ¬Path.Escapes path.toList)
    (h : ∀ file ∈ files, ¬SameFile file.1 path) :
    (ofFiles files).readBytes path = .error (.unreadable "File not found") := by
  obtain ⟨key, hkey⟩ := exists_key hpath
  apply readBytes_of_content?_eq_none hkey
  rw [content?_ofFiles, storedUnder_eq_nil hkey h, List.getLast?_nil, Option.map_none]

/-- A file under another path makes no difference. -/
theorem readBytes_without (h : ¬SameFile path path') :
    (ofFiles (front ++ (path, content) :: later)).readBytes path' =
      (ofFiles (front ++ later)).readBytes path' := by
  apply readBytes_congr
  intro key hkey
  have hpath : ¬Path.normalize? path.toList = some key := mt (sameFile_iff hkey).mpr h
  simp only [content?_ofFiles, storedUnder, List.filter_append]
  rw [List.filter_cons_of_neg (by simpa using hpath)]

/-- What is read after files have been stored one after the other. -/
structure LastWriteWins (files : List (String × Bytes)) : Prop where
  /-- Nothing is read under a path that leads out of the root. -/
  escaped : ∀ path : String, Path.Escapes path.toList →
    (ofFiles files).readBytes path = .error (.unreadable "Invalid path")
  /-- Under any other path the last file with the same normal form is read. -/
  last : ∀ front path content later, files = front ++ (path, content) :: later →
    ∀ path', SameFile path path' → (∀ file ∈ later, ¬SameFile file.1 path') →
      (ofFiles files).readBytes path' = .ok content
  /-- Without a file of the same normal form there is nothing to read. -/
  missing : ∀ path : String, ¬Path.Escapes path.toList →
    (∀ file ∈ files, ¬SameFile file.1 path) →
      (ofFiles files).readBytes path = .error (.unreadable "File not found")
  /-- A file stored under a path that leads out of the root changes nothing. -/
  ignored : ∀ front path content later, files = front ++ (path, content) :: later →
    Path.Escapes path.toList → ∀ path',
      (ofFiles files).readBytes path' = (ofFiles (front ++ later)).readBytes path'
  /-- A file changes nothing under the paths with another normal form. -/
  apart : ∀ front path content later, files = front ++ (path, content) :: later →
    ∀ path', Path.normalize? path.toList ≠ Path.normalize? path'.toList →
      (ofFiles files).readBytes path' = (ofFiles (front ++ later)).readBytes path'
  /-- Texts are read as by every provider that decodes what it reads. -/
  text : ∀ path, (ofFiles files).provider.readText path =
    Provider.decodedText (ofFiles files).provider.readBytes path

/-- **The last write wins.** Whatever files are stored, and under whatever spellings of their paths,
a path reads the last one with its normal form. -/
theorem lastWriteWins (files : List (String × Bytes)) : LastWriteWins files where
  escaped path h := readBytes_of_escapes h (ofFiles files)
  last front path content later hfiles path' hsame hlater := by
    rw [hfiles]
    exact readBytes_last hsame hlater
  missing path hpath h := readBytes_missing hpath h
  ignored front path content later hfiles hpath path' := by
    rw [hfiles]
    exact readBytes_without fun hsame => hsame.1 hpath
  apart front path content later hfiles path' hne := by
    rw [hfiles]
    exact readBytes_without fun hsame => hne hsame.2
  text path := by
    simp only [provider, readText, Provider.decodedText]
    cases (ofFiles files).readBytes path with
    | error e => rfl
    | ok bytes => rfl

/-- Three spellings of one path; the file stored last leads out of the root. -/
example : (ofFiles [("./a//b", [1]), ("x/../a/b", [2]), ("a/../../b", [3])]).readBytes "/a/./b" =
    .ok [2] := by cbv

end Frontend.MemoryStore
