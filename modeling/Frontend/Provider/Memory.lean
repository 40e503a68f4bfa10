import Frontend.Provider.Basic
import Frontend.Provider.Path

/-!
# Files in memory

A store of files under their normalised paths. The last file stored under a path is the one that
is read; a path that leads out of the root stores nothing and reads nothing. Since paths are texts,
a path whose bytes are no text, which would fare the same, does not occur.
-/

namespace Frontend

/-- Files in memory, the one stored last first. -/
structure MemoryStore where
  files : List (Text × Bytes)

namespace MemoryStore

/-- The store without files. -/
def empty : MemoryStore := ⟨[]⟩

/-- Stores a file. -/
def add (path : String) (content : Bytes) (store : MemoryStore) : MemoryStore :=
  match Path.normalize? path.toList with
  | none => store
  | some key => ⟨(key, content) :: store.files⟩

/-- Reads a file. -/
def readBytes (store : MemoryStore) (path : String) : Except Error Bytes :=
  match Path.normalize? path.toList with
  | none => .error (.unreadable "Invalid path")
  | some key =>
    match store.files.lookup key with
    | none => .error (.unreadable "File not found")
    | some content => .ok content

/-- Reads a file as text. -/
def readText (store : MemoryStore) (path : String) : Except Error Text :=
  match store.readBytes path with
  | .error e => .error e
  | .ok content => decodeText content

/-- The provider of the files of a store. -/
def provider (store : MemoryStore) : Provider :=
  ⟨store.readBytes, store.readText⟩

end MemoryStore

end Frontend
