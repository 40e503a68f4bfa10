import Frontend.Error

/-!
# File providers

A provider reads files by path, as bytes or as text. A reader delivers bytes in pieces and may
fail after the last of them. Texts are decoded from UTF-8 as a whole.
-/

namespace Frontend

/-- A source of files. -/
structure Provider where
  readBytes : String → Except Error Bytes
  readText : String → Except Error Text

/-- The text whose UTF-8 form the bytes are. -/
def decodeText (bytes : Bytes) : Except Error Text :=
  match Utf8.decode bytes with
  | .ok t => .ok t
  | .error e => .error (.notUtf8 e)

namespace Provider

/-- Reads a text by reading its bytes and decoding them. -/
def decodedText (readBytes : String → Except Error Bytes) (path : String) : Except Error Text :=
  (readBytes path).bind decodeText

end Provider

/-- A stream of bytes: the pieces it delivers, and why it fails after them, if it does. An empty
piece is the end of the stream: nothing after it is asked for. -/
structure Reader where
  pieces : List Bytes
  failure : Option String

namespace Reader

/-- The pieces of at most the given size that bytes come in; of size zero there is only an empty
piece. -/
def piecesOf (size : Nat) (bytes : Bytes) : List Bytes :=
  match size, bytes with
  | _, [] => []
  | 0, _ :: _ => [[]]
  | n + 1, b :: rest => (b :: rest.take n) :: piecesOf (n + 1) (rest.drop n)
termination_by bytes.length
decreasing_by
  simp only [List.length_drop, List.length_cons]
  omega

/-- The reader that delivers bytes in pieces of at most the given size. -/
def ofBytes (size : Nat) (bytes : Bytes) (failure : Option String) : Reader :=
  ⟨piecesOf size bytes, failure⟩

/-- The bytes of pieces up to the first empty one, and the failure behind the last. -/
def readPieces (failure : Option String) : List Bytes → Except Error Bytes
  | [] =>
    match failure with
    | some reason => .error (.unreadable reason)
    | none => .ok []
  | [] :: _ => .ok []
  | piece :: pieces => (readPieces failure pieces).map (piece ++ ·)

/-- Reads to the end. -/
def readAll (r : Reader) : Except Error Bytes :=
  readPieces r.failure r.pieces

end Reader

namespace SourceFile

/-- A file read from a provider, under a name of its own. -/
def load (provider : Provider) (path name : String) : Except Error SourceFile :=
  (provider.readText path).map fun content => { path, name, content }

/-- A file read from a stream of bytes. -/
def ofReader (name : String) (r : Reader) : Except Error SourceFile :=
  (r.readAll.bind decodeText).map (SourceFile.ofText name)

end SourceFile

end Frontend
