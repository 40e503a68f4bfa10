import Frontend.Source.File

/-!
# Spans

A span is a part of a source file between two offsets. `Span.Valid` says that both offsets name
places in the content, in order; the constructors that check give valid spans only, and `join?`
keeps validity without looking at the content again.
-/

namespace Frontend

/-- A part of a source file; the end is exclusive. -/
structure Span where
  file : SourceFile
  start : Nat
  stop : Nat

namespace Span

/-- Both ends are places in the content, in order. -/
def Valid (s : Span) : Prop :=
  s.start ≤ s.stop ∧ Text.isBoundary s.start s.file.content ∧
    Text.isBoundary s.stop s.file.content

/-- Whether a span is valid can be tested on its bounds. -/
instance (s : Span) : Decidable s.Valid :=
  inferInstanceAs (Decidable (_ ∧ _ ∧ _))

/-- The span between two offsets, if it is valid. -/
def ofBounds? (file : SourceFile) (start stop : Nat) : Option Span :=
  if Valid ⟨file, start, stop⟩ then some ⟨file, start, stop⟩ else none

/-- The empty span at an offset. -/
def empty? (file : SourceFile) (offset : Nat) : Option Span :=
  ofBounds? file offset offset

/-- The span from an offset to the end of the content. -/
def toEnd? (file : SourceFile) (start : Nat) : Option Span :=
  ofBounds? file start (Text.size file.content)

/-- The text of the span. -/
def text (s : Span) : Text :=
  Text.slice s.file.content s.start s.stop

/-- Whether the span covers no text. -/
def isEmpty (s : Span) : Bool :=
  s.start = s.stop

/-- Where the span starts. A valid span starts at a location of its file; `0:0` stands for the
start of any other. -/
def position (s : Span) : Position :=
  ⟨s.file.name, (s.file.location? s.start).getD ⟨0, 0⟩⟩

/-- From the start of one span to the end of another of the same file, unless that end comes
first. -/
def join? (a b : Span) : Option Span :=
  if a.file.origin = b.file.origin ∧ a.start ≤ b.stop then some ⟨a.file, a.start, b.stop⟩
  else none

/-- Spans are equal when their files and their bounds are. -/
def same (a b : Span) : Bool :=
  a.file.origin = b.file.origin && a.start = b.start && a.stop = b.stop

/-- Spans are ordered by their files, then by their starts, then by their ends. -/
def compare (a b : Span) : Ordering :=
  (Ord.compare a.file.origin b.file.origin).then
    ((Ord.compare a.start b.start).then (Ord.compare a.stop b.stop))

/-- The spans in increasing order, each of them once. -/
def sortDistinct (spans : List Span) : List Span :=
  (spans.mergeSort fun a b => (a.compare b).isLE).foldr
    (fun s kept => if kept.head?.any (s.same ·) then kept else s :: kept) []

/-- The bounds of a span and its text. -/
def dump (s : Span) : Dump :=
  .record "Span"
    [("start", .nat s.start), ("end", .nat s.stop), ("content", .leaf (Quoted.text s.text))]

/-- If there is a span between two offsets, it is valid and has these bounds. -/
theorem valid_of_ofBounds? {file : SourceFile} {start stop : Nat} {s : Span}
    (h : ofBounds? file start stop = some s) : s.Valid ∧ s = ⟨file, start, stop⟩ := by
  unfold ofBounds? at h
  split at h
  · rename_i hvalid
    obtain rfl : _ = s := by simpa using h
    exact ⟨hvalid, rfl⟩
  · simp at h

end Span

end Frontend
