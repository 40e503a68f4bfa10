import Frontend.Proofs.Stream.Composition
import Frontend.Proofs.Stream.Layout

/-!
# Streams printed with spaces

The tokens of a stream, joined by spaces, are a text that has the same tokens again, whatever stood
between them before. A space ends every token that could go on, and where a semicolon was inserted
one is written, so that no line break is needed.
-/

namespace Frontend

namespace Token

/-- The text that stands for the token in print: its own, or the semicolon that was inserted. -/
def spelling (t : Token) : Text :=
  if t.isInserted then [';'] else t.text

/-- What holds of a token that can be printed and read again. -/
structure Printable (t : Token) : Prop where
  listed : t.isListed = true
  spelled : t.spelling ≠ []
  freestanding : Freestanding t.cls t.spelling

/-- An inserted semicolon can be printed and read again. -/
theorem printable_insertedSemicolon (offset : Nat) : (insertedSemicolon offset).Printable where
  listed := rfl
  spelled := List.cons_ne_nil _ _
  freestanding := fun rest _ => Spells.semicolon rest

/-- A listed token of a text can be printed and read again. -/
theorem printable_of_mem_placed {t : Text} {x : Token} (h : x ∈ Piece.placed 0 (pieces t))
    (hlisted : x.isListed = true) : x.Printable := by
  have hmem : .token x.cls x.text ∈ pieces t := Piece.mem_of_mem_placed h
  have htext : x.text ≠ [] := (sound_of_mem_pieces hmem).1
  have hspelling : x.spelling = x.text := by
    rw [spelling, isInserted_of_text_ne_nil htext]
    rfl
  exact ⟨hlisted, hspelling ▸ htext, hspelling ▸ freestanding_of_mem_pieces hmem hlisted⟩

end Token

/-- In printed tokens with spaces behind them a pass finds tokens of the same classes with the
printed texts. -/
theorem Pass.exists_reads_printed {tokens : List Token} (h : ∀ x ∈ tokens, x.Printable)
    (armed : Bool) (offset : Nat) :
    ∃ found armed', found.map Token.cls = tokens.map Token.cls ∧
      found.map Token.text = tokens.map Token.spelling ∧
      Reads armed offset (tokens.flatMap fun x => x.spelling ++ [' ']) found [] armed' := by
  induction tokens generalizing armed offset with
  | nil => exact ⟨[], armed, rfl, rfl, reads_nil armed offset⟩
  | cons x tokens ih =>
    have hx := h x List.mem_cons_self
    obtain ⟨found, armed', hcls, htext, hrest⟩ :=
      ih (fun y hy => h y (List.mem_cons_of_mem _ hy)) x.cls.arms
        (offset + Text.size (x.spelling ++ [' ']))
    have hword : Reads armed offset (x.spelling ++ [' ']) [⟨x.cls, offset, x.spelling⟩] []
        x.cls.arms := hx.freestanding.reads_space hx.listed
    refine ⟨_, armed', ?_, ?_, hword.append hrest⟩
    · exact congrArg (x.cls :: ·) hcls
    · exact congrArg (x.spelling :: ·) htext

/-- Words joined by spaces, the last of which is empty, have a space behind each of the others. -/
theorem intercalate_space_concat_nil (words : List Text) :
    [' '].intercalate (words ++ [[]]) = words.flatMap (· ++ [' ']) := by
  induction words with
  | nil => rfl
  | cons word words ih =>
    have hjoin : [' '].intercalate (word :: (words ++ [[]])) =
        word ++ [' '] ++ [' '].intercalate (words ++ [[]]) := by
      cases words <;> simp [List.intercalate_cons_cons]
    rw [List.cons_append, hjoin, ih, List.flatMap_cons]

namespace TokenStream

/-- The tokens of a stream, joined by spaces. -/
def spaced (s : TokenStream) : Text :=
  [' '].intercalate (s.tokens.map Token.spelling)

/-- **A printed stream is read again.** The tokens of a stream, joined by spaces, are a text that
has a stream of the same kinds and the printed texts. Nothing is inserted in it, and it has no
comments. -/
theorem ofText_spaced {t : Text} {s : TokenStream} (h : ofText t = .ok s) :
    ∃ s', ofText s.spaced = .ok s' ∧ s'.kinds = s.kinds ∧
      s'.tokens.map Token.text = s.tokens.map Token.spelling ∧
      (∀ x ∈ s'.tokens, x.isInserted = false) ∧ s'.comments = [] := by
  obtain ⟨front, htokens, hfront⟩ := exists_front_of_ok h
  have hprintable : ∀ x ∈ front, x.Printable := by
    intro x hx
    rcases hfront x hx with hlisted | ⟨offset, rfl⟩
    · obtain ⟨hplaced, hlisted⟩ := List.mem_filter.mp hlisted
      exact Token.printable_of_mem_placed hplaced hlisted
    · exact Token.printable_insertedSemicolon offset
  have hspaced : s.spaced = front.flatMap fun x => x.spelling ++ [' '] := by
    rw [spaced, htokens, List.map_append]
    exact (intercalate_space_concat_nil _).trans (List.flatMap_map ..)
  obtain ⟨found, armed, hcls, htext, hreads⟩ := Pass.exists_reads_printed hprintable false 0
  rw [← hspaced] at hreads
  have hkinds : found.map Token.kind = front.map Token.kind := by
    have hmap := congrArg (List.map TokenClass.kind) hcls
    rwa [List.map_map, List.map_map] at hmap
  refine ⟨_, ofText_of_reads hreads, ?_, ?_, ?_, rfl⟩
  · rw [kinds, kinds, htokens, List.map_append, List.map_append, hkinds]
    rfl
  · rw [htokens, List.map_append, List.map_append, htext]
    rfl
  · intro x hx
    rcases List.mem_append.mp hx with hx | hx
    · have hmem : x.text ∈ front.map Token.spelling := by
        rw [← htext]
        exact List.mem_map_of_mem hx
      obtain ⟨y, hy, hspelling⟩ := List.mem_map.mp hmem
      have hne : x.text ≠ [] := hspelling ▸ (hprintable y hy).spelled
      exact Token.isInserted_of_text_ne_nil hne
    · rw [List.mem_singleton.mp hx]
      rfl

/-- A word at the end of a line, a comment, and a raw string over two lines. -/
theorem ofText_spaced_comment :
    ∃ s, ofText ['x', '\n', '/', '/', '\n', '\x60', '\n', '\x60'] = .ok s ∧
      s.spaced = ['x', ' ', ';', ' ', '\x60', '\n', '\x60', ' '] ∧
      ∃ s', ofText s.spaced = .ok s' ∧
        s'.tokens.map Token.text = [['x'], [';'], ['\x60', '\n', '\x60'], []] := by
  have hs : ofText ['x', '\n', '/', '/', '\n', '\x60', '\n', '\x60'] =
      .ok ⟨[⟨.identifier, 0, ['x']⟩, insertedSemicolon 1,
        ⟨.stringLiteral .raw, 5, ['\x60', '\n', '\x60']⟩, endOfFile 8],
        [⟨.line, 2, ['/', '/']⟩]⟩ := by cbv
  obtain ⟨s', hs', -, htexts, -⟩ := ofText_spaced hs
  exact ⟨_, hs, rfl, s', hs', htexts⟩

end TokenStream

end Frontend
