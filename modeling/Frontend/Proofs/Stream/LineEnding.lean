import Mathlib
import Frontend.Proofs.Source.Location
import Frontend.Proofs.Stream.Placed
import Frontend.Proofs.Token.LineEnding

/-!
# Streams of texts with carriage returns

A text without carriage returns, and the same text with one before each line feed, are cut into
counterparts: the same tokens in the same order, each of which comes after the same part of the
text. So their locations are the same too, since a carriage return breaks no line and a line break
ends its line. Only an inserted semicolon stands one column further, behind the carriage return.
-/

namespace Frontend

open Text

/-- The second offset comes after the part of the text that the first comes after, where that part
has its carriage returns. -/
def SamePlace (source : Text) (offset offset' : Nat) : Prop :=
  ∃ before after, source = before ++ after ∧ offset = size before ∧ offset' = size before.crlf

/-- Both offsets are those of one line feed of the text. -/
def SameFeed (source : Text) (offset offset' : Nat) : Prop :=
  ∃ before after, source = before ++ '\n' :: after ∧ offset = size before ∧
    offset' = size before.crlf + '\r'.utf8Size

/-- The second lexeme is the first in the text with carriage returns. -/
structure Lexeme.Counterpart (source : Text) (l l' : Lexeme) : Prop where
  place : SamePlace source l.start l'.start
  text : l'.text = l.text.crlf

/-- The second token is the first in the text with carriage returns. -/
inductive Token.Counterpart (source : Text) : Token → Token → Prop
  | written {cls : TokenClass} {l l' : Lexeme} (hwritten : Token.isInserted ⟨cls, l⟩ = false)
      (h : l.Counterpart source l') : Counterpart source ⟨cls, l⟩ ⟨cls, l'⟩
  | inserted {offset offset' : Nat} (h : SameFeed source offset offset') :
      Counterpart source (insertedSemicolon offset) (insertedSemicolon offset')

/-- The second comment is the first in the text with carriage returns. -/
structure Comment.Counterpart (source : Text) (c c' : Comment) : Prop where
  form : c'.form = c.form
  lexeme : c.lexeme.Counterpart source c'.lexeme

/-- Both errors are for the same reason, at the same place. -/
structure LexicalError.Counterpart (source : Text) (e e' : LexicalError) : Prop where
  reason : e'.reason = e.reason
  place : SamePlace source e.lexeme.start e'.lexeme.start

/-- What the second pass finds are the counterparts of what the first one finds. -/
structure Pass.Counterpart (source : Text) (p p' : Pass) : Prop where
  tokens : List.Forall₂ (Token.Counterpart source) p.tokens p'.tokens
  comments : List.Forall₂ (Comment.Counterpart source) p.comments p'.comments
  error : Option.Rel (LexicalError.Counterpart source) p.error p'.error

namespace Pass

variable {source : Text} {p p' : Pass}

/-- Passes that come to an end at the same place are counterparts. -/
theorem counterpart_finished {offset offset' : Nat} (h : SamePlace source offset offset') :
    Counterpart source (finished offset) (finished offset') where
  tokens := .cons (.written rfl ⟨h, rfl⟩) .nil
  comments := .nil
  error := .none

/-- Passes that are stopped by errors that are counterparts are counterparts. -/
theorem counterpart_stopped {e e' : LexicalError} (h : e.Counterpart source e') :
    Counterpart source (stopped e) (stopped e') where
  tokens := .nil
  comments := .nil
  error := .some h

/-- Passes stay counterparts if tokens that are counterparts are found first. -/
theorem Counterpart.withToken (h : Counterpart source p p') {t t' : Token}
    (ht : t.Counterpart source t') : Counterpart source (p.withToken t) (p'.withToken t') where
  tokens := .cons ht h.tokens
  comments := h.comments
  error := h.error

/-- Passes stay counterparts if comments that are counterparts are found first. -/
theorem Counterpart.withComment (h : Counterpart source p p') {c c' : Comment}
    (hc : c.Counterpart source c') :
    Counterpart source (p.withComment c) (p'.withComment c') where
  tokens := h.tokens
  comments := .cons hc h.comments
  error := h.error

/-- Passes stay counterparts if semicolons for the same line feed are inserted first. -/
theorem Counterpart.withSemicolon (h : Counterpart source p p') {feed? feed?' : Option Nat}
    (hfeed : Option.Rel (SameFeed source) feed? feed?') :
    Counterpart source (p.withSemicolon feed?) (p'.withSemicolon feed?') := by
  cases hfeed with
  | none => exact h
  | some hfeed => exact h.withToken (.inserted hfeed)

/-- The first line feed of a text stands behind the text before it. -/
private theorem size_takeWhile_feed {front : Text} (h : '\n' ∉ front) (back : Text) :
    size ((front ++ '\n' :: back).takeWhile (· ≠ '\n')) = size front := by
  have hall : ∀ c ∈ front, decide (c ≠ '\n') = true := by
    intro c hc
    simpa using ne_of_mem_of_not_mem hc h
  rw [List.takeWhile_append_of_pos hall, List.takeWhile_cons_of_neg (by simp), List.append_nil]

/-- The first line feed of a comment is that of its counterpart. -/
theorem lineFeedOffset?_counterpart {before text after : Text}
    (hsource : source = before ++ (text ++ after)) (form : CommentForm) :
    Option.Rel (SameFeed source) (lineFeedOffset? form ⟨size before, text⟩)
      (lineFeedOffset? form ⟨size before.crlf, text.crlf⟩) := by
  unfold lineFeedOffset?
  by_cases hfeed : form = .delimited ∧ '\n' ∈ text
  · obtain ⟨front, back, rfl, hfront⟩ := List.eq_append_cons_of_mem hfeed.2
    have hsplit : crlf (front ++ '\n' :: back) = (front ++ ['\r']) ++ '\n' :: crlf back := by
      rw [crlf_append, crlf_eq_self hfront, crlf_feed, List.append_assoc]
      rfl
    have hfeed' : form = .delimited ∧ '\n' ∈ crlf (front ++ '\n' :: back) := by
      refine ⟨hfeed.1, ?_⟩
      rw [hsplit]
      exact List.mem_append_right _ List.mem_cons_self
    have hfront' : '\n' ∉ front ++ ['\r'] := by simpa using hfront
    rw [if_pos hfeed, if_pos hfeed']
    apply Option.Rel.some
    refine ⟨before ++ front, back ++ after, by simp [hsource], ?_, ?_⟩
    · rw [size_append, size_takeWhile_feed hfront]
    · rw [hsplit, size_takeWhile_feed hfront', crlf_append, crlf_eq_self hfront, size_append,
        size_append, size_cons, size_nil, Nat.add_zero, Nat.add_assoc]
  · have hfeed' : ¬(form = .delimited ∧ '\n' ∈ text.crlf) := by
      rintro ⟨hform, hmem⟩
      have hnot : '\n' ∉ text := fun h => hfeed ⟨hform, h⟩
      rw [crlf_eq_self hnot] at hmem
      exact hnot hmem
    rw [if_neg hfeed, if_neg hfeed']
    exact .none

/-- A token that does not end the pass, and its counterpart in front of what are counterparts. -/
theorem counterpart_token {before text after : Text} (hsource : source = before ++ (text ++ after))
    (htext : text ≠ []) {cls : TokenClass} (hlegal : ∀ reason, cls ≠ .illegal reason)
    {ps ps' : List Piece}
    (h : ∀ armed, Counterpart source (overPieces armed (size before + size text) ps)
      (overPieces armed (size before.crlf + size text.crlf) ps')) (armed : Bool) :
    Counterpart source (overPieces armed (size before) (.token cls text :: ps))
      (overPieces armed (size before.crlf) (.token cls text.crlf :: ps')) := by
  have hlexeme : Lexeme.Counterpart source ⟨size before, text⟩ ⟨size before.crlf, text.crlf⟩ :=
    ⟨⟨before, text ++ after, hsource, rfl, rfl⟩, rfl⟩
  have hlisted (hcls : cls.isListed = true) :
      Counterpart source (overPieces armed (size before) (.token cls text :: ps))
        (overPieces armed (size before.crlf) (.token cls text.crlf :: ps')) := by
    have hwritten := Token.isInserted_of_text_ne_nil (t := ⟨cls, size before, text⟩) htext
    rw [overPieces_listed hcls, overPieces_listed hcls]
    exact (h cls.arms).withToken (.written hwritten hlexeme)
  cases cls with
  | comment form =>
    have hfeed : Option.Rel (SameFeed source)
        (if armed then lineFeedOffset? form ⟨size before, text⟩ else none)
        (if armed then lineFeedOffset? form ⟨size before.crlf, text.crlf⟩ else none) := by
      cases armed with
      | false => exact .none
      | true => exact lineFeedOffset?_counterpart hsource form
    rw [overPieces, overPieces]
    generalize (if armed then lineFeedOffset? form ⟨size before, text⟩ else none) = feed? at hfeed ⊢
    generalize (if armed then lineFeedOffset? form ⟨size before.crlf, text.crlf⟩ else none) = feed?'
      at hfeed ⊢
    have hsame : feed?'.isNone = feed?.isNone := by
      cases hfeed <;> rfl
    have hcomment : Comment.Counterpart source ⟨form, size before, text⟩
        ⟨form, size before.crlf, text.crlf⟩ := ⟨rfl, hlexeme⟩
    rw [hsame]
    exact ((h _).withComment hcomment).withSemicolon hfeed
  | illegal reason => exact absurd rfl (hlegal reason)
  | _ => exact hlisted rfl

/-- **Passes do not depend on line endings.** -/
theorem overPieces_crlf {t : Text} (hreturn : '\r' ∉ t) {before : Text}
    (hsource : source = before ++ t) (armed : Bool) :
    Counterpart source (overPieces armed (size before) (pieces t))
      (overPieces armed (size before.crlf) (pieces t.crlf)) := by
  fun_induction pieces t generalizing before armed with
  | case1 =>
    rw [crlf_nil, pieces_nil]
    exact counterpart_finished ⟨before, [], hsource, rfl, rfl⟩
  | case2 c t hgap ih =>
    have htail : '\r' ∉ t := fun h => hreturn (List.mem_cons_of_mem _ h)
    have hsplit : source = (before ++ [c]) ++ t := by simp [hsource]
    -- before a line feed the second text has one more gap, so a semicolon moves behind it
    by_cases hfeed : c = '\n'
    · subst hfeed
      rw [crlf_feed, pieces_gap rfl, pieces_gap rfl]
      have hrest := ih htail hsplit false
      have hsame : Option.Rel (SameFeed source) (if armed then some (size before) else none)
          (if armed then some (size before.crlf + '\r'.utf8Size) else none) := by
        cases armed with
        | false => exact .none
        | true => exact .some ⟨before, t, hsource, rfl, rfl⟩
      rw [size_append, crlf_append, size_append] at hrest
      exact hrest.withSemicolon hsame
    · have hrest := ih htail hsplit armed
      rw [size_append, crlf_append, size_append, crlf_cons hfeed] at hrest
      rw [crlf_cons hfeed, pieces_gap hgap, overPieces, if_neg hfeed, overPieces, if_neg hfeed]
      exact hrest
  | case3 c t hgap ih =>
    have hc : isGap c = false := by simpa using hgap
    have hfeed := ne_feed_of_isGap hc
    have htail : '\r' ∉ t := fun h => hreturn (List.mem_cons_of_mem _ h)
    have halike := Scan.alike_leading hc htail
    have happend : (Scan.leading c t).text ++ (Scan.leading c t).rest = c :: t :=
      Scan.leading_of c t
    rw [crlf_cons hfeed, pieces_token hc]
    by_cases hlegal : (Scan.leading c t).Legal
    · have hrest : '\r' ∉ (Scan.leading c t).rest := by
        intro h
        apply hreturn
        rw [← happend]
        exact List.mem_append_right _ h
      have hsplit : source = before ++ ((Scan.leading c t).text ++ (Scan.leading c t).rest) := by
        rw [hsource, happend]
      have hothers := ih hrest (hsplit.trans (List.append_assoc ..).symm)
      rw [crlf_append, size_append, size_append] at hothers
      rw [halike.legal hlegal]
      exact counterpart_token hsplit (Scan.leading_text_ne_nil c t) hlegal hothers armed
    · -- an illegal token stops both passes where it starts
      obtain ⟨reason, hcls⟩ : ∃ reason, (Scan.leading c t).cls = .illegal reason := by
        simpa only [Scan.Legal, not_forall, not_not] using hlegal
      have hplace : SamePlace source (size before) (size before.crlf) :=
        ⟨before, c :: t, hsource, rfl, rfl⟩
      rw [halike.cls, hcls, overPieces, overPieces]
      exact counterpart_stopped ⟨rfl, hplace⟩

end Pass

namespace Location

/-- Carriage returns before line feeds change no location. -/
theorem after_crlf (before : Text) : after before.crlf = after before := by
  have hboth : before.crlf.count '\n' = before.count '\n' ∧
      lastLine before.crlf = lastLine before := by
    -- from the right, where a line feed starts a new last line
    induction before using List.reverseRecOn with
    | nil => exact ⟨rfl, rfl⟩
    | append_singleton before c ih =>
      obtain ⟨hcount, hlast⟩ := ih
      by_cases hfeed : c = '\n'
      · subst hfeed
        have hsplit : crlf (before ++ ['\n']) = (crlf before ++ ['\r']) ++ ['\n'] := by simp
        rw [hsplit, lastLine_concat_feed, lastLine_concat_feed]
        refine ⟨?_, rfl⟩
        simp only [List.count_append, hcount]
        rfl
      · rw [crlf_append, crlf_cons hfeed, crlf_nil, List.count_append, List.count_append, hcount,
          lastLine_concat hfeed, lastLine_concat hfeed, hlast]
        exact ⟨rfl, rfl⟩
  rw [after, after, hboth.1, hboth.2]

/-- A carriage return breaks no line. -/
theorem line_after_return (before : Text) :
    (after (before ++ ['\r'])).line = (after before).line := by
  simp [after]

end Location

variable {file file' : SourceFile}

/-- The same places have the same location. -/
theorem SamePlace.location?_eq {offset offset' : Nat}
    (h : SamePlace file.content offset offset') (hcontent : file'.content = file.content.crlf) :
    ∃ l, file.location? offset = some l ∧ file'.location? offset' = some l := by
  obtain ⟨before, after, hsource, rfl, rfl⟩ := h
  have hsource' : file'.content = before.crlf ++ after.crlf := by
    rw [hcontent, hsource, crlf_append]
  have hlocation := SourceFile.location?_size hsource'
  rw [Location.after_crlf] at hlocation
  exact ⟨_, SourceFile.location?_size hsource, hlocation⟩

/-- A line feed ends the same line with and without a carriage return before it. -/
theorem SameFeed.line_eq {offset offset' : Nat} (h : SameFeed file.content offset offset')
    (hcontent : file'.content = file.content.crlf) :
    ∃ l l', file.location? offset = some l ∧ file'.location? offset' = some l' ∧
      l'.line = l.line := by
  obtain ⟨before, after, hsource, rfl, rfl⟩ := h
  have hsource' : file'.content = (crlf before ++ ['\r']) ++ '\n' :: crlf after := by
    rw [hcontent, hsource, crlf_append, crlf_feed, List.append_assoc]
    rfl
  have hlocation := SourceFile.location?_size hsource'
  rw [size_append] at hlocation
  refine ⟨_, _, SourceFile.location?_size hsource, hlocation, ?_⟩
  rw [Location.line_after_return, Location.after_crlf]

/-- The second token is the first with carriage returns in its text. It starts at the same location,
or on the same line if it was inserted. -/
structure Token.SameWithReturns (file file' : SourceFile) (t t' : Token) : Prop where
  kind : t'.kind = t.kind
  text : t'.text = t.text.crlf
  isInserted : t'.isInserted = t.isInserted
  location : ∃ l l', file.location? t.start = some l ∧ file'.location? t'.start = some l' ∧
    l'.line = l.line ∧ (t.isInserted = false → l' = l)

/-- The second comment is the first with carriage returns in its text, at the same location. -/
structure Comment.SameWithReturns (file file' : SourceFile) (c c' : Comment) : Prop where
  form : c'.form = c.form
  text : c'.lexeme.text = c.lexeme.text.crlf
  location : ∃ l, file.location? c.lexeme.start = some l ∧
    file'.location? c'.lexeme.start = some l

/-- The counterpart of a comment is the comment with carriage returns, at the same location. -/
theorem Comment.Counterpart.sameWithReturns {c c' : Comment}
    (h : c.Counterpart file.content c') (hcontent : file'.content = file.content.crlf) :
    c.SameWithReturns file file' c' where
  form := h.form
  text := h.lexeme.text
  location := h.lexeme.place.location?_eq hcontent

/-- The counterpart of a token is the token with carriage returns, at the same location. That of an
inserted semicolon is on the same line, but stands behind the carriage return. -/
theorem Token.Counterpart.sameWithReturns {t t' : Token} (h : t.Counterpart file.content t')
    (hcontent : file'.content = file.content.crlf) : t.SameWithReturns file file' t' := by
  cases h with
  | @written cls l l' hwritten h =>
    obtain ⟨location, hlocation, hlocation'⟩ := h.place.location?_eq hcontent
    have hempty : l'.text.isEmpty = l.text.isEmpty := by
      rw [h.text]
      cases l.text with
      | nil => rfl
      | cons c text =>
        by_cases hfeed : c = '\n'
        · rw [hfeed]
          rfl
        · rw [crlf_cons hfeed]
          rfl
    refine ⟨rfl, h.text, ?_, location, location, hlocation, hlocation', rfl, fun _ => rfl⟩
    cases cls with
    | punctuation p => exact hempty
    | _ => rfl
  | inserted h =>
    obtain ⟨l, l', hl, hl', hline⟩ := h.line_eq hcontent
    exact ⟨rfl, rfl, rfl, l, l', hl, hl', hline, fun hwritten => nomatch hwritten⟩

namespace TokenStream

/-- **Streams do not depend on line endings.** A text without carriage returns has a stream if and
only if the same text with one before each line feed does. Then the tokens of the second stream are
those of the first, and so are the comments; otherwise the errors are the same. -/
theorem ofText_crlf (hreturn : '\r' ∉ file.content)
    (hcontent : file'.content = file.content.crlf) :
    ((∃ s, ofText file.content = .ok s) ↔ ∃ s', ofText file'.content = .ok s') ∧
      (∀ s s', ofText file.content = .ok s → ofText file'.content = .ok s' →
        List.Forall₂ (Token.SameWithReturns file file') s.tokens s'.tokens ∧
          List.Forall₂ (Comment.SameWithReturns file file') s.comments s'.comments) ∧
      ∀ e e', ofText file.content = .error e → ofText file'.content = .error e' →
        e'.reason = e.reason ∧ ∃ l, file.location? e.lexeme.start = some l ∧
          file'.location? e'.lexeme.start = some l := by
  have hpass : Pass.Counterpart file.content (passOver file.content) (passOver file'.content) := by
    have hsource : file.content = [] ++ file.content := rfl
    have hpieces := Pass.overPieces_crlf hreturn hsource false
    rw [← hcontent] at hpieces
    rw [passOver, passOver, Pass.through_eq_overPieces, Pass.through_eq_overPieces]
    exact hpieces
  unfold ofText
  obtain ⟨htokens, hcomments, herror⟩ := hpass
  generalize passOver file.content = pass at *
  generalize passOver file'.content = pass' at *
  obtain ⟨tokens, comments, error⟩ := pass
  obtain ⟨tokens', comments', error'⟩ := pass'
  cases herror with
  | none =>
    refine ⟨⟨fun _ => ⟨_, rfl⟩, fun _ => ⟨_, rfl⟩⟩, ?_, fun e e' h => nomatch h⟩
    intro s s' hs hs'
    obtain rfl := Except.ok.inj hs
    obtain rfl := Except.ok.inj hs'
    exact ⟨htokens.imp fun t t' h => h.sameWithReturns hcontent,
      hcomments.imp fun c c' h => h.sameWithReturns hcontent⟩
  | some he =>
    refine ⟨?_, ?_, ?_⟩
    · constructor
      · rintro ⟨s, h⟩
        exact nomatch h
      · rintro ⟨s', h⟩
        exact nomatch h
    · intro s s' h
      exact nomatch h
    · intro e e' h h'
      obtain rfl := Except.error.inj h
      obtain rfl := Except.error.inj h'
      exact ⟨he.reason, he.place.location?_eq hcontent⟩

/-- A semicolon inserted at the end of a line and a raw string over two lines, and a literal in
double quotes that a backslash at the end of the line does not keep open. -/
theorem ofText_crlf_rawString :
    List.Forall₂ (Token.SameWithReturns
        (.ofText "a" ['x', '\n', '\x60', '\n', '\x60'])
        (.ofText "b" ['x', '\r', '\n', '\x60', '\r', '\n', '\x60']))
      [⟨.identifier, 0, ['x']⟩, insertedSemicolon 1,
        ⟨.stringLiteral .raw, 2, ['\x60', '\n', '\x60']⟩, endOfFile 5]
      [⟨.identifier, 0, ['x']⟩, insertedSemicolon 2,
        ⟨.stringLiteral .raw, 3, ['\x60', '\r', '\n', '\x60']⟩, endOfFile 7] ∧
    ∃ e, ofText ['\r', '\n', '\x22', '\\', '\r', '\n'] = .error e ∧
      e.reason = .unterminated .string ∧
      (SourceFile.ofText "b" ['\r', '\n', '\x22', '\\', '\r', '\n']).location? e.lexeme.start =
        some ⟨2, 1⟩ := by
  constructor
  · have hfirst : ofText ['x', '\n', '\x60', '\n', '\x60'] =
        .ok ⟨[⟨.identifier, 0, ['x']⟩, insertedSemicolon 1,
          ⟨.stringLiteral .raw, 2, ['\x60', '\n', '\x60']⟩, endOfFile 5], []⟩ := by cbv
    have hsecond : ofText ['x', '\r', '\n', '\x60', '\r', '\n', '\x60'] =
        .ok ⟨[⟨.identifier, 0, ['x']⟩, insertedSemicolon 2,
          ⟨.stringLiteral .raw, 3, ['\x60', '\r', '\n', '\x60']⟩, endOfFile 7], []⟩ := by cbv
    obtain ⟨-, hok, -⟩ := @ofText_crlf
      (.ofText "a" ['x', '\n', '\x60', '\n', '\x60'])
      (.ofText "b" ['x', '\r', '\n', '\x60', '\r', '\n', '\x60']) (by decide) rfl
    exact (hok _ _ hfirst hsecond).1
  · have hfirst : ofText ['\n', '\x22', '\\', '\n'] =
        .error ⟨.unterminated .string, 1, ['\x22', '\\']⟩ := by cbv
    have hsecond : ofText ['\r', '\n', '\x22', '\\', '\r', '\n'] =
        .error ⟨.unterminated .string, 2, ['\x22', '\\', '\r']⟩ := by cbv
    obtain ⟨-, -, herror⟩ := @ofText_crlf (.ofText "a" ['\n', '\x22', '\\', '\n'])
      (.ofText "b" ['\r', '\n', '\x22', '\\', '\r', '\n']) (by decide) rfl
    obtain ⟨hreason, l, hl, hl'⟩ := herror _ _ hfirst hsecond
    have hlocation : (SourceFile.ofText "a" ['\n', '\x22', '\\', '\n']).location? 1 =
        some ⟨2, 1⟩ := by decide
    obtain rfl := Option.some.inj (hl.symm.trans hlocation)
    exact ⟨_, hsecond, hreason, hl'⟩

end TokenStream

end Frontend
