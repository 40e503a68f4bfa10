import Frontend.Proofs.Stream.Pieces
import Frontend.Proofs.Token.Rereading

/-!
# Texts that are cut the same way everywhere

A text spells pieces if it is cut into them whatever follows it. Such texts compose: what two of
them spell in a row is what they spell apart. A legal text that ends with a line feed is one, and so
is every string literal and every token with a gap behind it.
-/

namespace Frontend

/-- The text is cut into the pieces, whatever follows it. -/
def Spells (t : Text) (ps : List Piece) : Prop :=
  ∀ rest, pieces (t ++ rest) = ps ++ pieces rest

namespace Spells

/-- The empty text spells no pieces. -/
theorem nil : Spells [] [] :=
  fun _ => rfl

/-- Two texts in a row spell the pieces of both. -/
theorem append {t u : Text} {ps qs : List Piece} (ht : Spells t ps) (hu : Spells u qs) :
    Spells (t ++ u) (ps ++ qs) := by
  intro rest
  rw [List.append_assoc, ht, hu, List.append_assoc]

/-- A gap spells itself. -/
theorem gap {c : Char} (hc : isGap c = true) : Spells [c] [.gap c] :=
  fun rest => pieces_gap hc rest

/-- A text is cut into what it spells. -/
theorem pieces_eq {t : Text} {ps : List Piece} (h : Spells t ps) : pieces t = ps := by
  have hend := h []
  rwa [List.append_nil, pieces_nil, List.append_nil] at hend

/-- What a text spells has its size. -/
theorem size_eq {t : Text} {ps : List Piece} (h : Spells t ps) :
    Text.size (ps.flatMap Piece.text) = Text.size t := by
  rw [← h.pieces_eq, flatMap_text_pieces]

end Spells

/-- The text is read as one token of the class where a gap or the end of the text follows. -/
def Freestanding (cls : TokenClass) (text : Text) : Prop :=
  ∀ rest : Text, rest.head?.all isGap = true →
    pieces (text ++ rest) = .token cls text :: pieces rest

/-- A token with a gap behind it can stand anywhere. -/
theorem Freestanding.spells {cls : TokenClass} {text : Text} (h : Freestanding cls text) {c : Char}
    (hc : isGap c = true) : Spells (text ++ [c]) [.token cls text, .gap c] := by
  intro rest
  have hread := h (c :: rest) (by simpa using hc)
  rw [List.append_assoc, List.singleton_append, hread, pieces_gap hc]
  rfl

/-- A delimiter that is no part of a longer spelling can stand anywhere. -/
theorem Spells.delimiter {c : Char} {p : Punctuation} (hgap : isGap c = false)
    (hstart : isWordStart c = false ∧ c.isDigit = false)
    (hmarks : c ∉ ['.', '\x27', '\x22', '\x60', '/'])
    (halone : Punctuation.continuations c = [([], p)]) :
    Spells [c] [.token (.punctuation p) [c]] := by
  intro rest
  have hmark (d : Char) (hd : d ∈ ['.', '\x27', '\x22', '\x60', '/']) : c ≠ d := by
    rintro rfl
    exact hmarks hd
  have honly : Scan.OnlyOperator c rest :=
    ⟨hstart.1, hstart.2, fun hc => absurd hc (hmark _ (by decide)), hmark _ (by decide),
      fun form => hmark _ (by cases form <;> decide), fun hc => absurd hc (hmark _ (by decide))⟩
  have hread : Scan.operator c rest = ⟨.punctuation p, [c], rest⟩ := by
    rw [Scan.operator, halone]
    rfl
  rw [List.singleton_append, pieces_token hgap, Scan.leading_operator honly, hread]
  rfl

/-- A semicolon can stand anywhere. -/
theorem Spells.semicolon : Spells [';'] [.token (.punctuation .semicolon) [';']] :=
  .delimiter (by decide) (by decide) (by decide) rfl

/-- An opening parenthesis can stand anywhere. -/
theorem Spells.leftParen : Spells ['('] [.token (.punctuation .leftParen) ['(']] :=
  .delimiter (by decide) (by decide) (by decide) rfl

/-- A closing parenthesis can stand anywhere. -/
theorem Spells.rightParen : Spells [')'] [.token (.punctuation .rightParen) [')']] :=
  .delimiter (by decide) (by decide) (by decide) rfl

/-- A token among the pieces of a text is the leading token of what is left of it somewhere. -/
theorem exists_leading_of_mem_pieces {t : Text} {cls : TokenClass} {text : Text}
    (h : .token cls text ∈ pieces t) :
    ∃ c u, isGap c = false ∧ (Scan.leading c u).cls = cls ∧ (Scan.leading c u).text = text := by
  fun_induction pieces t with
  | case1 => exact absurd h List.not_mem_nil
  | case2 c t hgap ih =>
    rcases List.mem_cons.mp h with heq | hrest
    · cases heq
    · exact ih hrest
  | case3 c t hgap ih =>
    rcases List.mem_cons.mp h with heq | hrest
    · obtain ⟨hcls, htext⟩ := Piece.token.inj heq
      exact ⟨c, t, by simpa using hgap, hcls.symm, htext.symm⟩
    · exact ih hrest

/-- A token of a text is read again where nothing follows that goes on further. -/
theorem pieces_leading_again {c : Char} (hc : isGap c = false) {t new : Text}
    (hlegal : (Scan.leading c t).Legal) (hnew : NoFurther new (Scan.leading c t).rest)
    (hline : (Scan.leading c t).cls = .comment .line →
      Comments.EndsLine (Scan.leading c t).text new) :
    pieces ((Scan.leading c t).text ++ new) =
      .token (Scan.leading c t).cls (Scan.leading c t).text :: pieces new := by
  obtain ⟨w, htext, -⟩ := Text.exists_tail (Scan.leading_of c t) (Scan.leading_text_ne_nil c t)
  rw [htext] at hline
  have hagain := Scan.leading_again htext hlegal hnew hline
  rw [htext, List.cons_append, pieces_token hc, hagain]

/-- Whatever a stream lists of a text is read again where a gap or the end of the text follows. -/
theorem freestanding_of_mem_pieces {t : Text} {cls : TokenClass} {text : Text}
    (h : .token cls text ∈ pieces t) (hlisted : cls.isListed = true) : Freestanding cls text := by
  obtain ⟨c, u, hc, rfl, rfl⟩ := exists_leading_of_mem_pieces h
  have hlegal : (Scan.leading c u).Legal := by
    intro reason hcls
    rw [hcls] at hlisted
    exact nomatch hlisted
  have hcomment : (Scan.leading c u).cls ≠ .comment .line := by
    intro hcls
    rw [hcls] at hlisted
    exact nomatch hlisted
  intro rest hrest
  have hnew : NoFurther rest (Scan.leading c u).rest := by
    cases rest with
    | nil => exact .nil _
    | cons x rest => exact .of_gap (by simpa using hrest) _ _
  exact pieces_leading_again hc hlegal hnew fun hcls => absurd hcls hcomment

/-- A string literal of a text can stand anywhere. -/
theorem spells_of_mem_pieces {t : Text} {form : StringForm} {text : Text}
    (h : .token (.stringLiteral form) text ∈ pieces t) :
    Spells text [.token (.stringLiteral form) text] := by
  obtain ⟨c, u, hc, hcls, rfl⟩ := exists_leading_of_mem_pieces h
  obtain ⟨w, htext, -⟩ := Text.exists_tail (Scan.leading_of c u) (Scan.leading_text_ne_nil c u)
  intro rest
  have hagain := Scan.leading_again_string hcls htext rest
  rw [htext, List.cons_append, pieces_token hc, hagain]
  rfl

/-- A word is read again where a gap or the end of the text follows. -/
theorem freestanding_word {c : Char} {w : Text} (hstart : isWordStart c = true)
    (hpart : w.all isWordPart = true) : Freestanding (Scan.wordClass (c :: w)) (c :: w) := by
  have hall : ∀ x ∈ c :: w, isWordPart x = true := by
    intro x hx
    rcases List.mem_cons.mp hx with rfl | hx
    · simp [isWordPart, hstart]
    · exact List.all_eq_true.mp hpart x hx
  have hword := Scan.word_eq_self hall
  have hgap : isGap c = false := by
    refine Scan.stable_word.solid (c :: w) c ?_
    rw [hword]
    exact List.mem_cons_self
  have hpieces : .token (Scan.wordClass (c :: w)) (c :: w) ∈ pieces (c :: w) := by
    rw [pieces_token hgap, Scan.leading_word hstart, hword]
    exact List.mem_cons_self
  refine freestanding_of_mem_pieces hpieces ?_
  unfold Scan.wordClass
  split <;> rfl

/-- Pieces that do not end a pass. -/
def Piece.Legal : Piece → Prop
  | gap _ => True
  | token cls _ => ∀ reason, cls ≠ .illegal reason

/-- A legal token of a text does not end with a line feed. -/
theorem getLast?_text_of_mem_pieces {t : Text} {cls : TokenClass} {text : Text}
    (h : .token cls text ∈ pieces t) (hlegal : (Piece.token cls text).Legal) :
    text.getLast? ≠ some '\n' := by
  obtain ⟨c, u, hc, rfl, rfl⟩ := exists_leading_of_mem_pieces h
  exact Scan.getLast?_text_leading_ne hc hlegal

/-- A legal text that ends with a line feed is cut the same way whatever follows it: no token of it
ends with the line feed, and none goes on past it. -/
theorem spells_of_legal {t : Text} (hends : t = [] ∨ t.getLast? = some '\n')
    (hlegal : ∀ p ∈ pieces t, p.Legal) : Spells t (pieces t) := by
  fun_induction pieces t with
  | case1 => exact .nil
  | case2 c t hgap ih =>
    have htail : t = [] ∨ t.getLast? = some '\n' := by
      cases t with
      | nil => exact .inl rfl
      | cons x t => simpa using hends
    have hrest := ih htail fun p hp => hlegal p (List.mem_cons_of_mem _ hp)
    exact (Spells.gap hgap).append hrest
  | case3 c t hgap ih =>
    have hc : isGap c = false := by simpa using hgap
    have happend : (Scan.leading c t).text ++ (Scan.leading c t).rest = c :: t :=
      Scan.leading_of c t
    have hscan : (Scan.leading c t).Legal := hlegal _ List.mem_cons_self
    -- the line feed is left over, since it is not the end of the token
    have hlast : (Scan.leading c t).rest.getLast? = some '\n' := by
      have hlast : (c :: t).getLast? = some '\n' := by simpa using hends
      rw [← happend, List.getLast?_append] at hlast
      cases hrest : (Scan.leading c t).rest.getLast? with
      | none =>
        rw [hrest, Option.none_or] at hlast
        exact absurd hlast (Scan.getLast?_text_leading_ne hc hscan)
      | some x => rwa [hrest, Option.some_or] at hlast
    have hrest := ih (.inr hlast) fun p hp => hlegal p (List.mem_cons_of_mem _ hp)
    obtain ⟨front, hfront⟩ : ∃ front, (Scan.leading c t).rest = front ++ ['\n'] :=
      List.getLast?_eq_some_iff.mp hlast
    intro more
    have hnew : NoFurther ((Scan.leading c t).rest ++ more) (Scan.leading c t).rest := by
      rw [hfront]
      exact NoFurther.append_right (by rfl) front [] more
    have hline : (Scan.leading c t).cls = .comment .line →
        Comments.EndsLine (Scan.leading c t).text ((Scan.leading c t).rest ++ more) := by
      intro hcls
      refine (Scan.endsLine_leading hcls).append ?_ more
      simp [hfront]
    have hagain := pieces_leading_again hc hscan hnew hline
    rw [← List.append_assoc, happend] at hagain
    rw [hagain, hrest more]
    rfl

end Frontend
