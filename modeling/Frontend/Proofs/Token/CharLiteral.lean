import Frontend.Proofs.Token.Escapes

/-!
# Character literals

A character literal is closed by the quote right behind its payload, which is one character or a
backslash and one character. A quote in place of the payload holds nothing and is taken along with
the opening one, and a quote behind the backslash is the payload and closes nothing. Wherever the
closing quote is missing, the literal is left open after what could have been the payload, so what
stands behind is read anew.
-/

namespace Frontend

namespace Quote

/-- A quote that closes a character literal, somewhere in the text after its opening quote: it
stands behind a payload. -/
structure ClosesChar (t payload rest : Text) : Prop where
  isPayload : IsPayload payload
  split : t = payload ++ '\x27' :: rest

/-- The first character of a text, if there is one on its first line. -/
def payloadChar (t : Text) : Text :=
  (t.take 1).filter (· ≠ '\n')

/-- As far as a character literal reaches behind its opening quote if nothing closes it. -/
def charReach : Text → Text
  | '\x27' :: _ => ['\x27']
  | '\\' :: t => '\\' :: payloadChar t
  | t => payloadChar t

/-- The empty text has no first character. -/
@[simp] theorem payloadChar_nil : payloadChar [] = [] := rfl

/-- A line feed does not belong to its line. -/
@[simp] theorem payloadChar_feed (t : Text) : payloadChar ('\n' :: t) = [] := rfl

/-- Any other character is on the first line. -/
theorem payloadChar_cons {c : Char} (h : c ≠ '\n') (t : Text) : payloadChar (c :: t) = [c] := by
  simp [payloadChar, h]

/-- A literal that starts with neither a quote nor a backslash reaches as far as its payload. -/
theorem charReach_cons {c : Char} (hquote : c ≠ '\x27') (hbackslash : c ≠ '\\') (t : Text) :
    charReach (c :: t) = payloadChar (c :: t) := by
  unfold charReach
  split
  · rename_i heq
    exact absurd (List.cons.inj heq).1 hquote
  · rename_i heq
    exact absurd (List.cons.inj heq).1 hbackslash
  · rfl

/-- Without a quote, the payload is all that is taken. -/
theorem closeChar_of_open {t : Text} (h : ∀ rest, t ≠ '\x27' :: rest) (payload : Text) :
    closeChar payload t = ⟨.illegal (.unterminated .char), payload, t⟩ := by
  unfold closeChar
  split
  · rename_i rest
    exact absurd rfl (h rest)
  · rfl

/-- A backslash and the character behind it are the payload of a literal. -/
theorem charBody_escape {c : Char} (h : c ≠ '\n') (t : Text) :
    charBody ('\\' :: c :: t) = closeChar ['\\', c] t := by
  rw [charBody, if_neg h]

/-- The quote behind a payload ends the literal. -/
theorem charBody_of_closesChar {t payload rest : Text} (h : ClosesChar t payload rest) :
    charBody t = ⟨.charLiteral, payload ++ ['\x27'], rest⟩ := by
  obtain ⟨hpayload, rfl⟩ := h
  exact charBody_of_isPayload hpayload rest

/-- A literal that no quote closes is left open as far as it reaches. -/
theorem charBody_of_open {t : Text} (h : ∀ payload rest, ¬ClosesChar t payload rest) :
    charBody t = ⟨.illegal (.unterminated .char), charReach t, t.drop (charReach t).length⟩ := by
  -- what could have been the payload is followed by no quote
  have hopen {payload more : Text} (hpayload : IsPayload payload) (hsplit : t = payload ++ more) :
      ∀ rest, more ≠ '\x27' :: rest := by
    rintro rest rfl
    exact h payload rest ⟨hpayload, hsplit⟩
  rcases t with _ | ⟨c, t⟩
  · rfl
  by_cases hquote : c = '\x27'
  · subst hquote
    rfl
  by_cases hbackslash : c = '\\'
  · subst hbackslash
    rcases t with _ | ⟨d, t⟩
    · rfl
    by_cases hfeed : d = '\n'
    · subst hfeed
      rfl
    · have hnone := hopen (.inl ⟨d, hfeed, rfl⟩) (rfl : _ = ['\\', d] ++ t)
      rw [charBody_escape hfeed, closeChar_of_open hnone, charReach, payloadChar_cons hfeed]
      rfl
  · by_cases hfeed : c = '\n'
    · subst hfeed
      rfl
    · have hnone := hopen (.inr ⟨c, hfeed, hbackslash, hquote, rfl⟩) (rfl : _ = [c] ++ t)
      rw [charBody_cons hfeed hquote hbackslash, closeChar_of_open hnone,
        charReach_cons hquote hbackslash, payloadChar_cons hfeed]
      rfl

end Quote

/-- **A character literal holds one character, escaped or not.** Behind an opening quote, the token
is a character literal just if a quote closes it, and then it is the payload in its quotes, and its
content is the payload. Otherwise the literal is left open: after two quotes in a row, or after the
backslash, if there is one, and the character behind it, if there is one on the line. -/
theorem Cursor.yields_charLiteral {c : Cursor} {t : Text} (h : c.rest = '\x27' :: t) :
    ((∃ l after, c.token = (.ok ⟨.charLiteral, l⟩, after)) ↔
      ∃ payload rest, Quote.ClosesChar t payload rest) ∧
    (∀ payload rest, Quote.ClosesChar t payload rest →
      c.Yields .charLiteral ('\x27' :: payload ++ ['\x27']) rest ∧
      ∀ l : Lexeme, l.text = '\x27' :: payload ++ ['\x27'] →
        l.unquoted = payload ∧ Text.Between l.text 1 (Text.size l.text - 1) l.unquoted) ∧
    ((¬∃ payload rest, Quote.ClosesChar t payload rest) →
      c.Yields (.illegal (.unterminated .char)) ('\x27' :: Quote.charReach t)
        (t.drop (Quote.charReach t).length)) := by
  have hyields := Cursor.yields_of_leading h (Scan.leading_char t)
  have hclosed {payload rest : Text} (hcloses : Quote.ClosesChar t payload rest) :
      c.Yields .charLiteral ('\x27' :: payload ++ ['\x27']) rest := by
    rw [Quote.charBody_of_closesChar hcloses] at hyields
    exact hyields
  have hleft (hopen : ¬∃ payload rest, Quote.ClosesChar t payload rest) :
      c.Yields (.illegal (.unterminated .char)) ('\x27' :: Quote.charReach t)
        (t.drop (Quote.charReach t).length) := by
    rw [Quote.charBody_of_open fun payload rest hcloses => hopen ⟨payload, rest, hcloses⟩]
      at hyields
    exact hyields
  refine ⟨⟨?_, ?_⟩, ?_, hleft⟩
  · rintro ⟨l, after, htoken⟩
    by_contra hopen
    obtain ⟨after', hillegal, -⟩ := hleft hopen
    exact nomatch htoken.symm.trans hillegal
  · rintro ⟨payload, rest, hcloses⟩
    obtain ⟨after, htoken, -⟩ := hclosed hcloses
    exact ⟨_, after, htoken⟩
  · intro payload rest hcloses
    refine ⟨hclosed hcloses, ?_⟩
    rintro ⟨start, text⟩ rfl
    exact Lexeme.unquoted_quoted start rfl payload

/-- An escaped quote is a payload like any other. Two quotes in a row hold nothing, whatever comes
behind them. A line feed is no payload, also not behind a backslash, and of two characters only the
first is taken. -/
theorem Cursor.yields_charLiteral_quotes :
    ((ofText ['\x27', '\\', '\x27', '\x27', 'x']).Yields .charLiteral
        ['\x27', '\\', '\x27', '\x27'] ['x'] ∧
      (⟨0, ['\x27', '\\', '\x27', '\x27']⟩ : Lexeme).unquoted = ['\\', '\x27']) ∧
    (ofText ['\x27', '\x27', '\x27']).Yields (.illegal (.unterminated .char)) ['\x27', '\x27']
      ['\x27'] ∧
    (ofText ['\x27', '\\', '\n', '\x27']).Yields (.illegal (.unterminated .char)) ['\x27', '\\']
      ['\n', '\x27'] ∧
    (ofText ['\x27', 'é', 'b', '\x27']).Yields (.illegal (.unterminated .char)) ['\x27', 'é']
      ['b', '\x27'] := by
  refine ⟨?_, ?_, ?_, ?_⟩
  · have hcloses : Quote.ClosesChar ['\\', '\x27', '\x27', 'x'] ['\\', '\x27'] ['x'] :=
      ⟨.inl ⟨'\x27', by decide, rfl⟩, rfl⟩
    obtain ⟨hyields, hcontent⟩ := (@yields_charLiteral (ofText _) _ rfl).2.1 _ _ hcloses
    exact ⟨hyields, (hcontent _ rfl).1⟩
  · have hopen : ¬∃ payload rest, Quote.ClosesChar ['\x27', '\x27'] payload rest := by
      rintro ⟨payload, rest, ⟨c, -, rfl⟩ | ⟨c, -, -, hquote, rfl⟩, hsplit⟩
      · simp at hsplit
      · exact hquote (List.cons.inj hsplit).1.symm
    exact (@yields_charLiteral (ofText _) _ rfl).2.2 hopen
  · have hopen : ¬∃ payload rest, Quote.ClosesChar ['\\', '\n', '\x27'] payload rest := by
      rintro ⟨payload, rest, ⟨c, hfeed, rfl⟩ | ⟨c, -, -, -, rfl⟩, hsplit⟩
      · simp only [List.cons_append, List.cons.injEq] at hsplit
        exact hfeed hsplit.2.1.symm
      · simp at hsplit
    exact (@yields_charLiteral (ofText _) _ rfl).2.2 hopen
  · have hopen : ¬∃ payload rest, Quote.ClosesChar ['é', 'b', '\x27'] payload rest := by
      rintro ⟨payload, rest, ⟨c, -, rfl⟩ | ⟨c, -, -, -, rfl⟩, hsplit⟩
      · simp at hsplit
      · simp at hsplit
    exact (@yields_charLiteral (ofText _) _ rfl).2.2 hopen

end Frontend
