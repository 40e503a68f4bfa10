import Frontend.Proofs.Token.Reading
import Frontend.Proofs.Token.Rereading

/-!
# Words and operators are read as far as they go

A word ends with the last character in a row that words go on with, so a keyword is never cut out of
a longer word. An operator or delimiter is the first entry of a table that fits, and no entry goes
on with what an earlier one says, so the first that fits is the longest.
-/

namespace Frontend

/-- A character that words go on with. -/
def InWord (c : Char) : Prop :=
  c = '_' ∨ Unicode.isLetter c = true ∨ Unicode.isDecimalDigit c = true

/-- The longest beginning of a text whose characters words go on with, and what is left. -/
structure LongestWord (t run rest : Text) : Prop where
  split : t = run ++ rest
  inWord : ∀ x ∈ run, InWord x
  ends : ∀ x, rest.head? = some x → ¬InWord x

/-- The operator or delimiter is the longest of those that a text starts with. -/
def Punctuation.Longest (p : Punctuation) (t : Text) : Prop :=
  p.text <+: t ∧ ∀ q : Punctuation, q.text <+: t → q ≠ p → q.text.length < p.text.length

/-- Words start with an underscore or a letter. -/
theorem isWordStart_iff {c : Char} :
    isWordStart c = true ↔ c = '_' ∨ Unicode.isLetter c = true := by
  simp [isWordStart]

/-- What the scanner takes for a part of a word is what words go on with. -/
theorem isWordPart_iff {c : Char} : isWordPart c = true ↔ InWord c := by
  simp [isWordPart, isWordStart, InWord, or_assoc]

/-- A text has only one longest word. -/
theorem LongestWord.run_eq {t run rest : Text} (h : LongestWord t run rest) :
    Taken.run isWordPart t = ⟨run, rest⟩ := by
  obtain ⟨rfl, hin, hends⟩ := h
  apply Taken.run_append
  · exact fun x hx => isWordPart_iff.mpr (hin x hx)
  · cases rest with
    | nil => rfl
    | cons x rest => exact Bool.eq_false_iff.mpr fun hx => hends x rfl (isWordPart_iff.mp hx)

/-- A run of what words go on with is the longest word. -/
theorem longestWord_run (t : Text) :
    LongestWord t (Taken.run isWordPart t).text (Taken.run isWordPart t).rest where
  split := (Taken.text_append_rest_run isWordPart t).symm
  inWord := by
    intro x hx
    exact isWordPart_iff.mp (List.all_eq_true.mp List.all_takeWhile x hx)
  ends := by
    intro x hx hin
    have hhead := List.head?_dropWhile_not isWordPart t
    rw [show (t.dropWhile isWordPart).head? = some x from hx] at hhead
    simp [isWordPart_iff.mpr hin] at hhead

/-- Of two operators or delimiters that are the longest, neither is longer. -/
theorem Punctuation.Longest.unique {p q : Punctuation} {t : Text} (hp : p.Longest t)
    (hq : q.Longest t) : p = q := by
  refine Decidable.byContradiction fun hne => ?_
  have hlt := hp.2 q hq.1 (Ne.symm hne)
  have hgt := hq.2 p hp.1 hne
  omega

namespace Scan

/-- An entry for a character that fits a text is no longer than the first one that does. -/
theorem length_lt_of_find? {c : Char} {t : Text} {first other : Text × Punctuation}
    (h : (Punctuation.continuations c).find? (fun entry => entry.1.isPrefixOf t) = some first)
    (hmem : other ∈ Punctuation.continuations c) (hfits : other.1 <+: t) (hne : other ≠ first) :
    other.1.length < first.1.length := by
  obtain ⟨hfirst, before, after, hlist, hbefore⟩ := List.find?_eq_some_iff_append.mp h
  have hfirst' : first.1 <+: t := List.isPrefixOf_iff_prefix.mp hfirst
  -- the entry stands behind the first one that fits, so it does not go on with that
  have hafter : other ∈ after := by
    rw [hlist] at hmem
    rcases List.mem_append.mp hmem with hmem | hmem
    · have hnot := hbefore other hmem
      rw [List.isPrefixOf_iff_prefix.mpr hfits] at hnot
      exact nomatch hnot
    · exact (List.mem_cons.mp hmem).resolve_left hne
  have hlater : ¬first.1 <+: other.1 := by
    have hpairwise := Punctuation.pairwise_continuations c
    rw [hlist] at hpairwise
    exact (List.pairwise_cons.mp (List.pairwise_append.mp hpairwise).2.1).1 other hafter
  rcases Nat.lt_or_ge other.1.length first.1.length with hlt | hle
  · exact hlt
  · exact absurd (List.prefix_of_prefix_length_le hfirst' hfits hle) hlater

/-- An operator or delimiter that a text starts with is found by its first character. -/
theorem exists_continuation {c : Char} {t : Text} {p : Punctuation} (h : p.text <+: c :: t) :
    ∃ rest, p.text = c :: rest ∧ rest <+: t ∧ (rest, p) ∈ Punctuation.continuations c := by
  obtain ⟨d, rest, htext⟩ := List.exists_cons_of_ne_nil p.text_ne_nil
  rw [htext] at h
  obtain ⟨rfl, hrest⟩ := List.cons_prefix_cons.mp h
  exact ⟨rest, htext, hrest, Punctuation.mem_continuations_iff.mpr htext⟩

/-- The first entry for a character that fits a text is the longest operator or delimiter. -/
theorem longest_of_find? {c : Char} {t rest : Text} {p : Punctuation}
    (h : (Punctuation.continuations c).find? (fun entry => entry.1.isPrefixOf t) = some (rest, p)) :
    p.text = c :: rest ∧ p.Longest (c :: t) := by
  have htext : p.text = c :: rest :=
    Punctuation.mem_continuations_iff.mp (List.mem_of_find?_eq_some h)
  have hfits : rest <+: t := by simpa using List.find?_some h
  refine ⟨htext, by rw [htext]; exact List.cons_prefix_cons.mpr ⟨rfl, hfits⟩, ?_⟩
  intro q hq hne
  obtain ⟨other, hother, hprefix, hmem⟩ := exists_continuation hq
  have hlt := length_lt_of_find? h hmem hprefix fun heq => hne (congrArg Prod.snd heq)
  rw [htext, hother]
  simpa using hlt

/-- What only the rule for operators and delimiters reads is the longest of them that it starts
with, or a character that none of them starts with. -/
theorem operator_cases (c : Char) (t : Text) :
    (∃ p rest, p.Longest (c :: t) ∧ c :: t = p.text ++ rest ∧
      operator c t = ⟨.punctuation p, p.text, rest⟩) ∨
    (∀ p : Punctuation, ¬p.text <+: c :: t) ∧
      operator c t = ⟨.illegal (.unexpected c), [c], t⟩ := by
  cases hfind : (Punctuation.continuations c).find? (fun entry => entry.1.isPrefixOf t) with
  | some entry =>
    obtain ⟨rest, p⟩ := entry
    obtain ⟨htext, hlongest⟩ := longest_of_find? hfind
    have hread : operator c t = ⟨.punctuation p, p.text, t.drop rest.length⟩ := by
      rw [operator, hfind, htext]
    refine .inl ⟨p, t.drop rest.length, hlongest, ?_, hread⟩
    have happend := operator_of c t
    rw [hread] at happend
    exact happend.symm
  | none =>
    refine .inr ⟨?_, by rw [operator, hfind]⟩
    intro p hp
    obtain ⟨rest, -, hrest, hmem⟩ := exists_continuation hp
    exact List.find?_eq_none.mp hfind _ hmem (by simpa using hrest)

end Scan

namespace Cursor

variable {c : Cursor} {x : Char} {t : Text}

/-- A word is a keyword if it is spelled like one, and an identifier otherwise. -/
theorem yields_word (h : c.rest = x :: t) (hstart : isWordStart x = true) :
    ∃ run rest, LongestWord c.rest run rest ∧ c.Yields (Scan.wordClass run) run rest := by
  have hyields := yields_of_leading h (Scan.leading_word hstart t)
  rw [← h] at hyields
  exact ⟨_, _, longestWord_run c.rest, hyields⟩

/-- **Words and operators are read as far as they go.** In front of a letter or an underscore the
cursor yields the longest word: the only keyword that is spelled like it, or an identifier if there
is none. In front of any other character that starts no number, quote or comment it yields the
longest operator or delimiter that is left, or the character alone if there is none. -/
theorem yields_longest (h : c.rest = x :: t) :
    (x = '_' ∨ Unicode.isLetter x = true →
      ∃ run rest, LongestWord c.rest run rest ∧
        ((∃ k : Keyword, k.text = run ∧ (∀ k' : Keyword, k'.text = run → k' = k) ∧
            c.Yields (.keyword k) run rest) ∨
          (∀ k : Keyword, k.text ≠ run) ∧ c.Yields .identifier run rest)) ∧
    (¬(x = '_' ∨ Unicode.isLetter x = true) → x.isDigit = false → x ∉ ['\x27', '\x22', '\x60'] →
      ¬['/', '/'] <+: c.rest → ¬['/', '*'] <+: c.rest →
      (∀ d : Char, d.isDigit = true → ¬['.', d] <+: c.rest) →
        (∃ (p : Punctuation) (rest : Text), p.Longest c.rest ∧ c.rest = p.text ++ rest ∧
          c.Yields (.punctuation p) p.text rest) ∨
        (∀ p : Punctuation, ¬p.text <+: c.rest) ∧ c.Yields (.illegal (.unexpected x)) [x] t) := by
  constructor
  · intro hstart
    obtain ⟨run, rest, hlongest, hyields⟩ := yields_word h (isWordStart_iff.mpr hstart)
    refine ⟨run, rest, hlongest, ?_⟩
    cases hword : Keyword.ofText? run with
    | some k =>
      have htext := Keyword.ofText?_eq_some_iff.mp hword
      rw [Scan.wordClass, hword] at hyields
      exact .inl ⟨k, htext, fun k' hk' => Keyword.text_injective (hk'.trans htext.symm), hyields⟩
    | none =>
      rw [Scan.wordClass, hword] at hyields
      exact .inr ⟨Keyword.ofText?_eq_none_iff.mp hword, hyields⟩
  · intro hword hdigit hquote hline hdelimited hpoint
    rw [h] at hline hdelimited hpoint ⊢
    simp only [List.mem_cons, List.not_mem_nil, or_false, not_or] at hquote
    have hsecond {d : Char} (hhead : t.head? = some d) : [x, d] <+: x :: t := by
      obtain ⟨rest, rfl⟩ := List.head?_eq_some_iff.mp hhead
      exact ⟨rest, rfl⟩
    have honly : Scan.OnlyOperator x t := by
      have hstart : isWordStart x = false :=
        Bool.eq_false_iff.mpr fun h => hword (isWordStart_iff.mp h)
      refine ⟨hstart, hdigit, ?_, hquote.1, ?_, ?_⟩
      · rintro rfl
        cases hhead : t.head? with
        | none => rfl
        | some d => exact Bool.eq_false_iff.mpr fun hd => hpoint d hd (hsecond hhead)
      · intro form
        cases form
        · exact hquote.2.1
        · exact hquote.2.2
      · rintro rfl
        exact ⟨fun hhead => hline (hsecond hhead), fun hhead => hdelimited (hsecond hhead)⟩
    have hyields := yields_of_leading h (Scan.leading_operator honly)
    rcases Scan.operator_cases x t with ⟨p, rest, hlongest, hsplit, hread⟩ | ⟨hnone, hread⟩
    · rw [hread] at hyields
      exact .inl ⟨p, rest, hlongest, hsplit, hyields⟩
    · rw [hread] at hyields
      exact .inr ⟨hnone, hyields⟩

/-- A word that goes on behind a keyword, with a letter and a digit outside ASCII; two points that
are no ellipsis, in front of a digit; an operator of three characters in front of one that could be
a fourth; and a character that starts nothing. -/
theorem yields_longest_keyword :
    (ofText ['g', 'o', 'é', '٣', '(']).Yields .identifier ['g', 'o', 'é', '٣'] ['('] ∧
    (ofText ['g', 'o', '-', '>']).Yields (.keyword .kwGo) ['g', 'o'] ['-', '>'] ∧
    (ofText ['&', '^', '=', '=']).Yields (.punctuation .andNotAssign) ['&', '^', '='] ['='] ∧
    (ofText ['.', '.', '5']).Yields (.punctuation .period) ['.'] ['.', '5'] ∧
    (ofText ['²', '=']).Yields (.illegal (.unexpected '²')) ['²'] ['='] := by
  refine ⟨?_, ?_, ?_, ?_, ?_⟩
  · obtain ⟨run, rest, hlongest, hyields⟩ :=
      (yields_longest (c := ofText ['g', 'o', 'é', '٣', '(']) rfl).1 (by decide)
    have hrun : Taken.run isWordPart ['g', 'o', 'é', '٣', '('] = ⟨['g', 'o', 'é', '٣'], ['(']⟩ := by
      decide +kernel
    obtain ⟨rfl, rfl⟩ := Taken.mk.inj (hrun.symm.trans hlongest.run_eq)
    rcases hyields with ⟨k, hk, -⟩ | ⟨-, hyields⟩
    · cases k <;> exact nomatch hk
    · exact hyields
  · obtain ⟨run, rest, hlongest, hyields⟩ :=
      (yields_longest (c := ofText ['g', 'o', '-', '>']) rfl).1 (by decide)
    have hrun : Taken.run isWordPart ['g', 'o', '-', '>'] = ⟨['g', 'o'], ['-', '>']⟩ := by decide
    obtain ⟨rfl, rfl⟩ := Taken.mk.inj (hrun.symm.trans hlongest.run_eq)
    rcases hyields with ⟨k, -, hunique, hyields⟩ | ⟨hnone, -⟩
    · obtain rfl := hunique .kwGo rfl
      exact hyields
    · exact absurd rfl (hnone .kwGo)
  · have hlongest : Punctuation.andNotAssign.Longest ['&', '^', '=', '='] :=
      ⟨by decide, fun q => by cases q <;> decide⟩
    rcases (yields_longest (c := ofText ['&', '^', '=', '=']) rfl).2 (by decide) (by decide)
      (by decide) (by decide) (by decide) (fun d _ => by simp [ofText]) with
        ⟨q, rest, hq, hsplit, hyields⟩ | ⟨hnone, -⟩
    · obtain rfl := hlongest.unique hq
      have hsplit' : ['&', '^', '='] ++ ['='] = ['&', '^', '='] ++ rest := hsplit
      obtain rfl := List.append_cancel_left hsplit'
      exact hyields
    · exact absurd hlongest.1 (hnone _)
  · have hlongest : Punctuation.period.Longest ['.', '.', '5'] :=
      ⟨by decide, fun q => by cases q <;> decide⟩
    have hpoint : ∀ d : Char, d.isDigit = true → ¬['.', d] <+: ['.', '.', '5'] := by
      intro d hd hprefix
      obtain rfl : d = '.' := by simpa using hprefix
      exact nomatch hd
    rcases (yields_longest (c := ofText ['.', '.', '5']) rfl).2 (by decide) (by decide)
      (by decide) (by decide) (by decide) hpoint with ⟨q, rest, hq, hsplit, hyields⟩ | ⟨hnone, -⟩
    · obtain rfl := hlongest.unique hq
      have hsplit' : ['.'] ++ ['.', '5'] = ['.'] ++ rest := hsplit
      obtain rfl := List.append_cancel_left hsplit'
      exact hyields
    · exact absurd hlongest.1 (hnone _)
  · have hnone : ∀ p : Punctuation, ¬p.text <+: ['²', '='] := fun p => by cases p <;> decide
    rcases (yields_longest (c := ofText ['²', '=']) rfl).2 (by decide +kernel) (by decide)
      (by decide) (by decide) (by decide) (fun d _ => by simp [ofText]) with
        ⟨q, rest, hq, -⟩ | ⟨-, hyields⟩
    · exact absurd hq.1 (hnone q)
    · exact hyields

end Cursor

end Frontend
