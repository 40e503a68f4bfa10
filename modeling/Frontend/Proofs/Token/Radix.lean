import Frontend.Proofs.Token.Numbers

/-!
# The radix of a number

The radix of an integer is not recorded when it is scanned, but read off its text. A radix mark
tells it. Without one, an integer is digits and underscores, and the leading zero of an octal one is
followed by another digit, and by none that the radix does not have.
-/

namespace Frontend

namespace Number

/-- The digits of a radix that integers are written in. -/
def digitsOf : Nat → Text
  | 2 => binaryDigits
  | 8 => octalDigits
  | 10 => decimalDigits
  | 16 => hexadecimalDigits
  | _ => []

/-- The text behind the radix mark, if there is one, and all of it otherwise. -/
def unmarked (text : Text) : Text :=
  if Marked text then text.drop 2 else text

/-- The radix is that of a literal with the form and the text. -/
structure WrittenIn (radix : Nat) (form : NumericForm) (text : Text) : Prop where
  notInt : form ≠ .int → radix = 10
  binary : form = .int → ['0', 'b'] <+: text ∨ ['0', 'B'] <+: text → radix = 2
  octal : form = .int → ['0', 'o'] <+: text ∨ ['0', 'O'] <+: text → radix = 8
  hexadecimal : form = .int → ['0', 'x'] <+: text ∨ ['0', 'X'] <+: text → radix = 16
  /-- Without a mark, a leading zero makes an integer octal if there is another digit, and neither
  an eight nor a nine. -/
  unmarked : form = .int → ¬Marked text →
    radix = if ['0'] <+: text ∧ 2 ≤ text.countP (· ∈ decimalDigits) ∧ '8' ∉ text ∧ '9' ∉ text
      then 8 else 10
  /-- An integer consists of underscores and digits of its radix, of which there is one at least. -/
  digits : form = .int → (∀ c ∈ Number.unmarked text, c = '_' ∨ c ∈ digitsOf radix) ∧
    ∃ c ∈ Number.unmarked text, c ∈ digitsOf radix

variable {mark c : Char} {ds text t : Text} {form : NumericForm} {d : Decimal}

/-! ## Behind a radix mark -/

/-- Behind a leading zero stands one mark at most. -/
theorem prefix_mark_iff {m : Char} : ['0', m] <+: '0' :: mark :: t ↔ m = mark := by
  simp [List.cons_prefix_cons]

/-- The digits of the radix that a mark stands for are those it is listed with. -/
theorem digitsOf_eq {r : Nat} (h : (mark, ds) ∈ marks) (hr : radixOfMark? mark = some r) :
    digitsOf r = ds := by
  have hall : ∀ row ∈ marks, (radixOfMark? row.1).map digitsOf = some row.2 := by decide
  have hrow := hall _ h
  rw [hr] at hrow
  exact Option.some.inj hrow

/-- An integer with a radix mark has the radix of the mark. -/
theorem writtenIn_marked (hmem : (mark, ds) ∈ marks) (run : Run ds) (hdigit : run.HasDigit) :
    WrittenIn (radix .int ('0' :: mark :: run.text)) .int ('0' :: mark :: run.text) := by
  have hmarked : Marked ('0' :: mark :: run.text) := ⟨_, hmem, run.text, rfl⟩
  obtain ⟨r, hr, -⟩ := exists_radix hmem
  have hradix : radix .int ('0' :: mark :: run.text) = r := by
    simp only [radix, List.head?_cons, Option.bind_some, hr]
  have hof {m : Char} {r' : Nat} (h : ['0', m] <+: '0' :: mark :: run.text)
      (hm : radixOfMark? m = some r') : r = r' := by
    obtain rfl := prefix_mark_iff.mp h
    exact Option.some.inj (hr.symm.trans hm)
  rw [hradix]
  refine ⟨fun h => absurd rfl h, ?_, ?_, ?_, fun _ h => absurd hmarked h, ?_⟩
  · rintro - (h | h) <;> exact hof h rfl
  · rintro - (h | h) <;> exact hof h rfl
  · rintro - (h | h) <;> exact hof h rfl
  · intro _
    have hbehind : Number.unmarked ('0' :: mark :: run.text) = run.text := if_pos hmarked
    rw [hbehind, digitsOf_eq hmem hr]
    exact ⟨fun c hc => List.mem_cons.mp (run.subset hc), hdigit⟩

/-! ## Without a radix mark -/

/-- Without a mark, the radix is eight where only octal digits and underscores follow a leading
zero, and one of them is a digit. -/
theorem radix_of_not_marked (form : NumericForm) (h : ¬Marked text) :
    radix form text = if form = .int ∧ ['0'] <+: text ∧ hasDigit 10 text.tail = true ∧
      text.tail.all (isDigitOrMark 8) = true then 8 else 10 := by
  unfold radix
  split
  · rename_i rest
    rw [radix_eq_none h]
    simp [List.cons_prefix_cons]
  · rename_i hzero
    rw [if_neg]
    rintro ⟨-, ⟨rest, rfl⟩, -⟩
    exact hzero rest rfl

/-- An exponent or an imaginary mark at the end is none of an integer. -/
theorem Ending.eq_of_cls_int {e : Ending} (h : e.cls form = .numeric .int) :
    e.imaginary = false ∧ e.exponent = none ∧ form = .int := by
  unfold cls at h
  split at h
  · have hform := TokenClass.numeric.inj h
    cases himaginary : e.imaginary with
    | true => simp [himaginary] at hform
    | false =>
      cases hexponent : e.exponent with
      | some x => simp [himaginary, hexponent] at hform
      | none =>
        refine ⟨rfl, rfl, ?_⟩
        simpa [himaginary, hexponent] using hform
  · cases h

/-- A decimal literal that is an integer is nothing but its first digits. -/
theorem Decimal.text_of_int (h : d.cls = .numeric .int) : d.text = d.whole.text := by
  obtain ⟨himaginary, hexponent, hform⟩ := Ending.eq_of_cls_int h
  cases hfraction : d.fraction with
  | some digits => simp [hfraction] at hform
  | none =>
    simp [text, point, Ending.text, Ending.power, Ending.imag, hfraction, hexponent, himaginary]

/-- A run of decimal digits has characters that are not octal: eight and nine, and no others. -/
theorem mem_runOf_octalDigits_iff (h : c ∈ runOf decimalDigits) :
    c ∈ runOf octalDigits ↔ c ≠ '8' ∧ c ≠ '9' := by
  have happend : runOf decimalDigits = runOf octalDigits ++ ['8', '9'] := rfl
  rw [happend, List.mem_append, List.mem_pair] at h
  constructor
  · intro hoctal
    exact ⟨fun heq => absurd (heq ▸ hoctal) (by decide),
      fun heq => absurd (heq ▸ hoctal) (by decide)⟩
  · rintro ⟨height, hnine⟩
    exact h.resolve_right (not_or.mpr ⟨height, hnine⟩)

/-- Digits and underscores behind a leading zero are octal if there is a digit, and neither an eight
nor a nine. -/
theorem octal_iff (hsubset : text ⊆ runOf decimalDigits) :
    (['0'] <+: text ∧ hasDigit 10 text.tail = true ∧ text.tail.all (isDigitOrMark 8) = true) ↔
      ['0'] <+: text ∧ 2 ≤ text.countP (· ∈ decimalDigits) ∧ '8' ∉ text ∧ '9' ∉ text := by
  refine and_congr_right ?_
  rintro ⟨rest, rfl⟩
  have hrest : ∀ c ∈ rest, c ∈ runOf decimalDigits :=
    fun c hc => hsubset (List.mem_cons_of_mem _ hc)
  have hcount : 2 ≤ (['0'] ++ rest).countP (· ∈ decimalDigits) ↔ hasDigit 10 rest = true := by
    have hcons : (['0'] ++ rest).countP (· ∈ decimalDigits) =
        rest.countP (· ∈ decimalDigits) + 1 := List.countP_cons_of_pos (by decide)
    have hpos := List.countP_pos_iff (p := (· ∈ decimalDigits)) (l := rest)
    rw [hcons, hasDigit, funext hasDigits_ten, List.any_eq_true, ← hpos]
    omega
  have hoctal : rest.all (isDigitOrMark 8) = true ↔ ∀ c ∈ rest, c ≠ '8' ∧ c ≠ '9' := by
    rw [List.all_eq_true]
    refine forall₂_congr fun c hc => ?_
    rw [isDigitOrMark_eq hasDigits_eight, decide_eq_true_eq, mem_runOf_octalDigits_iff (hrest c hc)]
  have hnone (x : Char) (hx : x ≠ '0') : x ∉ ['0'] ++ rest ↔ ∀ c ∈ rest, c ≠ x := by
    rw [List.singleton_append, List.mem_cons, not_or]
    exact ⟨fun h c hc heq => h.2 (heq ▸ hc), fun h => ⟨hx, fun hmem => h x hmem rfl⟩⟩
  rw [hcount, hnone '8' (by decide), hnone '9' (by decide), ← forall₂_and]
  exact and_congr_right fun _ => hoctal

/-- The first digits of an integer hold a digit. -/
theorem Decimal.exists_digit (hstarts : Starts d.text) (htext : d.text = d.whole.text) :
    ∃ c ∈ d.text, c ∈ decimalDigits := by
  obtain ⟨c, hc, hdigit | hpoint⟩ := hstarts
  · exact ⟨c, hdigit.subset List.mem_cons_self, hc⟩
  · have hmem : '.' ∈ d.whole.text := htext ▸ hpoint.subset List.mem_cons_self
    exact absurd (d.whole.subset hmem) (by decide)

/-- A decimal literal without a mark is decimal, unless it is an integer with a leading zero. -/
theorem writtenIn_decimal (hstarts : Starts d.text) (hmarked : ¬Marked d.text)
    (hcls : d.cls = .numeric form) : WrittenIn (radix form d.text) form d.text := by
  have hbegins {m : Char} (hm : m ∈ marks.map Prod.fst) : ¬['0', m] <+: d.text := by
    obtain ⟨row, hrow, rfl⟩ := List.mem_map.mp hm
    exact fun h => hmarked ⟨row, hrow, h⟩
  have hradix := radix_of_not_marked form hmarked
  refine ⟨?_, ?_, ?_, ?_, ?_, ?_⟩
  · intro hform
    rw [hradix, if_neg fun h => hform h.1]
  · rintro - (h | h) <;> exact absurd h (hbegins (by decide))
  · rintro - (h | h) <;> exact absurd h (hbegins (by decide))
  · rintro - (h | h) <;> exact absurd h (hbegins (by decide))
  · rintro rfl -
    have hsubset : d.text ⊆ runOf decimalDigits := by
      rw [d.text_of_int hcls]
      exact d.whole.subset
    rw [hradix]
    simp only [true_and, octal_iff hsubset]
  · rintro rfl
    have htext := d.text_of_int hcls
    have hunmarked : Number.unmarked d.text = d.text := if_neg hmarked
    rw [hunmarked, hradix]
    split
    · rename_i hoctal
      obtain ⟨-, ⟨rest, hzero⟩, -, hall⟩ := hoctal
      rw [← hzero] at hall ⊢
      refine ⟨?_, '0', List.mem_cons_self, by decide⟩
      intro c hc
      rcases List.mem_cons.mp hc with rfl | hc
      · exact .inr (by decide)
      · have hrun := List.all_eq_true.mp hall c hc
        rw [isDigitOrMark_eq hasDigits_eight, decide_eq_true_eq] at hrun
        exact List.mem_cons.mp hrun
    · refine ⟨fun c hc => ?_, Decimal.exists_digit hstarts htext⟩
      rw [htext] at hc
      exact List.mem_cons.mp (d.whole.subset hc)

/-! ## Tokens -/

/-- An ASCII digit is a digit of the radix ten. -/
theorem mem_decimalDigits_of_isDigit (h : c.isDigit = true) : c ∈ decimalDigits := by
  have hrun := isDigitOrMark_of_isDigit h
  rw [isDigitOrMark_eq hasDigits_ten, decide_eq_true_eq] at hrun
  rcases List.mem_cons.mp hrun with rfl | hmem
  · exact absurd h (by decide)
  · exact hmem

/-- What is read as a number starts like one. -/
theorem starts_of_leading (h : (Scan.leading c t).cls = .numeric form) : Starts (c :: t) := by
  rcases Scan.cls_leading c t with ⟨-, hcls | ⟨k, hcls⟩⟩ | ⟨hdigit | ⟨rfl, hpoint⟩, -⟩ | ⟨-, hcls⟩ |
    ⟨form', -, hcls⟩ | ⟨-, u, -, hcls⟩ | ⟨-, u, -, hcls⟩ | ⟨p, hcls⟩ | ⟨reason, hcls⟩
  · exact nomatch hcls.symm.trans h
  · exact nomatch hcls.symm.trans h
  · exact ⟨c, mem_decimalDigits_of_isDigit hdigit, .inl ⟨t, rfl⟩⟩
  · obtain ⟨y, hy, hdigit⟩ := (Option.any_eq_true _ _).mp hpoint
    obtain ⟨u, rfl⟩ := List.head?_eq_some_iff.mp hy
    exact ⟨y, mem_decimalDigits_of_isDigit hdigit, .inr ⟨u, rfl⟩⟩
  all_goals exact nomatch hcls.symm.trans h

/-- The radix of what is read as a number is that of a literal of its form and text. -/
theorem writtenIn_leading (h : (Scan.leading c t).cls = .numeric form) :
    WrittenIn (radix form (Scan.leading c t).text) form (Scan.leading c t).text := by
  obtain ⟨l, rest, hsplit, hgreedy⟩ := Literal.exists_greedy (starts_of_leading h)
  have hread := leading_literal hgreedy hsplit.symm
  rw [hread] at h ⊢
  cases l with
  | marked mark ds hmem run =>
    have hcls : (if run.HasDigit then .numeric .int else .illegal .malformedNumber) =
        TokenClass.numeric form := h
    split at hcls
    · rename_i hdigit
      obtain rfl := TokenClass.numeric.inj hcls
      exact writtenIn_marked hmem run hdigit
    · exact nomatch hcls
  | decimal d starts =>
    have hmarked : ¬Marked d.text := by
      rintro ⟨row, hrow, hbegins⟩
      exact hgreedy.2 ⟨row, hrow, hbegins.trans (List.prefix_append _ _)⟩
    exact writtenIn_decimal starts hmarked h

end Number

/-- **The radix that is read off a number is the one it was scanned in.** Whatever number a cursor
reads, its radix is that of its mark if it is an integer with one, eight if it is an integer with a
leading zero, another digit, and neither an eight nor a nine, and ten otherwise. Behind the mark, an
integer consists of underscores and digits of that radix, of which there is one at least. -/
theorem Cursor.writtenIn_of_token {c after : Cursor} {form : NumericForm} {l : Lexeme}
    (h : c.token = (.ok ⟨.numeric form, l⟩, after)) :
    Number.WrittenIn (Number.radix form l.text) form l.text := by
  rcases c.token_eq with ⟨-, hread⟩ | ⟨x, t, after', -, hread, -⟩
  · exact nomatch h.symm.trans hread
  · obtain ⟨hcls, rfl⟩ := Token.mk.inj (Except.ok.inj (congrArg Prod.fst (h.symm.trans hread)))
    have hleading := Number.writtenIn_leading hcls.symm
    exact hleading

/-- Literals that look alike: an octal one with an underscore, a zero with nothing but an underscore
behind it, and the first with an imaginary mark. -/
theorem Cursor.writtenIn_of_token_zero :
    ((ofText ['0', '_', '7']).token.1 = .ok ⟨.numeric .int, 0, ['0', '_', '7']⟩ ∧
      Number.WrittenIn 8 .int ['0', '_', '7']) ∧
    ((ofText ['0', '_', 'x']).token.1 = .ok ⟨.numeric .int, 0, ['0', '_']⟩ ∧
      Number.WrittenIn 10 .int ['0', '_']) ∧
    (ofText ['0', '_', '7', 'i']).token.1 = .ok ⟨.numeric .imaginary, 0, ['0', '_', '7', 'i']⟩ ∧
      Number.WrittenIn 10 .imaginary ['0', '_', '7', 'i'] := by
  have hoctal : (ofText ['0', '_', '7']).token = (.ok ⟨.numeric .int, 0, ['0', '_', '7']⟩,
      ⟨3, some (2, '7'), []⟩) := rfl
  have hzero : (ofText ['0', '_', 'x']).token = (.ok ⟨.numeric .int, 0, ['0', '_']⟩,
      ⟨2, some (1, '_'), ['x']⟩) := rfl
  have himaginary : (ofText ['0', '_', '7', 'i']).token =
      (.ok ⟨.numeric .imaginary, 0, ['0', '_', '7', 'i']⟩, ⟨4, some (3, 'i'), []⟩) := rfl
  exact ⟨⟨congrArg Prod.fst hoctal, writtenIn_of_token hoctal⟩,
    ⟨congrArg Prod.fst hzero, writtenIn_of_token hzero⟩,
    congrArg Prod.fst himaginary, writtenIn_of_token himaginary⟩

end Frontend
