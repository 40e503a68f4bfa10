import Frontend.Text.Offset

/-!
# Punctuation

The operators and delimiters of the language. `continuations` sorts their spellings by the first
character, longer ones first, so that the first spelling that fits a text is the longest one.
-/

namespace Frontend

/-- An operator or a delimiter. -/
inductive Punctuation where
  | add
  | sub
  | mul
  | quo
  | rem
  | pow
  | and
  | or
  | xor
  | shl
  | shr
  | andNot
  | addAssign
  | subAssign
  | mulAssign
  | quoAssign
  | remAssign
  | powAssign
  | andAssign
  | orAssign
  | xorAssign
  | shlAssign
  | shrAssign
  | andNotAssign
  | logicalAnd
  | logicalOr
  | arrow
  | increment
  | decrement
  | equal
  | assign
  | not
  | notEqual
  | less
  | lessEqual
  | greater
  | greaterEqual
  | define
  | ellipsis
  | leftParen
  | leftBracket
  | leftBrace
  | comma
  | period
  | rightParen
  | rightBracket
  | rightBrace
  | semicolon
  | colon
  deriving DecidableEq, Ord, Repr

namespace Punctuation

/-- All operators and delimiters: arithmetic, assignment, logic and comparison, delimiters. -/
def all : List Punctuation := [
  .add, .sub, .mul, .quo, .rem, .pow, .and, .or, .xor, .shl, .shr, .andNot, .addAssign,
  .subAssign, .mulAssign, .quoAssign, .remAssign, .powAssign, .andAssign, .orAssign, .xorAssign,
  .shlAssign, .shrAssign, .andNotAssign, .logicalAnd, .logicalOr, .arrow, .increment, .decrement,
  .equal, .assign, .not, .notEqual, .less, .lessEqual, .greater, .greaterEqual, .define,
  .ellipsis, .leftParen, .leftBracket, .leftBrace, .comma, .period, .rightParen, .rightBracket,
  .rightBrace, .semicolon, .colon]

/-- How the operator or delimiter is spelled. -/
def text : Punctuation → Text
  | add => ['+']
  | sub => ['-']
  | mul => ['*']
  | quo => ['/']
  | rem => ['%']
  | pow => ['*', '*']
  | and => ['&']
  | or => ['|']
  | xor => ['^']
  | shl => ['<', '<']
  | shr => ['>', '>']
  | andNot => ['&', '^']
  | addAssign => ['+', '=']
  | subAssign => ['-', '=']
  | mulAssign => ['*', '=']
  | quoAssign => ['/', '=']
  | remAssign => ['%', '=']
  | powAssign => ['*', '*', '=']
  | andAssign => ['&', '=']
  | orAssign => ['|', '=']
  | xorAssign => ['^', '=']
  | shlAssign => ['<', '<', '=']
  | shrAssign => ['>', '>', '=']
  | andNotAssign => ['&', '^', '=']
  | logicalAnd => ['&', '&']
  | logicalOr => ['|', '|']
  | arrow => ['<', '-']
  | increment => ['+', '+']
  | decrement => ['-', '-']
  | equal => ['=', '=']
  | assign => ['=']
  | not => ['!']
  | notEqual => ['!', '=']
  | less => ['<']
  | lessEqual => ['<', '=']
  | greater => ['>']
  | greaterEqual => ['>', '=']
  | define => [':', '=']
  | ellipsis => ['.', '.', '.']
  | leftParen => ['(']
  | leftBracket => ['[']
  | leftBrace => ['\x7b']
  | comma => [',']
  | period => ['.']
  | rightParen => [')']
  | rightBracket => [']']
  | rightBrace => ['\x7d']
  | semicolon => [';']
  | colon => [':']

/-- What the operator or delimiter is called in a dump. -/
def name : Punctuation → String
  | add => "Add"
  | sub => "Sub"
  | mul => "Mul"
  | quo => "Quo"
  | rem => "Rem"
  | pow => "Pow"
  | and => "And"
  | or => "Or"
  | xor => "Xor"
  | shl => "Shl"
  | shr => "Shr"
  | andNot => "AndNot"
  | addAssign => "AddAssign"
  | subAssign => "SubAssign"
  | mulAssign => "MulAssign"
  | quoAssign => "QuoAssign"
  | remAssign => "RemAssign"
  | powAssign => "PowAssign"
  | andAssign => "AndAssign"
  | orAssign => "OrAssign"
  | xorAssign => "XorAssign"
  | shlAssign => "ShlAssign"
  | shrAssign => "ShrAssign"
  | andNotAssign => "AndNotAssign"
  | logicalAnd => "LogicalAnd"
  | logicalOr => "LogicalOr"
  | arrow => "Arrow"
  | increment => "Increment"
  | decrement => "Decrement"
  | equal => "Equal"
  | assign => "Assign"
  | not => "Not"
  | notEqual => "NotEqual"
  | less => "Less"
  | lessEqual => "LessEqual"
  | greater => "Greater"
  | greaterEqual => "GreaterEqual"
  | define => "Define"
  | ellipsis => "Ellipsis"
  | leftParen => "LeftParen"
  | leftBracket => "LeftBracket"
  | leftBrace => "LeftBrace"
  | comma => "Comma"
  | period => "Period"
  | rightParen => "RightParen"
  | rightBracket => "RightBracket"
  | rightBrace => "RightBrace"
  | semicolon => "Semicolon"
  | colon => "Colon"

/-- Whether a line break after the operator or delimiter ends the statement. -/
def endsStatement : Punctuation → Bool
  | increment | decrement | rightParen | rightBracket | rightBrace => true
  | _ => false

/-- The operator or delimiter with a spelling. -/
def ofText? (spelling : Text) : Option Punctuation :=
  all.find? fun p => p.text = spelling

/-- How the spellings that start with a character go on, longer continuations first. -/
def continuations (c : Char) : List (Text × Punctuation) :=
  if c = '+' then [(['='], .addAssign), (['+'], .increment), ([], .add)]
  else if c = '-' then [(['='], .subAssign), (['-'], .decrement), ([], .sub)]
  else if c = '*' then [(['*', '='], .powAssign), (['*'], .pow), (['='], .mulAssign), ([], .mul)]
  else if c = '/' then [(['='], .quoAssign), ([], .quo)]
  else if c = '%' then [(['='], .remAssign), ([], .rem)]
  else if c = '&' then
    [(['^', '='], .andNotAssign), (['^'], .andNot), (['='], .andAssign), (['&'], .logicalAnd),
      ([], .and)]
  else if c = '|' then [(['='], .orAssign), (['|'], .logicalOr), ([], .or)]
  else if c = '^' then [(['='], .xorAssign), ([], .xor)]
  else if c = '<' then
    [(['<', '='], .shlAssign), (['<'], .shl), (['-'], .arrow), (['='], .lessEqual), ([], .less)]
  else if c = '>' then
    [(['>', '='], .shrAssign), (['>'], .shr), (['='], .greaterEqual), ([], .greater)]
  else if c = '=' then [(['='], .equal), ([], .assign)]
  else if c = '!' then [(['='], .notEqual), ([], .not)]
  else if c = ':' then [(['='], .define), ([], .colon)]
  else if c = '.' then [(['.', '.'], .ellipsis), ([], .period)]
  else if c = '(' then [([], .leftParen)]
  else if c = '[' then [([], .leftBracket)]
  else if c = '\x7b' then [([], .leftBrace)]
  else if c = ',' then [([], .comma)]
  else if c = ')' then [([], .rightParen)]
  else if c = ']' then [([], .rightBracket)]
  else if c = '\x7d' then [([], .rightBrace)]
  else if c = ';' then [([], .semicolon)]
  else []

/-- The characters that a spelling can start with. -/
def starts : List Char :=
  ['+', '-', '*', '/', '%', '&', '|', '^', '<', '>', '=', '!', ':', '.', '(', '[', '\x7b', ',', ')',
    ']', '\x7d', ';']

/-- Every operator and delimiter is listed. -/
theorem mem_all (p : Punctuation) : p ∈ all := by
  cases p <;> decide

/-- No operator or delimiter is spelled by nothing. -/
theorem text_ne_nil (p : Punctuation) : p.text ≠ [] := by
  cases p <;> simp [text]

/-- A character that starts no operator or delimiter goes on with none. -/
theorem continuations_of_notMem {c : Char} (h : c ∉ starts) : continuations c = [] := by
  simp only [starts, List.mem_cons, List.not_mem_nil, or_false, not_or] at h
  simp [continuations, h]

/-- What holds of the entries for each character that a spelling can start with holds of all. -/
theorem forall_continuations {P : Char → Text × Punctuation → Bool}
    (h : starts.all fun c => (continuations c).all (P c)) (c : Char) :
    ∀ entry ∈ continuations c, P c entry = true := by
  by_cases hc : c ∈ starts
  · exact List.all_eq_true.mp (List.all_eq_true.mp h c hc)
  · rw [continuations_of_notMem hc]
    exact fun _ hentry => absurd hentry List.not_mem_nil

/-- The entries for a character are the spellings that start with it. -/
theorem mem_continuations_iff {c : Char} {rest : Text} {p : Punctuation} :
    (rest, p) ∈ continuations c ↔ p.text = c :: rest := by
  constructor
  · intro hentry
    have hall : starts.all fun c => (continuations c).all fun entry =>
        decide (entry.2.text = c :: entry.1) := by decide
    exact of_decide_eq_true (forall_continuations hall c _ hentry)
  · intro htext
    cases p <;> obtain ⟨rfl, rfl⟩ := List.cons.inj htext <;> decide

/-- No entry for a character goes on with what an earlier one says. -/
theorem pairwise_continuations (c : Char) :
    (continuations c).Pairwise fun a b => ¬a.1 <+: b.1 := by
  by_cases hc : c ∈ starts
  · have hall : starts.all fun c =>
        decide ((continuations c).Pairwise fun a b => ¬a.1 <+: b.1) := by decide
    exact of_decide_eq_true (List.all_eq_true.mp hall c hc)
  · rw [continuations_of_notMem hc]
    exact .nil

end Punctuation

end Frontend
