import Frontend.Stream.Basic
import Frontend.Grammar.Program
import Frontend.Provider.Basic
import Frontend.Handler

/-!
# From a file to its program

The stages put together: a file is loaded, its text becomes a token stream, and the tokens become
the head of a program. Errors in the text are reported to a handler once and returned; a file that
cannot be loaded is only returned as an error, since there is no text to show.
-/

namespace Frontend

variable {σ : Type}

/-- A file with its token stream. -/
structure TokenizedFile where
  file : SourceFile
  stream : TokenStream

/-- A file with the head of its program. -/
structure ParsedFile where
  file : SourceFile
  program : Program

/-- The token stream of a file. A lexical error is reported. -/
def SourceFile.tokenize (h : Handler Error σ) (file : SourceFile) (s : σ) :
    Except LexicalError TokenStream × σ :=
  match TokenStream.ofText file.content with
  | .ok stream => (.ok stream, s)
  | .error e => (.error e, h.receive s (.lexical file e))

/-- The head of a program from a place in the tokens of a file on. A syntax error is reported. -/
def Parser.programOf (h : Handler Error σ) (file : SourceFile) (p : Parser) (s : σ) :
    (Except SyntaxError Program × Parser) × σ :=
  match program p with
  | (.ok program, q) => ((.ok program, q), s)
  | (.error e, q) => ((.error e, q), h.receive s (.grammar file e))

/-- The token stream of a file that may not have been loaded. -/
def tokenizeLoaded (h : Handler Error σ) (loaded : Except Error SourceFile) (s : σ) :
    Except Error TokenizedFile × σ :=
  match loaded with
  | .error e => (.error e, s)
  | .ok file =>
    match file.tokenize h s with
    | (.ok stream, s) => (.ok ⟨file, stream⟩, s)
    | (.error e, s) => (.error (.lexical file e), s)

/-- The token stream of a file of a provider. Positions are reported under its path. -/
def tokenize (h : Handler Error σ) (provider : Provider) (path : String) (s : σ) :
    Except Error TokenizedFile × σ :=
  tokenizeLoaded h (SourceFile.load provider path path) s

/-- The token stream of what a reader delivers. -/
def tokenizeReader (h : Handler Error σ) (r : Reader) (name : String) (s : σ) :
    Except Error TokenizedFile × σ :=
  tokenizeLoaded h (SourceFile.ofReader name r) s

/-- The head of the program in a file of a provider. -/
def parse (h : Handler Error σ) (provider : Provider) (path : String) (s : σ) :
    Except Error ParsedFile × σ :=
  match tokenize h provider path s with
  | (.error e, s) => (.error e, s)
  | (.ok tokenized, s) =>
    match (Parser.ofTokens tokenized.stream.tokens).programOf h tokenized.file s with
    | ((.ok program, _), s) => (.ok ⟨tokenized.file, program⟩, s)
    | ((.error e, _), s) => (.error (.grammar tokenized.file e), s)

end Frontend
