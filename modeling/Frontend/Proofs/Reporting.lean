import Mathlib
import Frontend.CommandLine.Run
import Frontend.Provider.FileTree
import Frontend.Provider.Memory

/-!
# One diagnostic for each failure

An error in the text is reported to the handler by the stage that finds it, and returned; an error
of reading is only returned. So after any calls a handler has received the errors in the text that
the calls returned, in their order. A run of the program is one call with a handler that prints, and
prints the returned error itself only if the handler has printed nothing: whichever stage stops it,
there is one diagnostic and nothing else.
-/

namespace Frontend

/-- The error is in the text of a file: an illegal token, or tokens that are no program. -/
def Error.isInText : Error → Bool
  | lexical _ _ | grammar _ _ => true
  | unreadable _ | notUtf8 _ => false

/-- The error, if it is one that is reported. -/
def Error.reported? (e : Error) : Option Error :=
  if e.isInText then some e else none

/-- The error that is reported when a result is returned, if there is one. -/
def reported? {α : Type} : Except Error α → Option Error
  | .ok _ => none
  | .error e => e.reported?

/-- Changing the value of a result does not change what is reported. -/
theorem reported?_map {α β : Type} (f : α → β) (result : Except Error α) :
    reported? (result.map f) = reported? result := by
  cases result <;> rfl

/-! ## Reading -/

/-- Loading fails for no reason in the text: the bytes cannot be read, or they are not UTF-8. -/
def Loads {α : Type} (loaded : Except Error α) : Prop :=
  ∀ e, loaded = .error e → e.isInText = false

variable {α β : Type}

/-- What has been loaded has not failed. -/
theorem loads_ok (a : α) : Loads (.ok a) :=
  fun _ h => nomatch h

/-- Loading may fail with any error that is not in the text. -/
theorem loads_error {e : Error} (h : e.isInText = false) : Loads (.error e : Except Error α) := by
  intro e' he
  obtain rfl := Except.error.inj he
  exact h

/-- Changing what is loaded adds no reason to fail. -/
theorem Loads.map {loaded : Except Error α} (h : Loads loaded) (f : α → β) :
    Loads (loaded.map f) := by
  cases loaded with
  | ok a => exact loads_ok (f a)
  | error e => exact loads_error (h e rfl)

/-- Two steps of loading in a row fail for no reason in the text if neither of them does. -/
theorem Loads.bind {loaded : Except Error α} (h : Loads loaded) {f : α → Except Error β}
    (hf : ∀ a, Loads (f a)) : Loads (loaded.bind f) := by
  cases loaded with
  | ok a => exact hf a
  | error e => exact loads_error (h e rfl)

/-- Bytes that are not UTF-8 are no error in the text. -/
theorem loads_decodeText (bytes : Bytes) : Loads (decodeText bytes) := by
  unfold decodeText
  split
  · exact loads_ok _
  · exact loads_error rfl

/-- A stream that breaks off is no error in the text. -/
theorem loads_readPieces (failure : Option String) (pieces : List Bytes) :
    Loads (Reader.readPieces failure pieces) := by
  fun_induction Reader.readPieces failure pieces with
  | case1 reason => exact loads_error rfl
  | case2 => exact loads_ok _
  | case3 => exact loads_ok _
  | case4 piece pieces hpiece ih => exact ih.map _

/-- A stream of bytes is only read. -/
theorem loads_ofReader (name : String) (r : Reader) : Loads (SourceFile.ofReader name r) :=
  ((loads_readPieces r.failure r.pieces).bind loads_decodeText).map _

/-- A provider that only reads: it fails if the bytes cannot be read, or if they are not UTF-8. -/
def Provider.OnlyReads (provider : Provider) : Prop :=
  ∀ path, Loads (provider.readText path)

/-- An error of the file system is not in the text. -/
theorem loads_mapError (found : Except FileError α) :
    Loads (found.mapError FileError.toError) := by
  cases found with
  | ok a => exact loads_ok a
  | error e => exact loads_error rfl

/-- The file system is only read. -/
theorem Provider.onlyReads_ofFiles (read : String → Except FileError Bytes) :
    (Provider.ofFiles read).OnlyReads :=
  fun _ => loads_mapError _

/-- Files in memory are only read. -/
theorem MemoryStore.onlyReads_provider (store : MemoryStore) : store.provider.OnlyReads := by
  intro path
  have hbytes : Loads (store.readBytes path) := by
    unfold readBytes
    split
    · exact loads_error rfl
    split
    · exact loads_error rfl
    · exact loads_ok _
  have htext : Loads (store.readText path) := by
    unfold readText
    split
    · rename_i e he
      exact loads_error (hbytes e he)
    · exact loads_decodeText _
  exact htext

/-- A provider that decodes the bytes it reads. -/
theorem Provider.onlyReads_decodedText {readBytes : String → Except Error Bytes}
    (h : ∀ path, Loads (readBytes path)) :
    (Provider.mk readBytes (decodedText readBytes)).OnlyReads :=
  fun path => (h path).bind loads_decodeText

/-! ## Stages -/

/-- Every stage of a file that may not have been loaded comes to its end, the parser if it is asked
for. -/
structure Completes (loaded : Except Error SourceFile) (parsing : Bool) (t : TokenizedFile) :
    Prop where
  reading : loaded = .ok t.file
  tokenizing : TokenStream.ofText t.file.content = .ok t.stream
  parsing : parsing = true →
    ∃ tree q, Parser.program (.ofTokens t.stream.tokens) = (.ok tree, q)

/-- A stage stops with an error. -/
inductive Stops (loaded : Except Error SourceFile) : Bool → Error → Prop
  | reading {parsing : Bool} {e : Error} (h : loaded = .error e) : Stops loaded parsing e
  | tokenizing {parsing : Bool} {file : SourceFile} {e : LexicalError} (hfile : loaded = .ok file)
    (h : TokenStream.ofText file.content = .error e) : Stops loaded parsing (.lexical file e)
  | parsing {file : SourceFile} {stream : TokenStream} {e : SyntaxError} {q : Parser}
    (hfile : loaded = .ok file) (hstream : TokenStream.ofText file.content = .ok stream)
    (h : Parser.program (.ofTokens stream.tokens) = (.error e, q)) :
    Stops loaded true (.grammar file e)

/-- Either all stages come to their ends, or one of them stops. -/
theorem completes_or_stops (loaded : Except Error SourceFile) (parsing : Bool) :
    (∃ t, Completes loaded parsing t) ∨ ∃ e, Stops loaded parsing e := by
  cases hfile : loaded with
  | error e => exact .inr ⟨e, .reading rfl⟩
  | ok file =>
    cases hstream : TokenStream.ofText file.content with
    | error e => exact .inr ⟨_, .tokenizing rfl hstream⟩
    | ok stream =>
      cases hprogram : Parser.program (.ofTokens stream.tokens) with
      | mk result q =>
        cases result with
        | ok tree =>
          have hparsing : parsing = true →
              ∃ tree q, Parser.program (.ofTokens stream.tokens) = (.ok tree, q) :=
            fun _ => ⟨tree, q, hprogram⟩
          exact .inl ⟨⟨file, stream⟩, rfl, hstream, hparsing⟩
        | error e =>
          cases parsing with
          | true => exact .inr ⟨_, .parsing rfl hstream hprogram⟩
          | false => exact .inl ⟨⟨file, stream⟩, rfl, hstream, fun h => nomatch h⟩

section Stages

variable {σ : Type} (h : Handler Error σ) (s : σ) {loaded : Except Error SourceFile}
  {provider : Provider} {path : String} {t : TokenizedFile} {e : Error}

/-- Where tokenizing comes to its end, its stream is returned and nothing is reported. -/
theorem tokenizeLoaded_of_completes {parsing : Bool} (ht : Completes loaded parsing t) :
    tokenizeLoaded h loaded s = (.ok t, s) := by
  simp only [tokenizeLoaded, ht.reading, SourceFile.tokenize, ht.tokenizing]

/-- An error is returned and, unless it is one of reading, reported. -/
theorem tokenizeLoaded_of_stops (hloads : Loads loaded) (he : Stops loaded false e) :
    tokenizeLoaded h loaded s = (.error e, h.receiveAny s e.reported?) := by
  cases he with
  | reading he =>
    simp only [tokenizeLoaded, he, Error.reported?, hloads e he, Bool.false_eq_true, if_false,
      Handler.receiveAny]
  | tokenizing hfile he =>
    simp only [tokenizeLoaded, hfile, SourceFile.tokenize, he]
    rfl

/-- Where parsing comes to its end, its tree is returned and nothing is reported. -/
theorem parse_of_completes (ht : Completes (SourceFile.load provider path path) true t) :
    ∃ tree q, Parser.program (.ofTokens t.stream.tokens) = (.ok tree, q) ∧
      parse h provider path s = (.ok ⟨t.file, tree⟩, s) := by
  obtain ⟨tree, q, hprogram⟩ := ht.parsing rfl
  refine ⟨tree, q, hprogram, ?_⟩
  simp only [parse, tokenize, tokenizeLoaded_of_completes h s ht, Parser.programOf, hprogram]

/-- An error is returned and, unless it is one of reading, reported. -/
theorem parse_of_stops (hreads : provider.OnlyReads)
    (he : Stops (SourceFile.load provider path path) true e) :
    parse h provider path s = (.error e, h.receiveAny s e.reported?) := by
  have hloads : Loads (SourceFile.load provider path path) := (hreads path).map _
  cases he with
  | reading he =>
    have htokenize := tokenizeLoaded_of_stops h s hloads (.reading he)
    simp only [parse, tokenize, htokenize]
  | tokenizing hfile he =>
    have htokenize := tokenizeLoaded_of_stops h s hloads (.tokenizing hfile he)
    simp only [parse, tokenize, htokenize]
  | @parsing file stream e q hfile hstream he =>
    have hcompletes : Completes (SourceFile.load provider path path) false ⟨file, stream⟩ :=
      ⟨hfile, hstream, fun h => nomatch h⟩
    simp only [parse, tokenize, tokenizeLoaded_of_completes h s hcompletes, Parser.programOf, he]
    rfl

/-- A handler receives what tokenizing returns, if it is an error in the text, and nothing else. -/
theorem tokenizeLoaded_reports (hloads : Loads loaded) :
    (tokenizeLoaded h loaded s).2 = h.receiveAny s (reported? (tokenizeLoaded h loaded s).1) := by
  rcases completes_or_stops loaded false with ⟨t, ht⟩ | ⟨e, he⟩
  · rw [tokenizeLoaded_of_completes h s ht]
    rfl
  · rw [tokenizeLoaded_of_stops h s hloads he]
    rfl

/-- A handler receives what parsing returns, if it is an error in the text, and nothing else. -/
theorem parse_reports (hreads : provider.OnlyReads) :
    (parse h provider path s).2 = h.receiveAny s (reported? (parse h provider path s).1) := by
  rcases completes_or_stops (SourceFile.load provider path path) true with ⟨t, ht⟩ | ⟨e, he⟩
  · obtain ⟨tree, q, -, hparse⟩ := parse_of_completes h s ht
    rw [hparse]
    rfl
  · rw [parse_of_stops h s hreads he]
    rfl

end Stages

/-! ## Calls with one handler -/

/-- A call of the front end. -/
inductive Call where
  | tokenize (provider : Provider) (path : String)
  | tokenizeReader (r : Reader) (name : String)
  | parse (provider : Provider) (path : String)

namespace Call

/-- What a call returns: the tokens or the program of a file, or an error. -/
abbrev Result : Type := Except Error (TokenizedFile ⊕ ParsedFile)

/-- The provider of the call, if it has one, only reads. -/
def OnlyReads : Call → Prop
  | tokenize provider _ | parse provider _ => provider.OnlyReads
  | tokenizeReader _ _ => True

variable {σ : Type} (h : Handler Error σ)

/-- What a call returns, and what the handler keeps after it. -/
def run (s : σ) : Call → Result × σ
  | tokenize provider path => (Frontend.tokenize h provider path s).map (Except.map .inl) id
  | tokenizeReader r name => (Frontend.tokenizeReader h r name s).map (Except.map .inl) id
  | parse provider path => (Frontend.parse h provider path s).map (Except.map .inr) id

/-- What calls return that are made one after the other with one handler, and what the handler keeps
after the last. -/
def runAll (s : σ) : List Call → List Result × σ
  | [] => ([], s)
  | call :: calls =>
    let (result, s) := call.run h s
    let (results, s) := runAll s calls
    (result :: results, s)

/-- In one call the handler receives the error that is returned, if it is in the text, and nothing
else. -/
theorem run_reports (s : σ) {call : Call} (hcall : call.OnlyReads) :
    (call.run h s).2 = h.receiveAny s (reported? (call.run h s).1) := by
  cases call with
  | tokenize provider path =>
    simp only [run, Prod.map_snd, Prod.map_fst, reported?_map, id_eq]
    exact tokenizeLoaded_reports h s ((hcall path).map _)
  | tokenizeReader r name =>
    simp only [run, Prod.map_snd, Prod.map_fst, reported?_map, id_eq]
    exact tokenizeLoaded_reports h s (loads_ofReader name r)
  | parse provider path =>
    simp only [run, Prod.map_snd, Prod.map_fst, reported?_map, id_eq]
    exact parse_reports h s hcall

/-- Over many calls the handler receives the errors in the text that are returned, in the order of
the calls, and nothing else. -/
theorem runAll_reports (s : σ) {calls : List Call} (hcalls : ∀ call ∈ calls, call.OnlyReads) :
    (runAll h s calls).2 = ((runAll h s calls).1.filterMap reported?).foldl h.receive s := by
  induction calls generalizing s with
  | nil => rfl
  | cons call calls ih =>
    have hstep := run_reports h s (hcalls call List.mem_cons_self)
    have hrest := ih (call.run h s).2 fun c hc => hcalls c (List.mem_cons_of_mem call hc)
    simp only [runAll, hrest, List.filterMap_cons]
    rw [hstep]
    cases reported? (call.run h s).1 <;> rfl

end Call

/-- A log keeps the errors that it receives. -/
theorem Handler.foldl_log {ε : Type} (kept errors : List ε) :
    errors.foldl log.receive kept = kept ++ errors := by
  induction errors generalizing kept with
  | nil => exact (List.append_nil kept).symm
  | cons e errors ih =>
    rw [List.foldl_cons, ih]
    exact List.append_assoc kept [e] errors

/-- A count grows by the number of errors that it receives. -/
theorem Handler.foldl_count {ε : Type} (n : Nat) (errors : List ε) :
    errors.foldl count.receive n = n + errors.length := by
  induction errors generalizing n with
  | nil => rfl
  | cons e errors ih =>
    rw [List.foldl_cons, ih, List.length_cons]
    exact Nat.add_right_comm n 1 errors.length

/-! ## The program -/

namespace CommandLine

/-- The stages of a run come to their ends. -/
def Succeeds (o : Options) (provider : Provider) (t : TokenizedFile) : Prop :=
  Completes (SourceFile.load provider o.file o.file) (o.has .parse) t

/-- A stage of a run stops with an error. -/
def Fails (o : Options) (provider : Provider) (e : Error) : Prop :=
  Stops (SourceFile.load provider o.file o.file) (o.has .parse) e

/-- What the handler of a run prints. -/
def reports (o : Options) (styling : Styling) (provider : Provider) : List String :=
  let handler := Handler.print (Error.message styling)
  if o.has .parse then (parse handler provider o.file []).2
  else (tokenize handler provider o.file []).2

/-- What stands before an error that is printed at the end of a run. -/
def failure (o : Options) : String :=
  (if o.has .parse then "Failed to parse " else "Failed to tokenize ") ++ o.file ++ ": "

variable {o : Options} (styling : Styling) {provider : Provider} {t : TokenizedFile} {e : Error}

/-- A stage that succeeds prints its result. -/
theorem outcome_ok {α : Type} (failure : String) (print : α → List String) (a : α) :
    outcome styling failure print (.ok a, []) = ⟨0, print a, []⟩ :=
  rfl

/-- A stage that fails prints one diagnostic, whether its error was reported or not. -/
theorem outcome_error {α : Type} (failure : String) (print : α → List String) :
    outcome styling failure print
        (.error e, e.reported?.toList.map (Error.message styling)) =
      ⟨1, [], [(if e.isInText then "" else failure ++ ": ") ++ e.message styling]⟩ := by
  unfold Error.reported?
  cases e.isInText with
  | true => simp [outcome]
  | false => rfl

/-- What is printed of one error that may be reported. -/
theorem receiveAny_print (message : Error → String) (e : Option Error) :
    (Handler.print message).receiveAny [] e = e.toList.map message := by
  cases e <;> rfl

/-- A run whose stages come to their ends succeeds, and prints records if it does not parse. -/
theorem run_of_succeeds (ht : Succeeds o provider t) :
    ∃ stdout, run o styling provider = ⟨0, stdout, []⟩ ∧
      (o.has .parse = false → stdout = records o t) := by
  unfold Succeeds at ht
  cases hparse : o.has .parse with
  | true =>
    rw [hparse] at ht
    obtain ⟨tree, q, -, hrun⟩ := parse_of_completes (Handler.print (Error.message styling)) [] ht
    refine ⟨[(tree.dump t.file).pretty], ?_, fun h => nomatch h⟩
    simp only [run, hparse, if_true, hrun, outcome_ok]
  | false =>
    have hrun := tokenizeLoaded_of_completes (Handler.print (Error.message styling)) [] ht
    refine ⟨records o t, ?_, fun _ => rfl⟩
    simp only [run, hparse, Bool.false_eq_true, if_false, tokenize, hrun, outcome_ok]

/-- A run one of whose stages stops fails. The handler prints the error if it is in the text, and
otherwise nothing. -/
theorem run_of_fails (hreads : provider.OnlyReads) (he : Fails o provider e) :
    reports o styling provider = e.reported?.toList.map (Error.message styling) ∧
      run o styling provider =
        ⟨1, [], [(if e.isInText then "" else failure o) ++ e.message styling]⟩ := by
  unfold Fails at he
  cases hparse : o.has .parse with
  | true =>
    rw [hparse] at he
    have hrun := parse_of_stops (Handler.print (Error.message styling)) [] hreads he
    simp only [reports, run, failure, hparse, if_true, hrun, receiveAny_print, outcome_error,
      true_and]
  | false =>
    rw [hparse] at he
    have hloads : Loads (SourceFile.load provider o.file o.file) := (hreads o.file).map _
    have hrun := tokenizeLoaded_of_stops (Handler.print (Error.message styling)) [] hloads he
    simp only [reports, run, failure, hparse, Bool.false_eq_true, if_false, tokenize, hrun,
      receiveAny_print, outcome_error, true_and]

variable (o provider) in
/-- What a run leaves behind is settled by its stages: records if all of them come to their ends,
and otherwise one diagnostic, which is printed by the handler or, if that has printed nothing, at
the end. -/
structure Diagnosed (left : Outcome) : Prop where
  /-- The run succeeds exactly if reading, tokenizing and, on demand, parsing do. -/
  code : left.code = 0 ↔ ∃ t, Succeeds o provider t
  succeeded : ∀ t, Succeeds o provider t → left.stderr = [] ∧
    (o.has .parse = false → left.stdout = t.stream.tokens.map (tokenRecord t.file) ++
      if o.has .comments then t.stream.comments.map (commentRecord t.file) else [])
  failed : left.code ≠ 0 → left.code = 1 ∧ left.stdout = [] ∧ ∃ e, Fails o provider e ∧
    ((e.isInText = true ∧ reports o styling provider = [e.message styling] ∧
        left.stderr = reports o styling provider) ∨
      (e.isInText = false ∧ reports o styling provider = [] ∧
        left.stderr = [failure o ++ e.message styling]))

/-- A run of the program leaves one diagnostic behind if a stage stops, and none otherwise. -/
theorem run_diagnosed (hreads : provider.OnlyReads) :
    Diagnosed o styling provider (run o styling provider) := by
  have hsucceeds : ∀ t, Succeeds o provider t → (run o styling provider).code = 0 := by
    intro t ht
    obtain ⟨stdout, hrun, -⟩ := run_of_succeeds styling ht
    rw [hrun]
  constructor
  case code =>
    constructor
    · intro hcode
      rcases completes_or_stops (SourceFile.load provider o.file o.file) (o.has .parse) with
        ht | ⟨e, he⟩
      · exact ht
      · obtain ⟨-, hrun⟩ := run_of_fails styling hreads he
        rw [hrun] at hcode
        exact absurd hcode Nat.one_ne_zero
    · rintro ⟨t, ht⟩
      exact hsucceeds t ht
  case succeeded =>
    intro t ht
    obtain ⟨stdout, hrun, hstdout⟩ := run_of_succeeds styling ht
    rw [hrun]
    exact ⟨rfl, hstdout⟩
  case failed =>
    intro hcode
    rcases completes_or_stops (SourceFile.load provider o.file o.file) (o.has .parse) with
      ⟨t, ht⟩ | ⟨e, he⟩
    · exact absurd (hsucceeds t ht) hcode
    · obtain ⟨hreports, hrun⟩ := run_of_fails styling hreads he
      rw [hrun]
      refine ⟨rfl, rfl, e, he, ?_⟩
      unfold Error.reported? at hreports
      cases htext : e.isInText with
      | true =>
        rw [htext] at hreports
        refine .inl ⟨rfl, hreports, ?_⟩
        rw [hreports]
        simp
      | false =>
        rw [htext] at hreports
        exact .inr ⟨rfl, hreports, rfl⟩

end CommandLine

open CommandLine in
/-- Every failure is reported once. Whatever calls are made with one handler, it receives exactly
the errors in the text that they return, in their order: a log keeps these, and a count counts the
calls that return one. So a run of the program that fails leaves one diagnostic and nothing else
behind, whichever of its stages stops it. -/
theorem reports_once {calls : List Call} (hcalls : ∀ call ∈ calls, call.OnlyReads)
    {arguments : List String} {environment : List (String × String)} {o : Options}
    (ho : Request.ofCommandLine arguments environment = .run o) (terminal : Bool)
    (read : String → Except FileError Bytes) :
    (∀ {σ : Type} (h : Handler Error σ) (s : σ), (Call.runAll h s calls).2 =
      ((Call.runAll h s calls).1.filterMap reported?).foldl h.receive s) ∧
    (Call.runAll .log [] calls).2 = (Call.runAll .log [] calls).1.filterMap reported? ∧
    (Call.runAll .count 0 calls).2 =
      (Call.runAll .count 0 calls).1.countP (fun result => (reported? result).isSome) ∧
    Diagnosed o (styling o environment terminal) (.ofFiles read)
      (answer arguments environment terminal (.ofFiles read)) := by
  refine ⟨fun h s => Call.runAll_reports h s hcalls, ?_, ?_, ?_⟩
  · rw [Call.runAll_reports _ _ hcalls, Handler.foldl_log, List.nil_append]
  · rw [Call.runAll_reports _ _ hcalls, Handler.foldl_count, Nat.zero_add,
      List.length_filterMap_eq_countP]
  · rw [answer, ho]
    exact run_diagnosed _ (Provider.onlyReads_ofFiles read)

open CommandLine in
/-- A stream that breaks, an unclosed string, an empty file whose tokens are asked for and one that
is no program: two errors are reported. The records of a file with a comment are printed. -/
theorem reports_once_mixed :
    let quote : Provider := .ofFiles fun _ => .ok [0x22]
    let empty : Provider := .ofFiles fun _ => .ok []
    (Call.runAll .count 0 [.tokenizeReader ⟨[], some "broken"⟩ "a", .tokenize quote "a",
      .tokenize empty "a", .parse empty "a"]).2 = 2 ∧
    Request.ofCommandLine ["--comments", "a"] [] = .run ⟨"a", [.comments]⟩ ∧
    answer ["--comments", "a"] [] false (.ofFiles fun _ => .ok [0x78, 0x2F, 0x2F]) =
      ⟨0, ["a:1:1\tidentifier\t\"x\"", "a:1:4\tend of file\t\"\"",
        "a:1:2\tcomment\t\"//\""], []⟩ := by
  intro quote empty
  have hcalls : ∀ call ∈ [Call.tokenizeReader ⟨[], some "broken"⟩ "a", .tokenize quote "a",
      .tokenize empty "a", .parse empty "a"], call.OnlyReads := by
    intro call hcall
    simp only [List.mem_cons, List.not_mem_nil, or_false] at hcall
    rcases hcall with rfl | rfl | rfl | rfl
    · trivial
    all_goals exact Provider.onlyReads_ofFiles _
  have ho : Request.ofCommandLine ["--comments", "a"] [] = .run ⟨"a", [.comments]⟩ := by cbv
  obtain ⟨-, -, hcount, hdiagnosed⟩ := reports_once hcalls ho false
    fun _ => .ok [0x78, 0x2F, 0x2F]
  have hsucceeds : Succeeds ⟨"a", [.comments]⟩ (.ofFiles fun _ => .ok [0x78, 0x2F, 0x2F])
      ⟨⟨"a", "a", ['x', '/', '/'], 0⟩,
        ⟨[⟨.identifier, 0, ['x']⟩, endOfFile 3], [⟨.line, 1, ['/', '/']⟩]⟩⟩ :=
    ⟨by cbv, by cbv, fun h => absurd h (by decide)⟩
  have hcode := hdiagnosed.code.mpr ⟨_, hsucceeds⟩
  obtain ⟨hstderr, hstdout⟩ := hdiagnosed.succeeded _ hsucceeds
  refine ⟨?_, ho, ?_⟩
  · rw [hcount]
    cbv
  · generalize answer _ _ _ _ = left at hcode hstderr hstdout
    cases left with
    | mk code stdout stderr =>
      have hrecords := hstdout rfl
      simp only at hcode hstderr hrecords
      rw [hcode, hstderr, hrecords]
      rfl

end Frontend
