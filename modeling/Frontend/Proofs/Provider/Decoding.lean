import Frontend.Pipeline
import Frontend.Provider.FileTree
import Frontend.Provider.Memory
import Frontend.Proofs.Text.Utf8

/-!
# One way of decoding

A reader, files in memory, and a provider that decodes what it reads hand the same bytes to the same
decoder, so it makes no difference which of them a source comes from: bytes that are no text are
refused at the same place for the same reason. Files of the file system are read as text in one
step, which says that the bytes are no text, but not where or why.
-/

namespace Frontend

namespace Reader

/-- The reader delivers the bytes: it does not fail, and no piece before the last is empty. -/
def Delivers (r : Reader) (bytes : Bytes) : Prop :=
  r.failure = none ∧ [] ∉ r.pieces ∧ r.pieces.flatten = bytes

/-- Pieces are read one after the other. -/
theorem readPieces_eq (pieces : List Bytes) (h : [] ∉ pieces) :
    readPieces none pieces = .ok pieces.flatten := by
  induction pieces with
  | nil => rfl
  | cons piece pieces ih =>
    obtain ⟨hpiece, hpieces⟩ : [] ≠ piece ∧ [] ∉ pieces := by simpa using h
    cases piece with
    | nil => exact absurd rfl hpiece
    | cons b piece =>
      rw [readPieces, ih hpieces, List.flatten_cons]
      · rfl
      · exact fun hnil => hpiece hnil.symm

/-- A reader that delivers bytes is read to exactly these. -/
theorem Delivers.readAll_eq {r : Reader} {bytes : Bytes} (h : r.Delivers bytes) :
    r.readAll = .ok bytes := by
  obtain ⟨hfailure, hpieces, hflatten⟩ := h
  rw [readAll, hfailure, readPieces_eq r.pieces hpieces, hflatten]

/-- Bytes are delivered in pieces of any size, as long as there can be something in a piece. -/
theorem delivers_ofBytes {size : Nat} (hsize : 0 < size) (bytes : Bytes) :
    (ofBytes size bytes none).Delivers bytes := by
  have hpieces : [] ∉ piecesOf size bytes ∧ (piecesOf size bytes).flatten = bytes := by
    fun_induction piecesOf size bytes with
    | case1 => simp
    | case2 => omega
    | case3 n b rest ih =>
      obtain ⟨hpieces, hflatten⟩ := ih (Nat.succ_pos n)
      refine ⟨by simpa using hpieces, ?_⟩
      rw [List.flatten_cons, hflatten, List.cons_append, List.take_append_drop]
  exact ⟨rfl, hpieces⟩

end Reader

/-- What it means for bytes to be decoded the same way wherever they come from. -/
structure DecodedAlike (bytes : Bytes) : Prop where
  /-- The bytes of a text are decoded to the text, and no other bytes are decoded. -/
  text : ∀ t, decodeText bytes = .ok t ↔ bytes = Utf8.encode t
  /-- An error says how many bytes are those of a text, and what is wrong with those behind. -/
  invalid : ∀ e, decodeText bytes = .error e → ∃ i t rest, e = .notUtf8 i ∧
    bytes = Utf8.encode t ++ rest ∧ rest ≠ [] ∧ ¬Utf8.Starts rest ∧
      i.validUpTo = (Utf8.encode t).length ∧ Utf8.Stuck rest i.errorLength
  /-- A reader, in whatever pieces it delivers the bytes. -/
  reader : ∀ (r : Reader) name, r.Delivers bytes →
    SourceFile.ofReader name r = (decodeText bytes).map fun content => ⟨name, name, content, 0⟩
  /-- A file in memory. -/
  memory : ∀ (store : MemoryStore) path name, store.readBytes path = .ok bytes →
    SourceFile.load store.provider path name =
      (decodeText bytes).map fun content => ⟨path, name, content, 0⟩
  /-- A file of a provider that decodes the bytes it reads. -/
  decoded : ∀ readBytes path name, readBytes path = .ok bytes →
    SourceFile.load ⟨readBytes, Provider.decodedText readBytes⟩ path name =
      (decodeText bytes).map fun content => ⟨path, name, content, 0⟩
  /-- A file of the file system: the error does not say what is wrong. -/
  files : ∀ read path name, read path = .ok bytes →
    SourceFile.load (.ofFiles read) path name =
      ((decodeText bytes).mapError fun _ => FileError.notText.toError).map
        fun content => ⟨path, name, content, 0⟩
  /-- Tokenizing a file in memory and tokenizing what a reader delivers. -/
  tokenize : ∀ (σ : Type) (h : Handler Error σ) (s : σ) (store : MemoryStore) path (r : Reader),
    store.readBytes path = .ok bytes → r.Delivers bytes →
      Frontend.tokenize h store.provider path s = tokenizeReader h r path s
  /-- Tokenizing and parsing a file in memory and a file of the file system, if they are texts. -/
  calls : ∀ (σ : Type) (h : Handler Error σ) (s : σ) (store : MemoryStore) read path t,
    store.readBytes path = .ok bytes → read path = .ok bytes → bytes = Utf8.encode t →
      Frontend.tokenize h (.ofFiles read) path s = Frontend.tokenize h store.provider path s ∧
        Frontend.parse h (.ofFiles read) path s = Frontend.parse h store.provider path s
  /-- Neither tokenizing nor parsing goes on when a file in memory is no text. -/
  stops : ∀ (σ : Type) (h : Handler Error σ) (s : σ) (store : MemoryStore) path e,
    store.readBytes path = .ok bytes → decodeText bytes = .error e →
      Frontend.tokenize h store.provider path s = (.error e, s) ∧
        Frontend.parse h store.provider path s = (.error e, s)

section Decoding

variable {bytes : Bytes} {path : String}

/-- Bytes are decoded to a text exactly if they are its UTF-8 form. -/
theorem decodeText_eq_ok_iff {t : Text} : decodeText bytes = .ok t ↔ bytes = Utf8.encode t := by
  rw [← Utf8.decode_eq_ok_iff, decodeText]
  cases Utf8.decode bytes <;> simp

/-- An error of decoding is passed on as it is. -/
theorem exists_of_decodeText_eq_error {e : Error} (h : decodeText bytes = .error e) :
    ∃ i, e = .notUtf8 i ∧ Utf8.decode bytes = .error i := by
  unfold decodeText at h
  cases hdecode : Utf8.decode bytes with
  | ok t =>
    rw [hdecode] at h
    exact nomatch h
  | error i =>
    rw [hdecode] at h
    exact ⟨i, (Except.error.inj h).symm, rfl⟩

/-- A file is loaded with the text that its provider reads. -/
theorem load_congr {provider provider' : Provider} (name : String)
    (h : provider.readText path = provider'.readText path) :
    SourceFile.load provider path name = SourceFile.load provider' path name := by
  rw [SourceFile.load, h, SourceFile.load]

/-- A stage sees no more of a provider than the text that it reads. -/
theorem calls_congr {σ : Type} (h : Handler Error σ) (s : σ) {provider provider' : Provider}
    (htext : provider.readText path = provider'.readText path) :
    tokenize h provider path s = tokenize h provider' path s ∧
      parse h provider path s = parse h provider' path s := by
  have htokenize : tokenize h provider path s = tokenize h provider' path s := by
    rw [tokenize, load_congr path htext, tokenize]
  exact ⟨htokenize, by rw [parse, htokenize, parse]⟩

/-- Text in memory is read by decoding the bytes. -/
theorem MemoryStore.readText_eq {store : MemoryStore} (h : store.readBytes path = .ok bytes) :
    store.readText path = decodeText bytes := by
  rw [readText, h]

/-- The file system does not say what is wrong with the bytes. -/
theorem Provider.readText_ofFiles {read : String → Except FileError Bytes}
    (h : read path = .ok bytes) : (Provider.ofFiles read).readText path =
      (decodeText bytes).mapError fun _ => FileError.notText.toError := by
  unfold ofFiles decodeText
  simp only [h, bind, Except.bind]
  cases Utf8.decode bytes with
  | ok t => rfl
  | error i => rfl

end Decoding

/-- **Bytes are decoded the same way wherever they come from**, but for the file system, which agrees
on the texts and says less about bytes that are none. -/
theorem decodedAlike (bytes : Bytes) : DecodedAlike bytes where
  text _ := decodeText_eq_ok_iff
  invalid e he := by
    obtain ⟨i, rfl, hdecode⟩ := exists_of_decodeText_eq_error he
    obtain ⟨t, rest, hbytes, hne, hstarts, hvalid, hstuck⟩ :=
      Utf8.exists_of_decode_eq_error hdecode
    exact ⟨i, t, rest, rfl, hbytes, hne, hstarts, hvalid, hstuck⟩
  reader r name hr := by
    rw [SourceFile.ofReader, hr.readAll_eq]
    rfl
  memory store path name hread := by
    rw [SourceFile.load]
    exact congrArg (Except.map _) (MemoryStore.readText_eq hread)
  decoded readBytes path name hread := by
    rw [SourceFile.load]
    dsimp only
    rw [Provider.decodedText, hread]
    rfl
  files read path name hread := by
    rw [SourceFile.load, Provider.readText_ofFiles hread]
  tokenize σ h s store path r hread hr := by
    have htext : store.provider.readText path = decodeText bytes := MemoryStore.readText_eq hread
    rw [tokenizeReader, SourceFile.ofReader, hr.readAll_eq, Frontend.tokenize, SourceFile.load,
      htext]
    rfl
  calls σ h s store read path t hstore hread ht := by
    apply calls_congr
    rw [Provider.readText_ofFiles hread, decodeText_eq_ok_iff.mpr ht]
    exact ((MemoryStore.readText_eq hstore).trans (decodeText_eq_ok_iff.mpr ht)).symm
  stops σ h s store path e hread he := by
    have htext : store.provider.readText path = .error e :=
      (MemoryStore.readText_eq hread).trans he
    have hload : SourceFile.load store.provider path path = .error e := by
      rw [SourceFile.load, htext]
      rfl
    have htokenize : Frontend.tokenize h store.provider path s = (.error e, s) := by
      rw [Frontend.tokenize, hload, tokenizeLoaded]
    exact ⟨htokenize, by rw [parse, htokenize]⟩

/-- A byte that starts no character: in memory and from a reader the error says where it stands, from
the file system it does not. -/
theorem not_decodedAlike_files :
    let store := MemoryStore.empty.add "a" [0xFF]
    let tree := FileTree.ofFiles [("a", [0xFF])]
    (Reader.ofBytes 1 [0xFF] none).Delivers [0xFF] ∧ store.readBytes "a" = .ok [0xFF] ∧
      tree.read "a" = .ok [0xFF] ∧
      SourceFile.ofReader "a" (Reader.ofBytes 1 [0xFF] none) = .error (.notUtf8 ⟨0, some 1⟩) ∧
      SourceFile.load store.provider "a" "a" = .error (.notUtf8 ⟨0, some 1⟩) ∧
      SourceFile.load (tree.provider ".") "a" "a" =
        .error (.unreadable "stream did not contain valid UTF-8") := by
  intro store tree
  refine ⟨Reader.delivers_ofBytes Nat.one_pos [0xFF], ?_, ?_, ?_, ?_, ?_⟩
  all_goals cbv

end Frontend
