import Mathlib
import Frontend.Text.Utf8

/-!
# Reading UTF-8 inverts writing it

A character is written in one to four bytes, of which the first says how many follow. `units` gives
their values; everything about ranges is read off it. While a character is read, `Pending` stands
for the bytes of it that have been seen: what may follow them is what completes a character. So a
text is read back from its bytes, and reading stops nowhere else than behind the longest text that
the bytes begin with.
-/

namespace Frontend.Utf8

/-- The bytes of a text. -/
def encode (t : Text) : Bytes :=
  t.flatMap String.utf8EncodeChar

/-- The empty text has no bytes. -/
@[simp] theorem encode_nil : encode [] = [] := rfl

/-- The bytes of a text are those of its characters, one after the other. -/
@[simp] theorem encode_cons (c : Char) (t : Text) :
    encode (c :: t) = String.utf8EncodeChar c ++ encode t := rfl

/-- There are as many bytes as the size of a text counts. -/
@[simp] theorem length_encode (t : Text) : (encode t).length = Text.size t := by
  induction t with
  | nil => rfl
  | cons c t ih => rw [encode_cons, List.length_append, String.length_utf8EncodeChar, ih,
      Text.size_cons]

/-! ## The bytes of a character -/

/-- The values of the bytes of the character with a number. -/
def units (v : Nat) : List Nat :=
  if v < 0x80 then [v]
  else if v < 0x800 then [0xC0 + v / 64, 0x80 + v % 64]
  else if v < 0x10000 then [0xE0 + v / 4096, 0x80 + v / 64 % 64, 0x80 + v % 64]
  else [0xF0 + v / 262144, 0x80 + v / 4096 % 64, 0x80 + v / 64 % 64, 0x80 + v % 64]

/-- Surrogates are no characters. -/
theorem toNat_cases (c : Char) :
    c.toNat < 0xD800 ∨ 0xDFFF < c.toNat ∧ c.toNat < 0x110000 :=
  c.valid

/-- Every byte has room for its value. -/
theorem map_toNat_encodeChar (c : Char) :
    (String.utf8EncodeChar c).map UInt8.toNat = units c.toNat := by
  have hval : c.val.toNat = c.toNat := rfl
  have hc := toNat_cases c
  unfold String.utf8EncodeChar units
  simp only [hval]
  generalize c.toNat = v at hc
  by_cases hone : v < 0x80
  · rw [if_pos (by omega), if_pos hone]
    simp only [List.map_cons, List.map_nil, UInt8.toNat_ofNat', List.cons.injEq, and_true]
    omega
  by_cases htwo : v < 0x800
  · rw [if_neg (by omega), if_neg hone, if_pos (by omega), if_pos htwo]
    simp only [List.map_cons, List.map_nil, UInt8.toNat_ofNat', List.cons.injEq, and_true]
    omega
  by_cases hthree : v < 0x10000
  · rw [if_neg (by omega), if_neg hone, if_neg (by omega), if_neg htwo, if_pos (by omega),
      if_pos hthree]
    simp only [List.map_cons, List.map_nil, UInt8.toNat_ofNat', List.cons.injEq, and_true]
    omega
  · rw [if_neg (by omega), if_neg hone, if_neg (by omega), if_neg htwo, if_neg (by omega),
      if_neg hthree]
    simp only [List.map_cons, List.map_nil, UInt8.toNat_ofNat', List.cons.injEq, and_true]
    omega

/-- Bytes are told by their values. -/
theorem encodeChar_eq_iff {c : Char} {bytes : Bytes} :
    String.utf8EncodeChar c = bytes ↔ units c.toNat = bytes.map UInt8.toNat := by
  rw [← map_toNat_encodeChar]
  constructor
  · rintro rfl
    rfl
  · exact fun h => List.map_injective_iff.mpr (fun _ _ => UInt8.toNat_inj.mp) h

section Units

variable {c : Char} {u u₁ u₂ u₃ : Nat} {us : List Nat}

/-- The first byte of a character says how many follow. -/
theorem units_eq_cons (h : units c.toNat = u :: us) :
    u < 128 ∧ us.length = 0 ∨ (194 ≤ u ∧ u ≤ 223) ∧ us.length = 1 ∨
      (224 ≤ u ∧ u ≤ 239) ∧ us.length = 2 ∨ (240 ≤ u ∧ u ≤ 244) ∧ us.length = 3 := by
  have hc := toNat_cases c
  unfold units at h
  split_ifs at h <;> obtain ⟨rfl, rfl⟩ := List.cons.inj h <;>
    simp only [List.length_cons, List.length_nil, and_true] <;> omega

/-- One byte is the value itself. -/
theorem units_one : units c.toNat = [u] ↔ u < 128 ∧ c.toNat = u := by
  unfold units
  split_ifs <;> simp only [List.cons.injEq, reduceCtorEq, and_false, and_true, false_iff] <;> omega

/-- Two bytes are not needed for the values that one of them holds. -/
theorem units_two : units c.toNat = [u, u₁] ↔
    (194 ≤ u ∧ u ≤ 223) ∧ (128 ≤ u₁ ∧ u₁ ≤ 191) ∧ c.toNat = (u - 192) * 64 + u₁ % 64 := by
  unfold units
  split_ifs <;> simp only [List.cons.injEq, reduceCtorEq, and_false, and_true, false_iff] <;> omega

/-- Three bytes are not needed for the smallest values, and surrogates are not written. -/
theorem units_three : units c.toNat = [u, u₁, u₂] ↔
    (224 ≤ u ∧ u ≤ 239) ∧
      (128 ≤ u₁ ∧ u₁ ≤ 191) ∧ (u = 224 → 160 ≤ u₁) ∧ (u = 237 → u₁ ≤ 159) ∧
      (128 ≤ u₂ ∧ u₂ ≤ 191) ∧ c.toNat = ((u - 224) * 64 + u₁ % 64) * 64 + u₂ % 64 := by
  have hc := toNat_cases c
  unfold units
  split_ifs <;> simp only [List.cons.injEq, reduceCtorEq, and_false, and_true, false_iff] <;> omega

/-- Four bytes are not needed for the smallest values, and there is a greatest character. -/
theorem units_four : units c.toNat = [u, u₁, u₂, u₃] ↔
    (240 ≤ u ∧ u ≤ 244) ∧
      (128 ≤ u₁ ∧ u₁ ≤ 191) ∧ (u = 240 → 144 ≤ u₁) ∧ (u = 244 → u₁ ≤ 143) ∧
      (128 ≤ u₂ ∧ u₂ ≤ 191) ∧ (128 ≤ u₃ ∧ u₃ ≤ 191) ∧
      c.toNat = (((u - 240) * 64 + u₁ % 64) * 64 + u₂ % 64) * 64 + u₃ % 64 := by
  have hc := toNat_cases c
  unfold units
  split_ifs <;> simp only [List.cons.injEq, reduceCtorEq, and_false, and_true, false_iff] <;> omega

end Units

/-! ## A character that is being read -/

/-- A character that is being read, with one more byte seen and some to follow the next one. -/
abbrev Pending.next (p : Pending) (b : UInt8) (after : Nat) : Pending :=
  ⟨p.start, p.seen + 1, after, 0x80, 0xBF, p.value * 64 + b.toNat % 64⟩

/-- The bytes that complete a character that is being read, and the number of the character. -/
inductive Pending.Completes : Pending → Bytes → Nat → Prop
  | last {p : Pending} {b : UInt8} (hafter : p.after = 0) (hb : p.low ≤ b ∧ b ≤ p.high) :
    Completes p [b] (p.value * 64 + b.toNat % 64)
  | more {p : Pending} {b : UInt8} {after code : Nat} {rest : Bytes}
    (hafter : p.after = after + 1) (hb : p.low ≤ b ∧ b ≤ p.high)
    (h : Completes (p.next b after) rest code) : Completes p (b :: rest) code

namespace Pending

variable {p : Pending} {more : Bytes} {code after : Nat}

/-- If no byte follows the next one, that one completes the character. -/
theorem completes_zero (hafter : p.after = 0) :
    p.Completes more code ↔ ∃ b, more = [b] ∧ (p.low ≤ b ∧ b ≤ p.high) ∧
      code = p.value * 64 + b.toNat % 64 := by
  constructor
  · intro h
    cases h with
    | last _ hb => exact ⟨_, rfl, hb, rfl⟩
    | more hmore => omega
  · rintro ⟨b, rfl, hb, rfl⟩
    exact .last hafter hb

/-- If bytes follow the next one, they complete the character that is read with it. -/
theorem completes_succ (hafter : p.after = after + 1) :
    p.Completes more code ↔ ∃ b rest, more = b :: rest ∧ (p.low ≤ b ∧ b ≤ p.high) ∧
      (p.next b after).Completes rest code := by
  constructor
  · intro h
    cases h with
    | last hlast => omega
    | more hmore hb h =>
      obtain rfl := Nat.add_right_cancel (hmore.symm.trans hafter)
      exact ⟨_, _, rfl, hb, h⟩
  · rintro ⟨b, rest, rfl, hb, h⟩
    exact .more hafter hb h

/-- If one byte follows the next one, the two complete the character, and only the first is bound to
the range at hand. -/
theorem completes_one (hafter : p.after = 1) :
    p.Completes more code ↔ ∃ b b', more = [b, b'] ∧ (p.low ≤ b ∧ b ≤ p.high) ∧
      (0x80 ≤ b' ∧ b' ≤ 0xBF) ∧
      code = (p.value * 64 + b.toNat % 64) * 64 + b'.toNat % 64 := by
  rw [completes_succ hafter]
  constructor
  · rintro ⟨b, rest, rfl, hb, h⟩
    obtain ⟨b', rfl, hb', rfl⟩ := (completes_zero rfl).mp h
    exact ⟨b, b', rfl, hb, hb', rfl⟩
  · rintro ⟨b, b', rfl, hb, hb', rfl⟩
    exact ⟨b, _, rfl, hb, (completes_zero rfl).mpr ⟨b', rfl, hb', rfl⟩⟩

/-- If two bytes follow the next one, the three complete the character, and only the first is bound
to the range at hand. -/
theorem completes_two (hafter : p.after = 2) :
    p.Completes more code ↔ ∃ b b' b'', more = [b, b', b''] ∧ (p.low ≤ b ∧ b ≤ p.high) ∧
      (0x80 ≤ b' ∧ b' ≤ 0xBF) ∧ (0x80 ≤ b'' ∧ b'' ≤ 0xBF) ∧
      code = ((p.value * 64 + b.toNat % 64) * 64 + b'.toNat % 64) * 64 + b''.toNat % 64 := by
  rw [completes_succ hafter]
  constructor
  · rintro ⟨b, rest, rfl, hb, h⟩
    obtain ⟨b', b'', rfl, hb', hb'', rfl⟩ := (completes_one rfl).mp h
    exact ⟨b, b', b'', rfl, hb, hb', hb'', rfl⟩
  · rintro ⟨b, b', b'', rfl, hb, hb', hb'', rfl⟩
    exact ⟨b, _, rfl, hb, (completes_one rfl).mpr ⟨b', b'', rfl, hb', hb'', rfl⟩⟩

end Pending

/-- A byte that follows the first byte of a character. -/
theorem mem_tail_iff {b : UInt8} : (0x80 ≤ b ∧ b ≤ 0xBF) ↔ 128 ≤ b.toNat ∧ b.toNat ≤ 191 := by
  simp only [UInt8.le_iff_toNat_le, UInt8.toNat_ofNat]

/-- What the first byte of a character of several bytes says: their number, the bits in it, and the
range of the next byte. -/
theorem pendingOf?_eq_some {start : Nat} {b : UInt8} {p : Pending}
    (h : pendingOf? start b = some p) : p.start = start ∧ p.seen = 1 ∧
      (p.after = 0 ∧ (194 ≤ b.toNat ∧ b.toNat ≤ 223) ∧ p.value = b.toNat - 192 ∧
          (∀ b', (p.low ≤ b' ∧ b' ≤ p.high) ↔ 128 ≤ b'.toNat ∧ b'.toNat ≤ 191) ∨
        p.after = 1 ∧ (224 ≤ b.toNat ∧ b.toNat ≤ 239) ∧ p.value = b.toNat - 224 ∧
          (∀ b', (p.low ≤ b' ∧ b' ≤ p.high) ↔ (128 ≤ b'.toNat ∧ b'.toNat ≤ 191) ∧
            (b.toNat = 224 → 160 ≤ b'.toNat) ∧ (b.toNat = 237 → b'.toNat ≤ 159)) ∨
        p.after = 2 ∧ (240 ≤ b.toNat ∧ b.toNat ≤ 244) ∧ p.value = b.toNat - 240 ∧
          (∀ b', (p.low ≤ b' ∧ b' ≤ p.high) ↔ (128 ≤ b'.toNat ∧ b'.toNat ≤ 191) ∧
            (b.toNat = 240 → 144 ≤ b'.toNat) ∧ (b.toNat = 244 → b'.toNat ≤ 143))) := by
  simp only [pendingOf?, UInt8.le_iff_toNat_le, ← UInt8.toNat_inj, UInt8.toNat_ofNat] at h
  simp only [UInt8.le_iff_toNat_le]
  split_ifs at h <;> obtain rfl := Option.some.inj h
  · refine ⟨rfl, rfl, .inl ⟨rfl, by omega, by dsimp only; omega, fun b' => ?_⟩⟩
    simp only [UInt8.toNat_ofNat]
  iterate 3
    · refine ⟨rfl, rfl, .inr (.inl ⟨rfl, by omega, by dsimp only; omega, fun b' => ?_⟩)⟩
      simp only [UInt8.toNat_ofNat]
      omega
  iterate 3
    · refine ⟨rfl, rfl, .inr (.inr ⟨rfl, by omega, by dsimp only; omega, fun b' => ?_⟩)⟩
      simp only [UInt8.toNat_ofNat]
      omega

/-- No character of several bytes starts with any other byte. -/
theorem pendingOf?_eq_none {start : Nat} {b : UInt8} (h : pendingOf? start b = none) :
    b.toNat < 194 ∨ 244 < b.toNat := by
  simp only [pendingOf?, UInt8.le_iff_toNat_le, ← UInt8.toNat_inj, UInt8.toNat_ofNat] at h
  split_ifs at h
  omega

/-- What completes the first byte of a character of several bytes are the other bytes of it. -/
theorem encodeChar_eq_cons_iff {start : Nat} {b : UInt8} {p : Pending}
    (h : pendingOf? start b = some p) (c : Char) (more : Bytes) :
    String.utf8EncodeChar c = b :: more ↔ p.Completes more c.toNat := by
  rw [encodeChar_eq_iff, List.map_cons]
  obtain ⟨-, -, ⟨hafter, hb, hvalue, hnext⟩ | ⟨hafter, hb, hvalue, hnext⟩ |
    ⟨hafter, hb, hvalue, hnext⟩⟩ := pendingOf?_eq_some h
  · simp only [Pending.completes_zero hafter, hnext, hvalue]
    constructor
    · intro hc
      obtain ⟨b', rfl⟩ : ∃ b', more = [b'] := by
        have hlength := units_eq_cons hc
        rw [List.length_map] at hlength
        exact List.length_eq_one_iff.mp (by omega)
      obtain ⟨-, hb', hcode⟩ := units_two.mp hc
      exact ⟨b', rfl, hb', hcode⟩
    · rintro ⟨b', rfl, hb', hcode⟩
      exact units_two.mpr ⟨hb, hb', hcode⟩
  · simp only [Pending.completes_one hafter, hnext, hvalue, mem_tail_iff]
    constructor
    · intro hc
      obtain ⟨b', b'', rfl⟩ : ∃ b' b'', more = [b', b''] := by
        have hlength := units_eq_cons hc
        rw [List.length_map] at hlength
        exact List.length_eq_two.mp (by omega)
      obtain ⟨-, hb', hlow, hhigh, hb'', hcode⟩ := units_three.mp hc
      exact ⟨b', b'', rfl, ⟨hb', hlow, hhigh⟩, hb'', hcode⟩
    · rintro ⟨b', b'', rfl, ⟨hb', hlow, hhigh⟩, hb'', hcode⟩
      exact units_three.mpr ⟨hb, hb', hlow, hhigh, hb'', hcode⟩
  · simp only [Pending.completes_two hafter, hnext, hvalue, mem_tail_iff]
    constructor
    · intro hc
      obtain ⟨b₁, b₂, b₃, rfl⟩ : ∃ b₁ b₂ b₃, more = [b₁, b₂, b₃] := by
        have hlength := units_eq_cons hc
        rw [List.length_map] at hlength
        exact List.length_eq_three.mp (by omega)
      obtain ⟨-, hb₁, hlow, hhigh, hb₂, hb₃, hcode⟩ := units_four.mp hc
      exact ⟨b₁, b₂, b₃, rfl, ⟨hb₁, hlow, hhigh⟩, hb₂, hb₃, hcode⟩
    · rintro ⟨b₁, b₂, b₃, rfl, ⟨hb₁, hlow, hhigh⟩, hb₂, hb₃, hcode⟩
      exact units_four.mpr ⟨hb, hb₁, hlow, hhigh, hb₂, hb₃, hcode⟩

/-- What completes a character leads to the number of one. -/
theorem isValidChar_of_completes {start : Nat} {b : UInt8} {p : Pending}
    (h : pendingOf? start b = some p) {more : Bytes} {code : Nat} (hmore : p.Completes more code) :
    code.isValidChar := by
  obtain ⟨-, -, ⟨hafter, hb, hvalue, hnext⟩ | ⟨hafter, hb, hvalue, hnext⟩ |
    ⟨hafter, hb, hvalue, hnext⟩⟩ := pendingOf?_eq_some h
  · simp only [Pending.completes_zero hafter, hnext, hvalue] at hmore
    obtain ⟨b', -, hb', rfl⟩ := hmore
    exact .inl (by omega)
  · simp only [Pending.completes_one hafter, hnext, hvalue, mem_tail_iff] at hmore
    obtain ⟨b', b'', -, hb', hb'', rfl⟩ := hmore
    unfold Nat.isValidChar
    omega
  · simp only [Pending.completes_two hafter, hnext, hvalue, mem_tail_iff] at hmore
    obtain ⟨b₁, b₂, b₃, -, hb₁, hb₂, hb₃, rfl⟩ := hmore
    unfold Nat.isValidChar
    omega

/-- A character is being read, and some bytes of it have been seen. -/
structure Pending.Behind (p : Pending) (seen : Bytes) : Prop where
  /-- What completes the character are the other bytes of it. -/
  completes_iff : ∀ c more, String.utf8EncodeChar c = seen ++ more ↔ p.Completes more c.toNat
  valid : ∀ {more code}, p.Completes more code → code.isValidChar
  length_seen : seen.length = p.seen
  seen_pos : 0 < p.seen
  low_le_high : p.low ≤ p.high

namespace Pending.Behind

variable {p : Pending} {seen more : Bytes} {b : UInt8} {after code : Nat}

/-- The byte that starts a character of several bytes has been seen of it. -/
theorem of_pendingOf? {start : Nat} (h : pendingOf? start b = some p) : p.Behind [b] where
  completes_iff := encodeChar_eq_cons_iff h
  valid := isValidChar_of_completes h
  length_seen := (pendingOf?_eq_some h).2.1.symm
  seen_pos := by
    rw [(pendingOf?_eq_some h).2.1]
    exact Nat.one_pos
  low_le_high := by
    simp only [pendingOf?] at h
    split_ifs at h <;> obtain rfl := Option.some.inj h <;> dsimp only <;> decide

/-- One more byte has been seen, and it is not the last one. -/
theorem next (h : p.Behind seen) (hafter : p.after = after + 1) (hb : p.low ≤ b ∧ b ≤ p.high) :
    (p.next b after).Behind (seen ++ [b]) where
  completes_iff c more := by
    rw [List.append_assoc, h.completes_iff, completes_succ hafter]
    constructor
    · rintro ⟨b', rest, heq, -, hrest⟩
      obtain ⟨rfl, rfl⟩ := List.cons.inj heq
      exact hrest
    · exact fun hrest => ⟨b, more, rfl, hb, hrest⟩
  valid hmore := h.valid (.more hafter hb hmore)
  length_seen := by rw [List.length_append, h.length_seen, List.length_singleton]
  seen_pos := Nat.succ_pos p.seen
  low_le_high := by dsimp only; decide

/-- What completes the character makes up a character with the bytes seen. -/
theorem exists_char (h : p.Behind seen) (hmore : p.Completes more code) :
    String.utf8EncodeChar (Char.ofNat code) = seen ++ more := by
  rw [h.completes_iff, Char.toNat_ofNat, if_pos (h.valid hmore)]
  exact hmore

end Pending.Behind

/-- Something completes a character that is being read. -/
theorem Pending.exists_completes (p : Pending) (h : p.low ≤ p.high) :
    ∃ more code, p.Completes more code := by
  have hlow : p.low ≤ p.low ∧ p.low ≤ p.high := ⟨UInt8.le_refl _, h⟩
  generalize hafter : p.after = after
  induction after generalizing p with
  | zero => exact ⟨_, _, .last hafter hlow⟩
  | succ after ih =>
    have hnext : (p.next p.low after).low ≤ (p.next p.low after).high := by dsimp only; decide
    obtain ⟨more, code, hmore⟩ := ih (p.next p.low after) hnext ⟨UInt8.le_refl _, hnext⟩ rfl
    exact ⟨_, _, .more hafter hlow hmore⟩

/-! ## Reading -/

section Reading

variable {p : Pending} {b : UInt8} {rest : Bytes} {after : Nat}

/-- With its last byte a character is read, and the next byte starts another. -/
theorem decodeFrom_last (offset : Nat) (hafter : p.after = 0) (hb : p.low ≤ b ∧ b ≤ p.high) :
    decodeFrom offset (some p) (b :: rest) =
      (decodeFrom (offset + 1) none rest).map (Char.ofNat (p.value * 64 + b.toNat % 64) :: ·) := by
  rw [decodeFrom, if_pos hb, hafter]

/-- With a byte in its middle a character is read on, and more bytes are to follow. -/
theorem decodeFrom_more (offset : Nat) (hafter : p.after = after + 1)
    (hb : p.low ≤ b ∧ b ≤ p.high) :
    decodeFrom offset (some p) (b :: rest) =
      decodeFrom (offset + 1) (some (p.next b after)) rest := by
  rw [decodeFrom, if_pos hb, hafter]

/-- A byte that cannot follow stops the reading at the start of the character. -/
theorem decodeFrom_wrong (offset : Nat) (hb : ¬(p.low ≤ b ∧ b ≤ p.high)) :
    decodeFrom offset (some p) (b :: rest) = .error ⟨p.start, some p.seen⟩ := by
  rw [decodeFrom, if_neg hb]

/-- Bytes that complete a character are read to their end. -/
theorem Pending.Completes.decodeFrom {more : Bytes} {code : Nat} (h : p.Completes more code)
    (offset : Nat) (rest : Bytes) :
    decodeFrom offset (some p) (more ++ rest) =
      (Utf8.decodeFrom (offset + more.length) none rest).map (Char.ofNat code :: ·) := by
  induction h generalizing offset with
  | last hafter hb => exact decodeFrom_last offset hafter hb
  | more hafter hb h ih =>
    rw [List.cons_append, decodeFrom_more offset hafter hb, ih, List.length_cons, Nat.add_assoc,
      Nat.add_comm 1]

end Reading

/-- A character is read off its bytes, whatever follows them. -/
theorem decodeFrom_encodeChar (offset : Nat) (c : Char) (rest : Bytes) :
    decodeFrom offset none (String.utf8EncodeChar c ++ rest) =
      (decodeFrom (offset + c.utf8Size) none rest).map (c :: ·) := by
  obtain ⟨b, more, hc⟩ := List.exists_cons_of_ne_nil (String.utf8EncodeChar_ne_nil (c := c))
  have hsize : c.utf8Size = more.length + 1 := by
    rw [← String.length_utf8EncodeChar, hc, List.length_cons]
  have hunits := encodeChar_eq_iff.mp hc
  rw [List.map_cons] at hunits
  have hlead := units_eq_cons hunits
  rw [List.length_map] at hlead
  rw [hc, List.cons_append, decodeFrom, hsize, ← Nat.add_assoc, Nat.add_right_comm]
  by_cases hascii : b < 0x80
  · have hb : b.toNat < 128 := UInt8.lt_iff_toNat_lt.mp hascii
    obtain rfl : more = [] := List.length_eq_zero_iff.mp (by omega)
    have hcode : c.toNat = b.toNat := (units_one.mp hunits).2
    rw [if_pos hascii, ← hcode, Char.ofNat_toNat]
    rfl
  · have hb : 128 ≤ b.toNat := Nat.le_of_not_lt fun hlt => hascii (UInt8.lt_iff_toNat_lt.mpr hlt)
    rw [if_neg hascii]
    cases hp : pendingOf? offset b with
    | none =>
      have hnone := pendingOf?_eq_none hp
      omega
    | some p =>
      have hmore := (encodeChar_eq_cons_iff hp c more).mp hc
      dsimp only
      rw [hmore.decodeFrom, Char.ofNat_toNat]

/-- A text is read off its bytes, whatever follows them. -/
theorem decodeFrom_encode (offset : Nat) (t : Text) (rest : Bytes) :
    decodeFrom offset none (encode t ++ rest) =
      (decodeFrom (offset + Text.size t) none rest).map (t ++ ·) := by
  induction t generalizing offset with
  | nil =>
    rw [encode_nil, List.nil_append, Text.size_nil, Nat.add_zero]
    cases decodeFrom offset none rest <;> rfl
  | cons c t ih =>
    rw [encode_cons, List.append_assoc, decodeFrom_encodeChar, ih, Text.size_cons, Nat.add_assoc]
    cases decodeFrom (offset + (c.utf8Size + Text.size t)) none rest <;> rfl

/-- No character goes on where another one has ended. -/
theorem eq_of_encodeChar_append {c c' : Char} {more : Bytes}
    (h : String.utf8EncodeChar c' = String.utf8EncodeChar c ++ more) : c' = c ∧ more = [] := by
  have hlong := decodeFrom_encodeChar 0 c' []
  rw [List.append_nil, h, decodeFrom_encodeChar] at hlong
  obtain rfl : c' = c := by
    cases hmore : decodeFrom (0 + c.utf8Size) none more with
    | error e =>
      rw [hmore] at hlong
      exact nomatch hlong
    | ok t =>
      rw [hmore] at hlong
      exact (List.cons.inj (Except.ok.inj hlong)).1.symm
  exact ⟨rfl, List.append_right_eq_self.mp h.symm⟩

/-! ## Where reading stops -/

/-- Bytes that a character could go on from. -/
def Begins (bytes : Bytes) : Prop :=
  ∃ c more, more ≠ [] ∧ String.utf8EncodeChar c = bytes ++ more

/-- A character stands in front of the bytes. -/
def Starts (bytes : Bytes) : Prop :=
  ∃ c rest, bytes = String.utf8EncodeChar c ++ rest

/-- Why no character stands in front of bytes that are left: the bytes end inside of one, or so many
of them, which could begin a character unless it is only one, do not go on like one. -/
inductive Stuck (bytes : Bytes) : Option Nat → Prop
  | inside (h : Begins bytes) : Stuck bytes none
  | wrong {n : Nat} (hpos : 0 < n) (hle : n ≤ bytes.length)
    (hbegin : n = 1 ∨ Begins (bytes.take n)) (hstop : ¬Begins (bytes.take (n + 1))) :
    Stuck bytes (some n)

/-- A character that is being read has not been read. -/
theorem Begins.not_starts {bytes : Bytes} (h : Begins bytes) : ¬Starts bytes := by
  rintro ⟨c, rest, rfl⟩
  obtain ⟨c', more, hmore, hc⟩ := h
  rw [List.append_assoc] at hc
  exact hmore (List.append_eq_nil_iff.mp (eq_of_encodeChar_append hc).2).2

namespace Pending.Behind

variable {p : Pending} {seen : Bytes}

/-- What has been seen of a character is the beginning of one. -/
theorem begins (h : p.Behind seen) : Begins seen := by
  obtain ⟨more, code, hmore⟩ := p.exists_completes h.low_le_high
  refine ⟨_, more, ?_, h.exists_char hmore⟩
  cases hmore <;> exact List.cons_ne_nil _ _

/-- No character goes on with a byte outside of the range. -/
theorem not_encodeChar (h : p.Behind seen) {b : UInt8} (hb : ¬(p.low ≤ b ∧ b ≤ p.high)) (c : Char)
    (more : Bytes) : String.utf8EncodeChar c ≠ seen ++ b :: more := by
  intro hc
  have hmore := (h.completes_iff c (b :: more)).mp hc
  generalize c.toNat = code at hmore
  cases hmore with
  | last _ hin => exact hb hin
  | more _ hin => exact hb hin

/-- No character stands in front of bytes that go on with a byte outside of the range. -/
theorem not_starts (h : p.Behind seen) {b : UInt8} (hb : ¬(p.low ≤ b ∧ b ≤ p.high))
    (bytes : Bytes) : ¬Starts (seen ++ b :: bytes) := by
  rintro ⟨c, rest, hc⟩
  rcases List.append_eq_append_iff.mp hc with ⟨back, hback, hrest⟩ | ⟨back, hback, -⟩
  · rcases List.cons_eq_append_iff.mp hrest with ⟨rfl, -⟩ | ⟨more, rfl, -⟩
    · exact h.begins.not_starts ⟨c, [], by rw [hback, List.append_nil, List.append_nil]⟩
    · exact h.not_encodeChar hb c more hback
  · exact h.begins.not_starts ⟨c, back, hback⟩

/-- From inside a character, reading comes to its end or stops before it. -/
theorem decodeFrom_cases (h : p.Behind seen) (offset : Nat) (bytes : Bytes) :
    (∃ c more rest, bytes = more ++ rest ∧ String.utf8EncodeChar c = seen ++ more ∧
      decodeFrom offset (some p) bytes =
        (decodeFrom (offset + more.length) none rest).map (c :: ·)) ∨
    ¬Starts (seen ++ bytes) ∧ ∃ n, Stuck (seen ++ bytes) n ∧
      decodeFrom offset (some p) bytes = .error ⟨p.start, n⟩ := by
  induction bytes generalizing p seen offset with
  | nil =>
    rw [List.append_nil]
    exact .inr ⟨h.begins.not_starts, none, .inside h.begins, by rw [decodeFrom]⟩
  | cons b bytes ih =>
    by_cases hb : p.low ≤ b ∧ b ≤ p.high
    · cases hafter : p.after with
      | zero =>
        have hmore : p.Completes [b] _ := .last hafter hb
        exact .inl ⟨_, [b], bytes, rfl, h.exists_char hmore, decodeFrom_last offset hafter hb⟩
      | succ after =>
        rw [decodeFrom_more offset hafter hb]
        rcases ih (h.next hafter hb) (offset + 1) with
          ⟨c, more, rest, rfl, hc, hread⟩ | ⟨hstarts, n, hstuck, hread⟩
        · refine .inl ⟨c, b :: more, rest, rfl, ?_, ?_⟩
          · rw [hc, List.append_assoc]
            rfl
          · rw [hread, List.length_cons, Nat.add_assoc, Nat.add_comm 1]
        · rw [List.append_assoc] at hstarts hstuck
          exact .inr ⟨hstarts, n, hstuck, hread⟩
    · -- the byte is out of range: what was seen begins a character, but none that goes on with it
      have hseen : 0 < seen.length := h.length_seen ▸ h.seen_pos
      refine .inr ⟨h.not_starts hb bytes, some seen.length, .wrong hseen ?_ (.inr ?_) ?_, ?_⟩
      · rw [List.length_append]
        omega
      · rw [List.take_left]
        exact h.begins
      · rw [List.take_length_add_append]
        rintro ⟨c, more, -, hc⟩
        rw [List.append_assoc] at hc
        exact h.not_encodeChar hb c more hc
      · rw [decodeFrom_wrong offset hb, h.length_seen]

end Pending.Behind

/-- Between characters, reading comes to the end of the next character or stops before it. -/
theorem decodeFrom_cases (offset : Nat) {bytes : Bytes} (hne : bytes ≠ []) :
    (∃ c rest, bytes = String.utf8EncodeChar c ++ rest ∧ decodeFrom offset none bytes =
        (decodeFrom (offset + c.utf8Size) none rest).map (c :: ·)) ∨
    ¬Starts bytes ∧ ∃ n, Stuck bytes n ∧ decodeFrom offset none bytes = .error ⟨offset, n⟩ := by
  by_cases hstarts : Starts bytes
  · obtain ⟨c, rest, rfl⟩ := hstarts
    exact .inl ⟨c, rest, rfl, decodeFrom_encodeChar offset c rest⟩
  refine .inr ⟨hstarts, ?_⟩
  obtain ⟨b, rest, rfl⟩ := List.exists_cons_of_ne_nil hne
  have hascii : ¬b < 0x80 := by
    intro hlt
    have hb : b.toNat < 128 := UInt8.lt_iff_toNat_lt.mp hlt
    have hcode : (Char.ofNat b.toNat).toNat = b.toNat := by
      rw [Char.toNat_ofNat, if_pos (.inl (by omega))]
    have hc : String.utf8EncodeChar (Char.ofNat b.toNat) = [b] :=
      encodeChar_eq_iff.mpr (units_one.mpr ⟨hb, hcode⟩)
    exact hstarts ⟨_, rest, by rw [hc]; rfl⟩
  rw [decodeFrom, if_neg hascii]
  cases hp : pendingOf? offset b with
  | some p =>
    have hbehind := Pending.Behind.of_pendingOf? hp
    rcases hbehind.decodeFrom_cases (offset + 1) rest with
      ⟨c, more, rest, rfl, hc, -⟩ | ⟨-, n, hstuck, hread⟩
    · exact absurd ⟨c, rest, by rw [hc]; rfl⟩ hstarts
    · rw [(pendingOf?_eq_some hp).1] at hread
      exact ⟨n, hstuck, hread⟩
  | none =>
    refine ⟨some 1, .wrong Nat.one_pos (by simp) (.inl rfl) ?_, rfl⟩
    rintro ⟨c, more, -, hc⟩
    have hunits := encodeChar_eq_iff.mp hc
    rw [List.take_succ_cons, List.cons_append, List.map_cons] at hunits
    have hlead := units_eq_cons hunits
    have hnone := pendingOf?_eq_none hp
    have hb : 128 ≤ b.toNat := Nat.le_of_not_lt fun hlt => hascii (UInt8.lt_iff_toNat_lt.mpr hlt)
    omega

/-- Bytes are those of a text, up to a place where no character stands. -/
theorem exists_longest (bytes : Bytes) : ∃ t rest, bytes = encode t ++ rest ∧ ¬Starts rest := by
  induction hn : bytes.length using Nat.strong_induction_on generalizing bytes with
  | _ n ih =>
    by_cases hstarts : Starts bytes
    · obtain ⟨c, rest, rfl⟩ := hstarts
      have hpos := c.utf8Size_pos
      rw [List.length_append, String.length_utf8EncodeChar] at hn
      obtain ⟨t, back, rfl, hback⟩ := ih rest.length (by omega) rest rfl
      exact ⟨c :: t, back, by rw [encode_cons, List.append_assoc], hback⟩
    · exact ⟨[], bytes, rfl, hstarts⟩

/-- Reading bytes that are those of a text up to a place where no character stands. -/
theorem decode_of_not_starts (t : Text) {rest : Bytes} (h : ¬Starts rest) :
    rest = [] ∧ decode (encode t ++ rest) = .ok t ∨
      rest ≠ [] ∧ ∃ n, Stuck rest n ∧
        decode (encode t ++ rest) = .error ⟨Text.size t, n⟩ := by
  rw [decode, decodeFrom_encode, Nat.zero_add]
  by_cases hne : rest = []
  · subst hne
    refine .inl ⟨rfl, ?_⟩
    rw [decodeFrom, Except.map, List.append_nil]
  · rcases decodeFrom_cases (Text.size t) hne with ⟨c, back, rfl, -⟩ | ⟨-, n, hstuck, hread⟩
    · exact absurd ⟨c, back, rfl⟩ h
    · exact .inr ⟨hne, n, hstuck, by rw [hread]; rfl⟩

/-- **Bytes are read just if they are those of a text**, and then that text is read. -/
theorem decode_eq_ok_iff {bytes : Bytes} {t : Text} : decode bytes = .ok t ↔ bytes = encode t := by
  constructor
  · intro h
    obtain ⟨t', rest, rfl, hrest⟩ := exists_longest bytes
    rcases decode_of_not_starts t' hrest with ⟨rfl, hread⟩ | ⟨-, n, -, hread⟩
    · rw [hread] at h
      rw [Except.ok.inj h, List.append_nil]
    · rw [hread] at h
      exact nomatch h
  · rintro rfl
    rw [decode, ← List.append_nil (encode t), decodeFrom_encode, decodeFrom, Except.map,
      List.append_nil]

/-- Reading stops behind the longest text that the bytes begin with, and says what is wrong
there. -/
theorem exists_of_decode_eq_error {bytes : Bytes} {e : Invalid} (h : decode bytes = .error e) :
    ∃ t rest, bytes = encode t ++ rest ∧ rest ≠ [] ∧ ¬Starts rest ∧
      e.validUpTo = (encode t).length ∧ Stuck rest e.errorLength := by
  obtain ⟨t, rest, rfl, hrest⟩ := exists_longest bytes
  rcases decode_of_not_starts t hrest with ⟨rfl, hread⟩ | ⟨hne, n, hstuck, hread⟩
  · rw [hread] at h
    exact nomatch h
  · rw [hread] at h
    obtain rfl := Except.error.inj h
    exact ⟨t, rest, rfl, hne, hrest, (length_encode t).symm, hstuck⟩

end Frontend.Utf8
