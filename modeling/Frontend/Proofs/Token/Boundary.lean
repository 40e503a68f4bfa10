import Frontend.Proofs.Stream.Pieces

/-!
# Where tokens end

A rule of the scanner looks at the text of its token and at what comes directly after it. What it
finds there stops it, and whatever goes on no further than that stops it as well: `NoFurther` says
so of two texts, and gaps go on nowhere. `Stable` rules read their token from its own text again, in
front of any text that goes on no further than the one it was read in front of; rules made of stable
ones are stable. `Closed` rules end with a character of their own, and need not even that.
-/

namespace Frontend

/-- The first part of a text starts as the text does, unless it is empty. -/
theorem Text.exists_tail {a b t : Text} {c : Char} (h : a ++ b = c :: t) (ha : a ≠ []) :
    ∃ w, a = c :: w ∧ w ++ b = t := by
  obtain ⟨d, w, rfl⟩ := List.exists_cons_of_ne_nil ha
  obtain ⟨rfl, hrest⟩ := List.cons.inj h
  exact ⟨w, rfl, hrest⟩

/-- A class of characters without gaps. -/
def Solid (p : Char → Bool) : Prop :=
  ∀ c, isGap c = true → p c = false

/-- What stands before the first gap of `new` is a beginning of `old`: what cannot go on with `old`
cannot go on with `new` either. -/
def NoFurther (new old : Text) : Prop :=
  ∀ w : Text, (∀ c ∈ w, isGap c = false) → w <+: new → w <+: old

/-- The gaps are the space, the tab, the carriage return and the line feed. -/
theorem isGap_iff {c : Char} :
    isGap c = true ↔ c = ' ' ∨ c = '\t' ∨ c = '\r' ∨ c = '\n' := by
  simp [isGap, isBlank, or_assoc]

/-- A class without any of the four gaps is solid. -/
theorem Solid.of_gaps {p : Char → Bool} (h : p ' ' = false ∧ p '\t' = false ∧ p '\r' = false ∧
    p '\n' = false) : Solid p := by
  intro c hc
  obtain ⟨hspace, htab, hreturn, hfeed⟩ := h
  rcases isGap_iff.mp hc with rfl | rfl | rfl | rfl
  · exact hspace
  · exact htab
  · exact hreturn
  · exact hfeed

/-- No character of a solid class is a gap. -/
theorem Solid.isGap_eq_false {p : Char → Bool} (hp : Solid p) {c : Char} (h : p c = true) :
    isGap c = false := by
  cases hgap : isGap c with
  | false => rfl
  | true =>
    rw [hp c hgap] at h
    exact nomatch h

namespace NoFurther

variable {new old : Text}

/-- The end of the text goes on nowhere. -/
theorem nil (old : Text) : NoFurther [] old := by
  intro w _ hw
  rw [List.prefix_nil.mp hw]
  exact List.nil_prefix

/-- A beginning of a text goes on no further than the text. -/
theorem of_isPrefix (h : new <+: old) : NoFurther new old :=
  fun _ _ hw => hw.trans h

/-- A gap goes on nowhere. -/
theorem of_gap {c : Char} (h : isGap c = true) (new old : Text) : NoFurther (c :: new) old := by
  intro w hsolid hw
  cases w with
  | nil => exact List.nil_prefix
  | cons x w =>
    obtain ⟨rfl, -⟩ := List.cons_prefix_cons.mp hw
    rw [hsolid x List.mem_cons_self] at h
    exact nomatch h

/-- The same text in front of both changes nothing. -/
theorem append (h : NoFurther new old) (front : Text) :
    NoFurther (front ++ new) (front ++ old) := by
  induction front with
  | nil => exact h
  | cons x front ih =>
    intro w hsolid hw
    cases w with
    | nil => exact List.nil_prefix
    | cons y w =>
      obtain ⟨rfl, hrest⟩ := List.cons_prefix_cons.mp hw
      have htail := ih w (fun c hc => hsolid c (List.mem_cons_of_mem _ hc)) hrest
      exact List.cons_prefix_cons.mpr ⟨rfl, htail⟩

/-- Behind a gap any text can follow. -/
theorem append_right {c : Char} (h : isGap c = true) (front back more : Text) :
    NoFurther (front ++ c :: back ++ more) (front ++ c :: back) := by
  have hgap : NoFurther (c :: (back ++ more)) (c :: back) := of_gap h _ _
  simpa using hgap.append front

/-- A character that `new` starts with is a gap, or `old` starts with it too. -/
theorem head_eq (h : NoFurther new old) {c : Char} (hc : isGap c = false)
    (hnew : new.head? = some c) : old.head? = some c := by
  obtain ⟨rest, rfl⟩ := List.head?_eq_some_iff.mp hnew
  obtain ⟨rest', hrest⟩ := h [c] (by simpa using hc) ⟨rest, rfl⟩
  rw [← hrest]
  rfl

/-- Where `old` starts with no character of a solid class, `new` does not either. -/
theorem head_any (h : NoFurther new old) {p : Char → Bool} (hp : Solid p)
    (hold : old.head?.any p = false) : new.head?.any p = false := by
  cases hnew : new.head? with
  | none => rfl
  | some c =>
    cases hc : p c with
    | false => exact hc
    | true =>
      have hhead := h.head_eq (hp.isGap_eq_false hc) hnew
      rw [hhead, Option.any_some, hc] at hold
      exact nomatch hold

end NoFurther

namespace Taken

/-- A run of a class is taken whole where the text does not go on with it. -/
theorem run_append {p : Char → Bool} {w rest : Text} (hw : ∀ c ∈ w, p c = true)
    (hrest : rest.head?.any p = false) : run p (w ++ rest) = ⟨w, rest⟩ := by
  have htake : rest.takeWhile p = [] := by
    cases rest with
    | nil => rfl
    | cons c rest => exact List.takeWhile_cons_of_neg (by simpa using hrest)
  have hdrop : rest.dropWhile p = rest := by
    cases rest with
    | nil => rfl
    | cons c rest => exact List.dropWhile_cons_of_neg (by simpa using hrest)
  simp only [run, List.takeWhile_append_of_pos hw, List.dropWhile_append_of_pos hw, htake, hdrop,
    List.append_nil]

/-- No character is taken where the first one is not of the class. -/
theorem one_of_none {p : Char → Bool} {t : Text} (h : t.head?.any p = false) :
    one p t = ⟨[], t⟩ := by
  cases t with
  | nil => rfl
  | cons c t =>
    have hc : p c = false := by simpa using h
    simp [one, hc]

/-- A rule that takes a solid beginning off a text, and takes it off again in front of any text that
goes on no further. -/
structure Stable (g : Text → Taken) : Prop where
  append : ∀ t, (g t).text ++ (g t).rest = t
  solid : ∀ t, ∀ c ∈ (g t).text, isGap c = false
  again : ∀ t new, NoFurther new (g t).rest → g ((g t).text ++ new) = ⟨(g t).text, new⟩

/-- The longest run of a solid class. -/
theorem stable_run {p : Char → Bool} (hp : Solid p) : Stable (run p) where
  append := text_append_rest_run p
  solid := by
    intro t c hc
    have hall : ∀ c ∈ t.takeWhile p, p c = true := List.all_eq_true.mp List.all_takeWhile
    exact hp.isGap_eq_false (hall c hc)
  again := by
    intro t new h
    have hall : ∀ c ∈ t.takeWhile p, p c = true := List.all_eq_true.mp List.all_takeWhile
    have hold : (t.dropWhile p).head?.any p = false := by
      have hhead := List.head?_dropWhile_not p t
      cases hrest : (t.dropWhile p).head? with
      | none => rfl
      | some c => simpa [hrest] using hhead
    exact run_append hall (h.head_any hp hold)

/-- The first character, if it is of a solid class. -/
theorem stable_one {p : Char → Bool} (hp : Solid p) : Stable (one p) where
  append := text_append_rest_one p
  solid := by
    intro t c hc
    unfold one at hc
    split at hc
    · exact absurd hc List.not_mem_nil
    · split at hc
      · rename_i x rest hx
        obtain rfl := List.mem_singleton.mp hc
        exact hp.isGap_eq_false hx
      · exact absurd hc List.not_mem_nil
  again := by
    intro t new h
    cases t with
    | nil => exact one_of_none (h.head_any hp rfl)
    | cons x rest =>
      by_cases hx : p x = true
      · simp [one, hx]
      · have hone : one p (x :: rest) = ⟨[], x :: rest⟩ := by simp [one, hx]
        rw [hone] at h ⊢
        exact one_of_none (h.head_any hp (by simpa using hx))

end Taken

namespace Scan

/-- A rule whose token is solid, and that reads it again from its own text in front of any text that
goes on no further. -/
structure Stable (f : Text → Scan) : Prop where
  append : ∀ t, (f t).text ++ (f t).rest = t
  solid : ∀ t, ∀ c ∈ (f t).text, isGap c = false
  again : ∀ t new, NoFurther new (f t).rest →
    f ((f t).text ++ new) = ⟨(f t).cls, (f t).text, new⟩

/-- A beginning that is taken off is a token if its text decides the class. -/
theorem stable_of_taken {g : Text → Taken} (hg : Taken.Stable g) (cls : Text → TokenClass) :
    Stable fun t => ⟨cls (g t).text, (g t).text, (g t).rest⟩ where
  append := hg.append
  solid := hg.solid
  again := by
    intro t new h
    simp only [hg.again t new h]

/-- No text at all is stable. -/
theorem stable_nil (cls : TokenClass) : Stable fun t => ⟨cls, [], t⟩ where
  append := fun _ => rfl
  solid := fun _ _ hc => absurd hc List.not_mem_nil
  again := fun _ _ _ => rfl

end Scan

namespace Taken

open Scan

/-- A beginning is taken off, and its text decides which rule reads on. -/
theorem Stable.after {g : Text → Taken} {k : Text → Text → Scan} (hg : Taken.Stable g)
    (hk : ∀ front, Scan.Stable (k front)) :
    Scan.Stable fun t => (k (g t).text (g t).rest).prepend (g t).text where
  append := by
    intro t
    simp only [Scan.prepend, List.append_assoc, (hk _).append, hg.append]
  solid := by
    intro t c hc
    rcases List.mem_append.mp hc with hc | hc
    · exact hg.solid t c hc
    · exact (hk _).solid _ c hc
  again := by
    intro t new h
    have hrest : NoFurther ((k (g t).text (g t).rest).text ++ new) (g t).rest := by
      have happend := NoFurther.append h (k (g t).text (g t).rest).text
      have hwhole : (k (g t).text (g t).rest).text ++
          ((k (g t).text (g t).rest).prepend (g t).text).rest = (g t).rest := (hk _).append _
      rwa [hwhole] at happend
    have hagain := (hk (g t).text).again (g t).rest new h
    simp only [text_prepend, cls_prepend, List.append_assoc, hg.again t _ hrest, hagain]
    rfl

/-- A beginning may be missing, and then another rule reads on. -/
theorem Stable.optional {g : Text → Taken} {f k : Text → Scan} (hg : Taken.Stable g)
    (hf : Scan.Stable f) (hk : Scan.Stable k) :
    Scan.Stable fun t => if (g t).text.isEmpty then f t else (k (g t).rest).prepend (g t).text := by
  have heq : (fun t => if (g t).text.isEmpty then f t else (k (g t).rest).prepend (g t).text) =
      fun t => ((if (g t).text.isEmpty then f else k) (g t).rest).prepend (g t).text := by
    funext t
    split
    · rename_i hempty
      have htext : (g t).text = [] := List.isEmpty_iff.mp hempty
      have hrest := hg.append t
      rw [htext, List.nil_append] at hrest
      rw [htext, hrest]
      rfl
    · rfl
  rw [heq]
  refine hg.after (k := fun front => if front.isEmpty then f else k) ?_
  intro front
  split
  · exact hf
  · exact hk

end Taken

namespace Scan

/-- A scan whose token is not illegal. -/
def Legal (s : Scan) : Prop :=
  ∀ reason, s.cls ≠ .illegal reason

/-- A rule that closes its legal tokens with a character, and reads them again in front of any
text. -/
structure Closed (f : Text → Scan) (last : Char) : Prop where
  last_eq : ∀ t, (f t).Legal → (f t).text.getLast? = some last
  again : ∀ t, (f t).Legal → ∀ new, f ((f t).text ++ new) = ⟨(f t).cls, (f t).text, new⟩

/-- A rule that closes its tokens reads them again behind their opening text too. -/
theorem Closed.again_prepend {f : Text → Scan} {last : Char} (hf : Closed f last) {t w front : Text}
    (hlegal : ((f t).prepend front).Legal) (htext : ((f t).prepend front).text = front ++ w)
    (new : Text) : (f (w ++ new)).prepend front =
      ⟨((f t).prepend front).cls, front ++ w, new⟩ := by
  obtain rfl : (f t).text = w := List.append_cancel_left htext
  rw [hf.again t hlegal new]
  rfl

end Scan

end Frontend
