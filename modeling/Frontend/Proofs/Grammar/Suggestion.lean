import Mathlib.Data.List.Lex
import Frontend.Proofs.Grammar.Nesting
import Frontend.Proofs.Text.EditDistance
import Frontend.Proofs.Token.Rereading

/-!
# The keyword that was meant

A keyword that fits has a place in what is expected: the numbers of the alternatives that lead to
it. The keywords are listed from left to right, and the first of those the fewest edits away is the
one that is suggested.
-/

namespace Frontend

namespace Expected

/-- A keyword fits at a place: taking the alternatives of these numbers one after the other leads to
it. -/
inductive HasAt : Expected → List Nat → Keyword → Prop
  | here (k : Keyword) : HasAt (keyword k) [] k
  | inside {options : List Expected} {i : Nat} {e : Expected} {place : List Nat} {k : Keyword}
      (option : options[i]? = some e) (h : HasAt e place k) : HasAt (either options) (i :: place) k

/-- A place is to the left of another: where their ways part, it takes an earlier alternative. -/
def LeftOf (place place' : List Nat) : Prop :=
  List.Lex (· < ·) place place'

/-- A keyword at a place is so many edits away from a word. No keyword is fewer edits away, and none
at a place further to the left is as many. -/
structure NearestAt (expected : Expected) (word : Text) (place : List Nat) (k : Keyword) (n : Nat) :
    Prop where
  fits : expected.HasAt place k
  edits : Text.LeastEdits n word k.text
  first : ∀ {place' k' n'}, expected.HasAt place' k' → Text.LeastEdits n' word k'.text →
    n < n' ∨ n = n' ∧ (place = place' ∨ LeftOf place place')

variable {expected : Expected} {place place' : List Nat} {k k' : Keyword} {word : Text} {n n' : Nat}

/-- Of two places at most one is to the left of the other. -/
theorem LeftOf.asymm (h : LeftOf place place') : ¬LeftOf place' place :=
  (List.Lex.asymm (· < ·)).asymm _ _ h

/-- No two keywords have the same place. -/
theorem HasAt.unique (h : expected.HasAt place k) (h' : expected.HasAt place k') : k = k' := by
  induction h with
  | here k =>
    cases h'
    rfl
  | inside option h ih =>
    cases h' with
    | inside option' h' =>
      obtain rfl := Option.some.inj (option.symm.trans option')
      exact ih h'

/-- There is only one nearest keyword. -/
theorem NearestAt.unique (h : expected.NearestAt word place k n)
    (h' : expected.NearestAt word place' k' n') : k = k' := by
  have hplace : place = place' := by
    rcases h.first h'.fits h'.edits with hlt | ⟨heq, hplace | hleft⟩
    · rcases h'.first h.fits h.edits with hlt' | ⟨heq', -⟩ <;> omega
    · exact hplace
    · rcases h'.first h.fits h.edits with hlt' | ⟨-, hplace' | hleft'⟩
      · omega
      · exact hplace'.symm
      · exact absurd hleft' hleft.asymm
  subst hplace
  exact h.fits.unique h'.fits

/-! ## Keywords and their places -/

mutual

/-- The keywords that fit, from left to right, with their places. -/
def places : Expected → List (List Nat × Keyword)
  | either options => placesFrom 0 options
  | keyword k => [([], k)]
  | _ => []

/-- The keywords that fit one of the alternatives from a number on, from left to right, with their
places. -/
def placesFrom (i : Nat) : List Expected → List (List Nat × Keyword)
  | [] => []
  | e :: es => (places e).map (Prod.map (i :: ·) id) ++ placesFrom (i + 1) es

end

mutual

/-- Without their places, the keywords listed are those that are looked through, in the same
order. -/
theorem map_snd_places : ∀ e : Expected, e.places.map Prod.snd = e.keywords
  | either options => map_snd_placesFrom 0 options
  | keyword _ => rfl
  | punctuation _ | identifier | stringLiteral | importSpec | endOfFile => rfl

/-- The same for a list of alternatives, from a number on. -/
theorem map_snd_placesFrom (i : Nat) :
    ∀ es : List Expected, (placesFrom i es).map Prod.snd = keywordsAll es
  | [] => rfl
  | e :: es => by
    rw [placesFrom, keywordsAll, List.map_append, List.map_map, map_snd_placesFrom (i + 1) es,
      ← map_snd_places e]
    rfl

end

mutual

/-- What is listed are the keywords that fit, with their places. -/
theorem mem_places_iff {place : List Nat} {k : Keyword} :
    ∀ e : Expected, (place, k) ∈ e.places ↔ e.HasAt place k
  | either options => by
    rw [places, mem_placesFrom_iff 0 options]
    constructor
    · rintro ⟨j, e, inner, hoption, h, rfl⟩
      rw [Nat.zero_add]
      exact .inside hoption h
    · rintro (_ | ⟨hoption, h⟩)
      exact ⟨_, _, _, hoption, h, by rw [Nat.zero_add]⟩
  | keyword _ => by
    rw [places, List.mem_singleton]
    constructor
    · rintro ⟨⟩
      exact .here k
    · rintro ⟨⟩
      rfl
  | punctuation _ | identifier | stringLiteral | importSpec | endOfFile =>
    iff_of_false List.not_mem_nil nofun

/-- A place among alternatives is the number of one of them with a place in it. -/
theorem mem_placesFrom_iff {place : List Nat} {k : Keyword} (i : Nat) :
    ∀ es : List Expected, (place, k) ∈ placesFrom i es ↔
      ∃ j e inner, es[j]? = some e ∧ HasAt e inner k ∧ place = (i + j) :: inner
  | [] => by simp [placesFrom]
  | e :: es => by
    have hhead : (place, k) ∈ e.places.map (Prod.map (i :: ·) id) ↔
        ∃ inner, e.HasAt inner k ∧ place = i :: inner := by
      rw [List.mem_map]
      constructor
      · rintro ⟨⟨inner, k'⟩, hmem, heq⟩
        obtain ⟨rfl, rfl⟩ := Prod.mk.inj heq
        exact ⟨inner, (mem_places_iff e).mp hmem, rfl⟩
      · rintro ⟨inner, h, rfl⟩
        exact ⟨(inner, k), (mem_places_iff e).mpr h, rfl⟩
    rw [placesFrom, List.mem_append, hhead, mem_placesFrom_iff (i + 1) es]
    constructor
    · rintro (⟨inner, h, rfl⟩ | ⟨j, e', inner, hoption, h, rfl⟩)
      · exact ⟨0, e, inner, rfl, h, rfl⟩
      · exact ⟨j + 1, e', inner, hoption, h, by rw [Nat.add_right_comm, Nat.add_assoc]⟩
    · rintro ⟨j | j, e', inner, hoption, h, rfl⟩
      · obtain rfl := Option.some.inj hoption
        exact .inl ⟨inner, h, rfl⟩
      · exact .inr ⟨j, e', inner, hoption, h, by rw [Nat.add_right_comm, Nat.add_assoc]⟩

end

mutual

/-- What is listed first is to the left. -/
theorem pairwise_places : ∀ e : Expected, e.places.Pairwise fun a b => LeftOf a.1 b.1
  | either options => pairwise_placesFrom 0 options
  | keyword _ => List.pairwise_singleton _ _
  | punctuation _ | identifier | stringLiteral | importSpec | endOfFile => List.Pairwise.nil

/-- What is listed first of several alternatives is to the left: in an earlier alternative, or to
the left in the same one. -/
theorem pairwise_placesFrom (i : Nat) :
    ∀ es : List Expected, (placesFrom i es).Pairwise fun a b => LeftOf a.1 b.1
  | [] => List.Pairwise.nil
  | e :: es => by
    rw [placesFrom, List.pairwise_append, List.pairwise_map]
    refine ⟨?_, pairwise_placesFrom (i + 1) es, ?_⟩
    · exact (pairwise_places e).imp List.Lex.cons
    · intro a ha b hb
      obtain ⟨a', -, rfl⟩ := List.mem_map.mp ha
      obtain ⟨j, e', inner, -, -, hplace⟩ := (mem_placesFrom_iff (i + 1) es).mp hb
      rw [hplace]
      exact List.Lex.rel (by omega)

end

end Expected

/-! ## The nearest of a list -/

section Nearest

variable {distance : Keyword → Nat} {ks : List Keyword} {k : Keyword} {word : Text}

/-- One of the keywords is the nearest, unless there are none. -/
theorem nearest?_eq_none_iff : nearest? distance ks = none ↔ ks = [] := by
  cases ks with
  | nil => exact iff_of_true rfl rfl
  | cons k ks =>
    refine iff_of_false ?_ (List.cons_ne_nil k ks)
    unfold nearest?
    split
    · exact nofun
    · split <;> exact nofun

/-- Those before the nearest are further away, and those behind it are no nearer. -/
theorem exists_split_of_nearest? (h : nearest? distance ks = some k) :
    ∃ front back, ks = front ++ k :: back ∧ (∀ k' ∈ front, distance k < distance k') ∧
      ∀ k' ∈ back, distance k ≤ distance k' := by
  induction ks generalizing k with
  | nil => exact nomatch h
  | cons first ks ih =>
    rw [nearest?] at h
    split at h
    · rename_i hnone
      obtain rfl := Option.some.inj h
      obtain rfl := nearest?_eq_none_iff.mp hnone
      exact ⟨[], [], rfl, nofun, nofun⟩
    · rename_i other hother
      obtain ⟨front, back, rfl, hfront, hback⟩ := ih hother
      split at h
      · -- a tie goes to the first
        rename_i hle
        obtain rfl := Option.some.inj h
        refine ⟨[], front ++ other :: back, rfl, nofun, ?_⟩
        intro k' hk'
        rcases List.mem_append.mp hk' with hk' | hk'
        · exact hle.trans (hfront k' hk').le
        · rcases List.mem_cons.mp hk' with rfl | hk'
          · exact hle
          · exact hle.trans (hback k' hk')
      · rename_i hlt
        obtain rfl := Option.some.inj h
        exact ⟨first :: front, back, rfl, List.forall_mem_cons.mpr ⟨not_le.mp hlt, hfront⟩, hback⟩

/-- The same of the keyword that is suggested, which is two edits away at most. -/
theorem exists_split_of_misspelled? (h : misspelled? word ks = some k) :
    ∃ front back, ks = front ++ k :: back ∧ editDistance word k.text ≤ 2 ∧
      (∀ k' ∈ front, editDistance word k.text < editDistance word k'.text) ∧
      ∀ k' ∈ back, editDistance word k.text ≤ editDistance word k'.text := by
  unfold misspelled? at h
  dsimp only at h
  obtain ⟨front, back, hfilter, hfront, hback⟩ := exists_split_of_nearest? h
  obtain ⟨front', rest, rfl, rfl, hrest⟩ := List.filter_eq_append_iff.mp hfilter
  obtain ⟨skipped, back', rfl, hskipped, hnear, rfl⟩ := List.filter_eq_cons_iff.mp hrest
  rw [decide_eq_true_eq] at hnear
  refine ⟨front' ++ skipped, back', by rw [List.append_assoc], hnear, ?_, ?_⟩
  · intro k' hk'
    rcases List.mem_append.mp hk' with hk' | hk'
    · by_cases hnear' : editDistance word k'.text ≤ 2
      · exact hfront k' (List.mem_filter.mpr ⟨hk', decide_eq_true hnear'⟩)
      · omega
    · have hfar := hskipped k' hk'
      rw [decide_eq_true_eq] at hfar
      omega
  · intro k' hk'
    -- those that were filtered out are further away than any that was kept
    by_cases hnear' : editDistance word k'.text ≤ 2
    · exact hback k' (List.mem_filter.mpr ⟨hk', decide_eq_true hnear'⟩)
    · omega

/-- Nothing is suggested exactly if every keyword is more than two edits away. -/
theorem misspelled?_eq_none_iff :
    misspelled? word ks = none ↔ ∀ k ∈ ks, 2 < editDistance word k.text := by
  simp [misspelled?, nearest?_eq_none_iff, List.filter_eq_nil_iff]

end Nearest

namespace Expected

variable {expected : Expected} {k : Keyword} {word : Text}

/-- The keywords looked through are those that have a place. -/
theorem mem_keywords_iff : k ∈ expected.keywords ↔ ∃ place, expected.HasAt place k := by
  rw [← map_snd_places, List.mem_map]
  constructor
  · rintro ⟨⟨place, k⟩, hmem, rfl⟩
    exact ⟨place, (mem_places_iff expected).mp hmem⟩
  · rintro ⟨place, h⟩
    exact ⟨(place, k), (mem_places_iff expected).mpr h, rfl⟩

/-- What is suggested is the nearest keyword. -/
theorem exists_nearestAt (h : misspelled? word expected.keywords = some k) :
    ∃ place n, expected.NearestAt word place k n ∧ n ≤ 2 := by
  obtain ⟨front, back, hsplit, hnear, hfront, hback⟩ := exists_split_of_misspelled? h
  rw [← map_snd_places] at hsplit
  obtain ⟨front', rest, hplaces, rfl, hrest⟩ := List.map_eq_append_iff.mp hsplit
  obtain ⟨⟨place, k⟩, back', rfl, rfl, rfl⟩ := List.map_eq_cons_iff.mp hrest
  have hsorted := pairwise_places expected
  rw [hplaces, List.pairwise_append, List.pairwise_cons] at hsorted
  obtain ⟨-, ⟨hbehind, -⟩, -⟩ := hsorted
  have hmem {place' : List Nat} {k' : Keyword} :
      (place', k') ∈ front' ++ (place, k) :: back' ↔ expected.HasAt place' k' := by
    rw [← hplaces, mem_places_iff]
  refine ⟨place, editDistance word k.text, ⟨?_, leastEdits_iff.mpr rfl, ?_⟩, hnear⟩
  · exact hmem.mp (List.mem_append_right _ List.mem_cons_self)
  · intro place' k' n' hfits hn'
    obtain rfl := leastEdits_iff.mp hn'
    rcases List.mem_append.mp (hmem.mpr hfits) with hmem' | hmem'
    · exact .inl (hfront k' (List.mem_map_of_mem hmem'))
    · rcases List.mem_cons.mp hmem' with heq | hmem'
      · obtain ⟨rfl, rfl⟩ := Prod.mk.inj heq
        exact .inr ⟨rfl, .inl rfl⟩
      · rcases (hback k' (List.mem_map_of_mem hmem')).lt_or_eq with hlt | heq
        · exact .inl hlt
        · exact .inr ⟨heq, .inr (hbehind _ hmem')⟩

/-- Where nothing is suggested, every keyword is more than two edits away. -/
theorem misspelled?_keywords_eq_none_iff : misspelled? word expected.keywords = none ↔
    ∀ place k n, expected.HasAt place k → Text.LeastEdits n word k.text → 2 < n := by
  rw [misspelled?_eq_none_iff]
  constructor
  · intro h place k n hfits hn
    obtain rfl := leastEdits_iff.mp hn
    exact h k (mem_keywords_iff.mpr ⟨place, hfits⟩)
  · intro h k hk
    obtain ⟨place, hfits⟩ := mem_keywords_iff.mp hk
    exact h place k _ hfits (leastEdits_iff.mpr rfl)

/-- A keyword is suggested just if it is the nearest one, and two edits away at most. -/
theorem misspelled?_keywords_eq_some_iff : misspelled? word expected.keywords = some k ↔
    ∃ place n, expected.NearestAt word place k n ∧ n ≤ 2 := by
  refine ⟨exists_nearestAt, ?_⟩
  rintro ⟨place, n, hnearest, hle⟩
  cases h : misspelled? word expected.keywords with
  | none =>
    have hlt := misspelled?_keywords_eq_none_iff.mp h place k n hnearest.fits hnearest.edits
    omega
  | some k' =>
    obtain ⟨place', n', hnearest', -⟩ := exists_nearestAt h
    rw [hnearest'.unique hnearest]

end Expected

/-! ## Words that are read -/

/-- The token is read off a text, by a cursor or for a stream. -/
inductive Token.Scanned (x : Token) : Prop
  | byCursor {c after : Cursor} (h : c.token = (.ok x, after))
  | forStream {t : Text} {s : TokenStream} (h : TokenStream.ofText t = .ok s) (hx : x ∈ s.tokens)

/-- An identifier that is read is spelled like no keyword. -/
theorem Token.Scanned.text_ne {l : Lexeme} (h : Token.Scanned ⟨.identifier, l⟩) (k : Keyword) :
    k.text ≠ l.text := by
  have hleading : ∃ c t, (Scan.leading c t).cls = .identifier ∧
      (Scan.leading c t).text = l.text := by
    cases h with
    | @byCursor c after h =>
      rcases c.token_eq with ⟨-, hread⟩ | ⟨x, t, after', -, hread, -⟩
      · exact nomatch h.symm.trans hread
      · obtain ⟨hcls, rfl⟩ := Token.mk.inj (Except.ok.inj (congrArg Prod.fst (h.symm.trans hread)))
        exact ⟨x, t, hcls.symm, rfl⟩
    | forStream h hx => exact TokenStream.exists_leading_of_ok h hx nofun nofun
  obtain ⟨c, t, hcls, htext⟩ := hleading
  rw [← htext]
  exact Scan.text_ne_of_identifier hcls k

namespace UnexpectedToken

/-- **The suggestion is the nearest keyword that is expected.** A keyword is suggested just if an
identifier was found and, among the keywords that are expected, it is the first of those the fewest
edits away, at most two. None is suggested just if no identifier was found or every keyword that is
expected is further away. An identifier that is read off a text is an edit away from any keyword at
least, so what is suggested is not what was found. -/
theorem suggestsNearest (e : UnexpectedToken) :
    (∀ k, e.suggestion? = some k ↔ ∃ l place n, e.found = some ⟨.identifier, l⟩ ∧
      e.expected.NearestAt l.text place k n ∧ n ≤ 2) ∧
    (e.suggestion? = none ↔ ∀ l, e.found = some ⟨.identifier, l⟩ →
      ∀ place k n, e.expected.HasAt place k → Text.LeastEdits n l.text k.text → 2 < n) ∧
    ∀ l, Token.Scanned ⟨.identifier, l⟩ →
      (∀ (k : Keyword) n, Text.LeastEdits n l.text k.text → 1 ≤ n) ∧
      (e.found = some ⟨.identifier, l⟩ → ∀ k, e.suggestion? = some k → k.text ≠ l.text) := by
  have hsuggestion : (∃ l, e.found = some ⟨.identifier, l⟩ ∧
      e.suggestion? = misspelled? l.text e.expected.keywords) ∨
      (∀ l, e.found ≠ some ⟨.identifier, l⟩) ∧ e.suggestion? = none := by
    unfold suggestion?
    split
    · rename_i l hfound
      exact .inl ⟨l, hfound, rfl⟩
    · rename_i hfound
      exact .inr ⟨hfound, rfl⟩
  refine ⟨?_, ?_, ?_⟩
  · intro k
    rcases hsuggestion with ⟨l, hfound, heq⟩ | ⟨hfound, heq⟩
    · rw [heq, hfound, Expected.misspelled?_keywords_eq_some_iff]
      constructor
      · rintro ⟨place, n, h⟩
        exact ⟨l, place, n, rfl, h⟩
      · rintro ⟨l', place, n, hl, h⟩
        cases hl
        exact ⟨place, n, h⟩
    · rw [heq]
      refine iff_of_false nofun ?_
      rintro ⟨l, -, -, hl, -⟩
      exact hfound l hl
  · rcases hsuggestion with ⟨l, hfound, heq⟩ | ⟨hfound, heq⟩
    · rw [heq, hfound, Expected.misspelled?_keywords_eq_none_iff]
      constructor
      · intro h l' hl
        cases hl
        exact h
      · exact fun h => h l rfl
    · exact iff_of_true heq fun l hl => absurd hl (hfound l)
  · intro l hscanned
    exact ⟨fun k n hn => hn.pos (hscanned.text_ne k).symm, fun _ k _ => hscanned.text_ne k⟩

/-- Two keywords that are expected are one edit away from what was found. The first of them stands
behind an empty list, and behind a list of what is no keyword or further away. -/
theorem suggestsNearest_tie :
    (∃ place n, (Expected.either [.either [], .either [.identifier, .keyword .kwFunc],
      .keyword .kwGo, .keyword .kwFor]).NearestAt ['f', 'o'] place .kwGo n ∧ n ≤ 2) ∧
    (∀ place k n, (Expected.either []).HasAt place k →
      Text.LeastEdits n ['f', 'o'] k.text → 2 < n) ∧
    Keyword.kwGo.text ≠ ['f', 'o'] := by
  have hread : (Cursor.ofText ['f', 'o']).token = (.ok ⟨.identifier, 0, ['f', 'o']⟩,
      ⟨2, some (1, 'o'), []⟩) := by cbv
  obtain ⟨hsome, -, hscanned⟩ := suggestsNearest ⟨.either [.either [],
    .either [.identifier, .keyword .kwFunc], .keyword .kwGo, .keyword .kwFor],
    some ⟨.identifier, 0, ['f', 'o']⟩⟩
  obtain ⟨-, hnone, -⟩ := suggestsNearest ⟨.either [], some ⟨.identifier, 0, ['f', 'o']⟩⟩
  obtain ⟨-, hne⟩ := hscanned ⟨0, ['f', 'o']⟩ (.byCursor hread)
  obtain ⟨l, place, n, hl, hnearest⟩ := (hsome .kwGo).mp (by cbv)
  cases hl
  exact ⟨⟨place, n, hnearest⟩, hnone.mp rfl _ rfl, hne rfl .kwGo (by cbv)⟩

end UnexpectedToken

end Frontend
