import Frontend.Proofs.Provider.Path

/-!
# Normal forms of paths

A normal form consists of ordinary components, and following it leads to the place that the path
leads to. What is appended to a path is followed from that place on, so a path may be replaced by
its normal form in front of anything: the two lead to the same place, or both out of the root.
-/

namespace Frontend.Path

/-- Components that name something, without a slash in them. -/
def AreNames (names : List Text) : Prop :=
  ∀ name ∈ names, isOrdinary name = true ∧ '/' ∉ name

/-- Ordinary components with single slashes between them, and none at either end. -/
structure IsNormal (path : Text) : Prop where
  joined : ∃ names, AreNames names ∧ path = join names
  head : path.head? ≠ some '/'
  last : path.getLast? ≠ some '/'
  single : ¬['/', '/'] <:+: path

/-- The place that a path leads to, its last component first, unless it leads out of the root. -/
def place? (path : Text) : Option (List Text) :=
  (components path).foldl follow (some [])

/-- The normal form of a path is written from the place that the path leads to. -/
theorem normalize?_eq_map (path : Text) :
    normalize? path = (place? path).map fun place => join place.reverse := by
  rw [normalize?, resolve?, Option.map_map]
  rfl

/-- The components of two texts with a slash between them are those of the first and those of the
second. -/
theorem components_append (a b : Text) :
    components (a ++ '/' :: b) = components a ++ components b :=
  List.splitOn_append_cons_self a b

/-- What is appended to a path is followed from the place that the path leads to. -/
theorem place?_append (a b : Text) :
    place? (a ++ '/' :: b) = (components b).foldl follow (place? a) := by
  rw [place?, components_append, List.foldl_append]
  rfl

variable {path component : Text} {names place : List Text}

/-- There is no slash in a component. -/
theorem notMem_of_mem_components (h : component ∈ components path) : '/' ∉ component := by
  induction path generalizing component with
  | nil =>
    obtain rfl : component = [] := by simpa [components] using h
    exact List.not_mem_nil
  | cons c path ih =>
    rw [components, List.splitOn_cons_eq_if_modifyHead, ← components] at h
    split at h
    · rcases List.mem_cons.mp h with rfl | h
      · exact List.not_mem_nil
      · exact ih h
    · rename_i hc
      obtain ⟨first, others, hsplit⟩ : ∃ first others, components path = first :: others :=
        List.exists_cons_of_ne_nil (List.splitOn_ne_nil '/' path)
      rw [hsplit] at h ih
      rcases List.mem_cons.mp h with rfl | h
      · have hne : '/' ≠ c := by rintro rfl; exact hc rfl
        simpa [hne] using ih List.mem_cons_self
      · exact ih (List.mem_cons_of_mem _ h)

/-- Names that are joined are the components of the path, if there are any. -/
theorem components_join (h : AreNames names) (hne : names ≠ []) : components (join names) = names :=
  List.splitOn_intercalate '/' (fun name hname => (h name hname).2) hne

/-! ## Following names -/

/-- Names are followed one after the other. -/
theorem foldl_follow_names (h : AreNames names) (place : List Text) :
    names.foldl follow (some place) = some (names.reverse ++ place) := by
  induction names generalizing place with
  | nil => rfl
  | cons name names ih =>
    obtain ⟨hname, hnames⟩ := List.forall_mem_cons.mp h
    rw [List.foldl_cons, follow_ordinary hname.1, ih hnames, List.reverse_cons, List.append_assoc]
    rfl

/-- Joined names lead to the place that they are the components of. -/
theorem place?_join (h : AreNames names) : place? (join names) = some names.reverse := by
  by_cases hne : names = []
  · subst hne
    rfl
  · rw [place?, components_join h hne, foldl_follow_names h, List.append_nil]

/-- A step from one place to another passes ordinary components only. -/
theorem AreNames.follow {place' : List Text} (h : AreNames place) (hslash : '/' ∉ component)
    (hplace : Path.follow (some place) component = some place') : AreNames place' := by
  rcases component_cases component with hstays | rfl | hname
  · rw [follow_stays hstays] at hplace
    exact Option.some.inj hplace ▸ h
  · cases place with
    | nil => exact nomatch hplace
    | cons name before =>
      rw [follow_back] at hplace
      exact Option.some.inj hplace ▸ (List.forall_mem_cons.mp h).2
  · rw [follow_ordinary hname] at hplace
    exact Option.some.inj hplace ▸ List.forall_mem_cons.mpr ⟨⟨hname, hslash⟩, h⟩

/-- Following components leads from one place to another by ordinary ones only. -/
theorem AreNames.foldl_follow {components start : List Text} (h : AreNames start)
    (hslash : ∀ component ∈ components, '/' ∉ component)
    (hplace : components.foldl Path.follow (some start) = some place) : AreNames place := by
  induction components generalizing start with
  | nil => exact Option.some.inj hplace ▸ h
  | cons component components ih =>
    obtain ⟨hcomponent, hcomponents⟩ := List.forall_mem_cons.mp hslash
    rw [List.foldl_cons] at hplace
    cases hstep : Path.follow (some start) component with
    | none =>
      rw [hstep, foldl_follow_none] at hplace
      exact nomatch hplace
    | some next => exact ih (h.follow hcomponent hstep) hcomponents (hstep ▸ hplace)

/-! ## Normal forms -/

/-- No component is empty where a slash cuts joined names in two. -/
theorem AreNames.nil_notMem_components {a b : Text} (h : AreNames names)
    (hcut : join names = a ++ '/' :: b) : [] ∉ components a ∧ [] ∉ components b := by
  have hne : names ≠ [] := by
    rintro rfl
    exact absurd hcut.symm (by simp [join])
  have hsplit := components_join h hne
  rw [hcut, components_append] at hsplit
  have hnil : [] ∉ components a ++ components b := by
    rw [hsplit]
    exact fun hmem => absurd (h [] hmem).1 (by decide)
  exact ⟨fun hmem => hnil (List.mem_append_left _ hmem),
    fun hmem => hnil (List.mem_append_right _ hmem)⟩

/-- Joined names are normal. A slash too many would leave an empty component. -/
theorem AreNames.isNormal_join (h : AreNames names) : IsNormal (join names) where
  joined := ⟨names, h, rfl⟩
  head := by
    intro hhead
    obtain ⟨b, hb⟩ := List.head?_eq_some_iff.mp hhead
    exact (h.nil_notMem_components (a := []) hb).1 List.mem_cons_self
  last := by
    intro hlast
    obtain ⟨a, ha⟩ := List.getLast?_eq_some_iff.mp hlast
    exact (h.nil_notMem_components ha).2 List.mem_cons_self
  single := by
    rintro ⟨a, b, hab⟩
    have hcut : join names = a ++ '/' :: ([] ++ '/' :: b) := by simpa using hab.symm
    apply (h.nil_notMem_components hcut).2
    rw [components_append]
    exact List.mem_cons_self

/-- A normal form is one, and leads where the path leads. -/
theorem isNormal_of_normalize? {x : Text} (h : normalize? path = some x) :
    IsNormal x ∧ place? x = place? path := by
  rw [normalize?_eq_map] at h
  obtain ⟨place, hplace, rfl⟩ := Option.map_eq_some_iff.mp h
  have hplaces : AreNames place := by
    refine AreNames.foldl_follow (List.forall_mem_nil _) ?_ hplace
    exact fun component hcomponent => notMem_of_mem_components hcomponent
  have hnames : AreNames place.reverse :=
    fun name hname => hplaces name (List.mem_reverse.mp hname)
  exact ⟨hnames.isNormal_join, by rw [place?_join hnames, List.reverse_reverse, hplace]⟩

/-- What is normal is its own normal form. -/
theorem IsNormal.normalize?_eq (h : IsNormal path) : normalize? path = some path := by
  obtain ⟨names, hnames, rfl⟩ := h.joined
  rw [normalize?_eq_map, place?_join hnames, Option.map_some, List.reverse_reverse]

/-- **Paths are resolved consistently.** A path has no normal form if and only if it leads out of
the root. A normal form consists of ordinary components, is its own normal form, and stands for the
path in front of whatever is appended; what is appended to a path that leads out of the root does
not lead back. -/
theorem resolvesConsistently (a b : Text) :
    (normalize? a = none ↔ Escapes a) ∧
    (normalize? a = none → normalize? (a ++ '/' :: b) = none) ∧
    (∀ x, normalize? a = some x →
      IsNormal x ∧ normalize? x = some x ∧
        normalize? (a ++ '/' :: b) = normalize? (x ++ '/' :: b)) ∧
    (IsNormal a → normalize? a = some a) := by
  refine ⟨normalize?_eq_none_iff, ?_, ?_, IsNormal.normalize?_eq⟩
  · intro hnone
    have hplace : place? a = none := by
      rw [normalize?_eq_map] at hnone
      exact Option.map_eq_none_iff.mp hnone
    rw [normalize?_eq_map, place?_append, hplace, foldl_follow_none]
    rfl
  · intro x hx
    obtain ⟨hnormal, hplace⟩ := isNormal_of_normalize? hx
    refine ⟨hnormal, hnormal.normalize?_eq, ?_⟩
    rw [normalize?_eq_map, normalize?_eq_map, place?_append, place?_append, hplace]

/-- A path with every kind of component, and one that leads out of the root and seems to come
back. -/
theorem resolvesConsistently_dots :
    normalize? "./a//b/../c/".toList = some "a/c".toList ∧
    normalize? "./a//b/../c//../../d".toList = normalize? "a/c/../../d".toList ∧
    normalize? "a/../..".toList = none ∧ normalize? "a/../../b/c".toList = none := by
  have hdots : normalize? "./a//b/../c/".toList = some "a/c".toList := by cbv
  have hout : normalize? "a/../..".toList = none := by cbv
  refine ⟨hdots, ?_, hout, (resolvesConsistently _ "b/c".toList).2.1 hout⟩
  exact ((resolvesConsistently _ "../../d".toList).2.2.1 _ hdots).2.2

end Frontend.Path
