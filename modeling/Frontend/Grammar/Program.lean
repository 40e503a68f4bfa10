import Frontend.Grammar.Parser

/-!
# Parsing the head of a program

    Program           = PackageClause ImportDeclaration*
    PackageClause     = "package" identifier Terminator
    ImportDeclaration = "import" (ImportSpec | "(" (ImportSpec ";")* ImportSpec? ")") Terminator
    ImportSpec        = ("." | identifier)? string
    Terminator        = ";" | end of file

The end of the file is not consumed, and parsing stops before the first token that does not start
an import declaration. The package may not be named by the blank identifier.
-/

namespace Frontend

namespace Parser

/-- The identifier that names nothing. -/
def blankIdentifier : Text := ['_']

/-- The error that a package is named by the blank identifier. -/
def blankPackageName (name : Lexeme) : SyntaxError :=
  .invalid ⟨"the package name must not be the blank identifier", name⟩

/-- The clause that names the package. -/
def packageClause : Parse PackageClause := do
  let keyword ← keyword .kwPackage
  let name ← identifier
  if name.text = blankIdentifier then Parse.fail (blankPackageName name)
  else do
    let terminator ← terminator
    return { keyword, name, terminator }

/-- The name of an import spec, if the spec does not start with its path. -/
def importName : Parse (Option ImportName) := fun p =>
  match p.peek with
  | some ⟨.stringLiteral _, _⟩ => (.ok none, p)
  | _ =>
    take .importSpec (fun t =>
      match t.cls with
      | .punctuation .period => some (some (.dot t.lexeme))
      | .identifier => some (some (.identifier t.lexeme))
      | _ => none) p

/-- One imported package. -/
def importSpec : Parse ImportSpec := do
  let name ← importName
  let path ← stringLiteral
  return { name, path }

/-- The semicolon after a spec of a group, which may be missing before the closing parenthesis. -/
def separator : Parse Unit := fun p =>
  if p.atPunctuation .rightParen then (.ok (), p)
  else ((punctuation .semicolon) p).map (Except.map fun _ => ()) id

/-- A spec of a group and what separates it from the next. -/
def groupItem : Parse ImportSpec := do
  let spec ← importSpec
  separator
  return spec

/-- Steps that consume a token where they succeed. -/
def Progresses {α : Type} (step : Parse α) : Prop :=
  ∀ ⦃p q : Parser⦄ ⦃a : α⦄, step p = (.ok a, q) → q.rest.length < p.rest.length

/-- Steps that give no token back where they succeed. -/
def Steady {α : Type} (step : Parse α) : Prop :=
  ∀ ⦃p q : Parser⦄ ⦃a : α⦄, step p = (.ok a, q) → q.rest.length ≤ p.rest.length

/-- What consumes a token gives none back. -/
theorem Progresses.steady {α : Type} {step : Parse α} (h : Progresses step) : Steady step :=
  fun _ _ _ hstep => Nat.le_of_lt (h hstep)

/-- A step that only gives a value gives no token back. -/
theorem steady_pure {α : Type} (a : α) : Steady (Parse.pure a) := by
  intro p q b h
  obtain ⟨-, rfl⟩ : _ ∧ p = q := by simpa [Parse.pure] using h
  exact Nat.le_refl _

/-- A step that succeeds comes down to both of its parts. -/
theorem bind_eq_ok {α β : Type} {first : Parse α} {next : α → Parse β} {p q : Parser}
    {b : β}
    (h : Parse.bind first next p = (.ok b, q)) :
    ∃ a r, first p = (.ok a, r) ∧ next a r = (.ok b, q) := by
  unfold Parse.bind at h
  split at h
  · rename_i a r hfirst
    exact ⟨a, r, hfirst, h⟩
  · simp at h

/-- Two steps in a row consume a token if the first does and the second gives none back. -/
theorem Progresses.bind {α β : Type} {first : Parse α} {next : α → Parse β}
    (hfirst : Progresses first) (hnext : ∀ a, Steady (next a)) :
    Progresses (Parse.bind first next) := by
  intro p q b h
  obtain ⟨a, r, ha, hb⟩ := bind_eq_ok h
  exact Nat.lt_of_le_of_lt (hnext a hb) (hfirst ha)

/-- Two steps in a row give no token back if neither of them does. -/
theorem Steady.bind {α β : Type} {first : Parse α} {next : α → Parse β}
    (hfirst : Steady first) (hnext : ∀ a, Steady (next a)) : Steady (Parse.bind first next) := by
  intro p q b h
  obtain ⟨a, r, ha, hb⟩ := bind_eq_ok h
  exact Nat.le_trans (hnext a hb) (hfirst ha)

/-- Two steps in a row consume a token if the second does and the first gives none back. -/
theorem Steady.bind_progresses {α β : Type} {first : Parse α} {next : α → Parse β}
    (hfirst : Steady first) (hnext : ∀ a, Progresses (next a)) :
    Progresses (Parse.bind first next) := by
  intro p q b h
  obtain ⟨a, r, ha, hb⟩ := bind_eq_ok h
  exact Nat.lt_of_lt_of_le (hnext a hb) (hfirst ha)

/-- A token that is taken is consumed. -/
theorem progresses_take {α : Type} (expected : Expected) (accept : Token → Option α) :
    Progresses (take expected accept) := by
  intro p q a h
  unfold take next at h
  cases hrest : p.rest with
  | nil => simp [hrest] at h
  | cons t rest =>
    simp only [hrest] at h
    split at h
    · simp at h
    · obtain ⟨-, rfl⟩ : _ ∧ (⟨p.index + 1, rest⟩ : Parser) = q := by simpa using h
      simp

/-- Reading the name of a spec gives no token back, be there a name or not. -/
theorem steady_importName : Steady importName := by
  intro p q a h
  unfold importName at h
  split at h
  · obtain ⟨-, rfl⟩ : _ ∧ p = q := by simpa using h
    exact Nat.le_refl _
  · exact Nat.le_of_lt (progresses_take _ _ h)

/-- A spec consumes at least its path. -/
theorem progresses_importSpec : Progresses importSpec :=
  steady_importName.bind_progresses fun _ =>
    (progresses_take _ _).bind fun _ => steady_pure _

/-- A separator gives no token back, even where it is missing. -/
theorem steady_separator : Steady separator := by
  intro p q a h
  unfold separator at h
  split at h
  · obtain rfl : p = q := by simpa using h
    exact Nat.le_refl _
  · cases hpunctuation : punctuation .semicolon p with
    | mk result after =>
      cases result with
      | error e => simp [hpunctuation, Except.map] at h
      | ok semicolon =>
        obtain rfl : after = q := by simpa [hpunctuation, Except.map] using h
        exact Nat.le_of_lt (progresses_take _ _ hpunctuation)

/-- A spec of a group consumes a token, which ends the loop over the group. -/
theorem progresses_groupItem : Progresses groupItem :=
  progresses_importSpec.bind fun _ => steady_separator.bind fun _ => steady_pure _

/-- A terminator gives no token back, even where it is missing. -/
theorem steady_terminator : Steady terminator := by
  intro p q a h
  unfold terminator at h
  split at h
  · obtain ⟨-, rfl⟩ : _ ∧ p = q := by simpa using h
    exact Nat.le_refl _
  · exact Nat.le_of_lt (progresses_take _ _ h)

/-- The specs of a group and its closing parenthesis. -/
def groupRest (p : Parser) : Except SyntaxError (List ImportSpec × Lexeme) × Parser :=
  if p.atPunctuation .rightParen then
    ((punctuation .rightParen) p).map (Except.map fun closing => ([], closing)) id
  else
    match _h : groupItem p with
    | (.error e, q) => (.error e, q)
    | (.ok spec, q) =>
      (groupRest q).map (Except.map fun others => (spec :: others.1, others.2)) id
termination_by p.rest.length
decreasing_by exact progresses_groupItem _h

/-- The specs in parentheses that a declaration imports, or its only spec. -/
def importBody : Parse ImportBody := fun p =>
  if p.atPunctuation .leftParen then
    Parse.bind (punctuation .leftParen) (fun opening =>
      Parse.bind groupRest fun others =>
        Parse.pure (.group opening others.1 others.2)) p
  else Parse.bind importSpec (fun spec => Parse.pure (.single spec)) p

/-- An import declaration. -/
def importDeclaration : Parse ImportDeclaration := do
  let keyword ← keyword .kwImport
  let body ← importBody
  let terminator ← terminator
  return { keyword, body, terminator }

/-- The rest of a group gives no token back, however many specs it has. -/
theorem steady_groupRest : Steady groupRest := by
  intro p
  fun_induction groupRest p with
  | case1 p hat =>
    intro q a h
    cases hclosing : punctuation .rightParen p with
    | mk result after =>
      cases result with
      | error e => simp [hclosing, Except.map] at h
      | ok closing =>
        obtain ⟨-, rfl⟩ : _ ∧ after = q := by simpa [hclosing, Except.map] using h
        exact Nat.le_of_lt (progresses_take _ _ hclosing)
  | case2 p hat e q hitem =>
    intro q' a h
    simp at h
  | case3 p hat spec r hitem ih =>
    intro q a h
    cases hothers : groupRest r with
    | mk result after =>
      cases result with
      | error e => simp [hothers, Except.map] at h
      | ok others =>
        obtain ⟨-, rfl⟩ : _ ∧ after = q := by simpa [hothers, Except.map] using h
        exact Nat.le_of_lt (Nat.lt_of_le_of_lt (ih hothers) (progresses_groupItem hitem))

/-- The body of a declaration gives no token back. -/
theorem steady_importBody : Steady importBody := by
  intro p q a h
  unfold importBody at h
  split at h
  · exact ((progresses_take _ _).steady.bind fun _ =>
      steady_groupRest.bind fun _ => steady_pure _) h
  · exact (progresses_importSpec.steady.bind fun _ => steady_pure _) h

/-- A declaration consumes at least its keyword, which ends the loop over the declarations. -/
theorem progresses_importDeclaration : Progresses importDeclaration :=
  (progresses_take _ _).bind fun _ =>
    steady_importBody.bind fun _ => steady_terminator.bind fun _ => steady_pure _

/-- The import declarations that come next. -/
def imports (p : Parser) : Except SyntaxError (List ImportDeclaration) × Parser :=
  if p.atKeyword .kwImport then
    match _h : importDeclaration p with
    | (.error e, q) => (.error e, q)
    | (.ok declaration, q) => (imports q).map (Except.map (declaration :: ·)) id
  else (.ok [], p)
termination_by p.rest.length
decreasing_by exact progresses_importDeclaration _h

/-- The head of a program. -/
def program : Parse Program := do
  let package ← packageClause
  let imports ← imports
  return { package, imports }

end Parser

end Frontend
