import Frontend.Text.Offset

/-!
# Keywords

The reserved words of the language. `ofText?` finds the keyword that a word spells, and no two
keywords are spelled alike.
-/

namespace Frontend

/-- A reserved word. -/
inductive Keyword where
  | kwBreak
  | kwCase
  | kwChan
  | kwConst
  | kwContinue
  | kwDefault
  | kwDefer
  | kwElse
  | kwEnum
  | kwFallthrough
  | kwFor
  | kwFunc
  | kwGo
  | kwGoto
  | kwIf
  | kwImport
  | kwInterface
  | kwMap
  | kwMatch
  | kwPackage
  | kwRange
  | kwReturn
  | kwSelect
  | kwStruct
  | kwSwitch
  | kwType
  | kwVar
  deriving DecidableEq, Ord, Repr

namespace Keyword

/-- Every keyword, in alphabetical order. -/
def all : List Keyword := [
  .kwBreak, .kwCase, .kwChan, .kwConst, .kwContinue, .kwDefault, .kwDefer, .kwElse, .kwEnum,
  .kwFallthrough, .kwFor, .kwFunc, .kwGo, .kwGoto, .kwIf, .kwImport, .kwInterface, .kwMap,
  .kwMatch, .kwPackage, .kwRange, .kwReturn, .kwSelect, .kwStruct, .kwSwitch, .kwType, .kwVar]

/-- How the keyword is spelled. -/
def text : Keyword → Text
  | kwBreak => ['b', 'r', 'e', 'a', 'k']
  | kwCase => ['c', 'a', 's', 'e']
  | kwChan => ['c', 'h', 'a', 'n']
  | kwConst => ['c', 'o', 'n', 's', 't']
  | kwContinue => ['c', 'o', 'n', 't', 'i', 'n', 'u', 'e']
  | kwDefault => ['d', 'e', 'f', 'a', 'u', 'l', 't']
  | kwDefer => ['d', 'e', 'f', 'e', 'r']
  | kwElse => ['e', 'l', 's', 'e']
  | kwEnum => ['e', 'n', 'u', 'm']
  | kwFallthrough => ['f', 'a', 'l', 'l', 't', 'h', 'r', 'o', 'u', 'g', 'h']
  | kwFor => ['f', 'o', 'r']
  | kwFunc => ['f', 'u', 'n', 'c']
  | kwGo => ['g', 'o']
  | kwGoto => ['g', 'o', 't', 'o']
  | kwIf => ['i', 'f']
  | kwImport => ['i', 'm', 'p', 'o', 'r', 't']
  | kwInterface => ['i', 'n', 't', 'e', 'r', 'f', 'a', 'c', 'e']
  | kwMap => ['m', 'a', 'p']
  | kwMatch => ['m', 'a', 't', 'c', 'h']
  | kwPackage => ['p', 'a', 'c', 'k', 'a', 'g', 'e']
  | kwRange => ['r', 'a', 'n', 'g', 'e']
  | kwReturn => ['r', 'e', 't', 'u', 'r', 'n']
  | kwSelect => ['s', 'e', 'l', 'e', 'c', 't']
  | kwStruct => ['s', 't', 'r', 'u', 'c', 't']
  | kwSwitch => ['s', 'w', 'i', 't', 'c', 'h']
  | kwType => ['t', 'y', 'p', 'e']
  | kwVar => ['v', 'a', 'r']

/-- The spelling with a capital letter, which names the keyword in a dump. -/
def name (k : Keyword) : String :=
  match k.text with
  | [] => ""
  | c :: word => String.ofList (c.toUpper :: word)

/-- Whether a line break after the keyword ends the statement. -/
def endsStatement : Keyword → Bool
  | kwBreak | kwContinue | kwFallthrough | kwReturn => true
  | _ => false

/-- The keyword that a word spells. -/
def ofText? (word : Text) : Option Keyword :=
  all.find? fun k => k.text = word

/-- What is said of a word that spells no keyword. -/
def notFoundMessage : String :=
  "invalid string representation of keyword."

/-- Every keyword is listed. -/
theorem mem_all (k : Keyword) : k ∈ all := by
  cases k <;> decide

/-- No keyword is spelled by nothing. -/
theorem text_ne_nil (k : Keyword) : k.text ≠ [] := by
  cases k <;> simp [text]

/-- A word spells the keyword that is found for it, and no other. -/
theorem ofText?_eq_some_iff {word : Text} {k : Keyword} :
    ofText? word = some k ↔ k.text = word := by
  constructor
  · intro h
    simpa using List.find?_some h
  · rintro rfl
    cases k <;> decide

/-- No keyword is found for a word that spells none. -/
theorem ofText?_eq_none_iff {word : Text} : ofText? word = none ↔ ∀ k : Keyword, k.text ≠ word := by
  simp [ofText?, mem_all]

/-- No two keywords are spelled alike. -/
theorem text_injective {k k' : Keyword} (h : k.text = k'.text) : k = k' :=
  Option.some.inj ((ofText?_eq_some_iff.mpr h).symm.trans (ofText?_eq_some_iff.mpr rfl))

end Keyword

end Frontend
