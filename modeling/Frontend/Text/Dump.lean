/-!
# Structured dumps

A value shown for inspection is a tree of named records, tuples and lists. It is written either
on one line or with one item a line, where each level is indented by four spaces and every item
is followed by a comma.
-/

namespace Frontend

/-- A value laid out for inspection. -/
inductive Dump where
  /-- A text shown as it is. -/
  | leaf (text : String)
  /-- A name and named fields in braces. -/
  | record (name : String) (fields : List (String × Dump))
  /-- A name, which may be empty, and items in parentheses. -/
  | tuple (name : String) (items : List Dump)
  /-- Items in brackets. -/
  | list (items : List Dump)

namespace Dump

mutual

/-- The dump on one line. -/
def compact : Dump → String
  | leaf text => text
  | record name fields => name ++ " \x7b " ++ ", ".intercalate (compactFields fields) ++ " \x7d"
  | tuple name items => name ++ "(" ++ ", ".intercalate (compactItems items) ++ ")"
  | list items => "[" ++ ", ".intercalate (compactItems items) ++ "]"

/-- The items of a tuple or list, each on one line. -/
def compactItems : List Dump → List String
  | [] => []
  | item :: items => compact item :: compactItems items

/-- The fields of a record, each on one line. -/
def compactFields : List (String × Dump) → List String
  | [] => []
  | (name, value) :: fields => (name ++ ": " ++ compact value) :: compactFields fields

end

/-- The indentation of a level. -/
def indent (level : Nat) : String :=
  String.ofList (List.replicate (4 * level) ' ')

mutual

/-- The dump with one item a line, its own first line not indented. -/
def prettyAt (level : Nat) : Dump → String
  | leaf text => text
  | record name fields =>
    name ++ " \x7b\n" ++ String.join (prettyFields (level + 1) fields) ++ indent level ++ "\x7d"
  | tuple name items =>
    name ++ "(\n" ++ String.join (prettyItems (level + 1) items) ++ indent level ++ ")"
  | list [] => "[]"
  | list (item :: items) =>
    "[\n" ++ (indent (level + 1) ++ prettyAt (level + 1) item ++ ",\n") ++
      String.join (prettyItems (level + 1) items) ++ indent level ++ "]"

/-- The lines of the items of a tuple or list. -/
def prettyItems (level : Nat) : List Dump → List String
  | [] => []
  | item :: items => (indent level ++ prettyAt level item ++ ",\n") :: prettyItems level items

/-- The lines of the fields of a record. -/
def prettyFields (level : Nat) : List (String × Dump) → List String
  | [] => []
  | (name, value) :: fields =>
    (indent level ++ name ++ ": " ++ prettyAt level value ++ ",\n") :: prettyFields level fields

end

/-- The dump with one item a line. -/
def pretty (dump : Dump) : String :=
  prettyAt 0 dump

/-- A natural number. -/
def nat (n : Nat) : Dump :=
  leaf (toString n)

/-- A value that may be missing. -/
def option : Option Dump → Dump
  | none => leaf "None"
  | some value => tuple "Some" [value]

end Dump

end Frontend
