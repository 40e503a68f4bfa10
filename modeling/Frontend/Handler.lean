/-!
# Error handlers

A handler is told about errors as they are found and keeps of them what it needs. It does not
decide what happens next: whoever reports an error also returns it.
-/

namespace Frontend

/-- A way to deal with reported errors, with what it keeps of them. -/
structure Handler (ε σ : Type) where
  /-- Takes an error. -/
  receive : σ → ε → σ
  /-- Whether an error was received. -/
  hasReceived : σ → Bool

namespace Handler

variable {ε σ : Type}

/-- Keeps every error, in the order they come. -/
def log : Handler ε (List ε) where
  receive kept e := kept ++ [e]
  hasReceived kept := !kept.isEmpty

/-- Counts the errors. -/
def count : Handler ε Nat where
  receive n _ := n + 1
  hasReceived n := 0 < n

/-- Prints the errors: keeps the lines that are printed. -/
def print (message : ε → String) : Handler ε (List String) where
  receive printed e := printed ++ [message e]
  hasReceived printed := !printed.isEmpty

/-- Ignores the errors. -/
def ignore : Handler ε Unit where
  receive _ _ := ()
  hasReceived _ := false

/-- Takes an error if there is one. -/
def receiveAny (h : Handler ε σ) (s : σ) : Option ε → σ
  | none => s
  | some e => h.receive s e

end Handler

end Frontend
