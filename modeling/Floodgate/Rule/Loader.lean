import Floodgate.Rule.Book
import Floodgate.Rule.Document

/-!
# Loading rules

A loader turns documents into changes of the rule book and tells its listeners of each change.
What listeners know is a state `σ`; a listener is a function on it. A document that is refused,
and one that changes nothing, leaves the book and the listeners as they are.
-/

set_option autoImplicit false

universe u

namespace Floodgate

/-- What is done with the new book after a change of rules of one kind. -/
def Listener (σ : Type u) := RuleKind → RuleBook → σ → σ

structure Loader (σ : Type u) where
  listeners : List (Listener σ) := []

namespace Loader

variable {σ : Type u}

/-- The loader with one more listener, told last. -/
def withListener (l : Loader σ) (f : Listener σ) : Loader σ := { listeners := l.listeners ++ [f] }

def notify (l : Loader σ) (kind : RuleKind) (book : RuleBook) (s : σ) : σ :=
  l.listeners.foldl (fun s f => f kind book s) s

/-- The book after a document, if the document changes it. -/
def read? (book : RuleBook) (raw : RawRule) : Option RuleBook :=
  match raw.parse with
  | .ok change => book.change? change
  | .error _ => none

/-- Applies one document. Says whether the rules changed. -/
def apply (l : Loader σ) (raw : RawRule) (state : RuleBook × σ) : Bool × RuleBook × σ :=
  match read? state.1 raw with
  | some book => (true, book, l.notify raw.kind book state.2)
  | none => (false, state)

/-- Applies documents one after another. Says how many changed the rules. -/
def applyAll (l : Loader σ) : List RawRule → RuleBook × σ → Nat × RuleBook × σ
  | [], state => (0, state)
  | raw :: rest, state =>
    let (changed, state) := l.apply raw state
    let (count, state) := l.applyAll rest state
    (if changed then count + 1 else count, state)

end Loader
end Floodgate
