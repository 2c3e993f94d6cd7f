/-
# Listeners

Those who want to know when the content of a text model may have changed. They
are told in the order in which they came.

Key definitions: `Notice`, `Listeners`, `Listeners.notify`, `Update`.
-/

namespace RichText

/-- What one listener is told. -/
structure Notice where
  listener : Nat
  /-- Whether there is new content. -/
  committed : Bool
deriving DecidableEq, Repr

/-- The listeners of a model, who are numbered from zero. -/
structure Listeners where
  count : Nat := 0
deriving DecidableEq, Repr

namespace Listeners

def add (l : Listeners) : Listeners := ⟨l.count + 1⟩

/-- What the listeners are told. -/
def notify (l : Listeners) (committed : Bool) : List Notice :=
  (List.range l.count).map fun listener => { listener, committed }

end Listeners

/-- What a change of a model comes to: the result for the one who asked for it,
what the listeners are told, and the model afterwards. -/
structure Update (Error Model : Type) where
  result : Except Error Unit
  notices : List Notice
  model : Model

end RichText
