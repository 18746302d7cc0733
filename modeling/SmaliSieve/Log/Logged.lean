/-
  SmaliSieve.Log.Logged

  A value together with the events that arose while it was found. Putting two such
  computations one after the other puts their events one after the other; a value never
  depends on events.
-/

import SmaliSieve.Log.Event

namespace SmaliSieve.Log

/-- A value and the events that go with it. -/
structure Logged (α : Type) where
  value : α
  events : List Event

namespace Logged

/-- The events alone. -/
def tell (events : List Event) : Logged Unit := ⟨(), events⟩

instance : Monad Logged where
  pure value := ⟨value, []⟩
  bind first next :=
    let second := next first.value
    ⟨second.value, first.events ++ second.events⟩

theorem value_bind {α β : Type} (first : Logged α) (next : α → Logged β) :
    (first >>= next).value = (next first.value).value := rfl

theorem events_bind {α β : Type} (first : Logged α) (next : α → Logged β) :
    (first >>= next).events = first.events ++ (next first.value).events := rfl

end Logged

end SmaliSieve.Log
