import NearestWins.Event

/-!
# Values with a log

`Traced ε α` is a value together with what was noted while it was computed. Steps done one after the
other have their notes one after the other. A run notes the events that it reports: `Logged α` is a
value with events.
-/

namespace NearestWins

/-- A value and the notes on the way to it. -/
structure Traced (ε α : Type) where
  /-- The value. -/
  value : α
  /-- The notes, first one first. -/
  log : List ε

namespace Traced

variable {ε α β : Type}

instance : Monad (Traced ε) where
  pure value := ⟨value, []⟩
  bind step next := ⟨(next step.value).value, step.log ++ (next step.value).log⟩

@[simp] theorem value_pure (a : α) : (pure a : Traced ε α).value = a := rfl

@[simp] theorem log_pure (a : α) : (pure a : Traced ε α).log = [] := rfl

@[simp] theorem value_bind (x : Traced ε α) (f : α → Traced ε β) :
    (x >>= f).value = (f x.value).value := rfl

@[simp] theorem log_bind (x : Traced ε α) (f : α → Traced ε β) :
    (x >>= f).log = x.log ++ (f x.value).log := rfl

end Traced

/-- A value and the events on the way to it. -/
abbrev Logged := Traced Event

namespace Logged

/-- A computation that only reports an event. -/
def report (event : Event) : Logged Unit := ⟨(), [event]⟩

end Logged

end NearestWins
