/-!
# Events and loggers

Functions do not print: what there is to report they return as a list of events, in order, together
with their result. An event has a level, a message and named fields. A logger has a dotted name, and
every event of a logger carries it.
-/

namespace ExtensionKit

/-- How important an event is. -/
inductive Level where
  | debug
  | info
  | warn
  | error
deriving DecidableEq, Repr

/-- The name of a level. -/
def Level.name : Level → String
  | .debug => "DEBUG"
  | .info => "INFO"
  | .warn => "WARN"
  | .error => "ERROR"

/-- Something that is reported. -/
structure Event where
  /-- how important it is -/
  level : Level
  /-- what it says -/
  message : String
  /-- what it is about -/
  fields : List (String × String)
deriving DecidableEq, Repr

/-- A result with the events reported on the way to it. -/
structure Logged (α : Type) where
  /-- the events in order -/
  events : List Event
  /-- the result -/
  value : α

namespace Logged

instance : Monad Logged where
  pure a := ⟨[], a⟩
  bind x f := ⟨x.events ++ (f x.value).events, (f x.value).value⟩

/-- Reports an event. -/
def report (e : Event) : Logged Unit := ⟨[e], ()⟩

@[simp] theorem events_pure (a : α) : (pure a : Logged α).events = [] := rfl

@[simp] theorem value_pure (a : α) : (pure a : Logged α).value = a := rfl

@[simp] theorem events_bind (x : Logged α) (f : α → Logged β) :
    (x >>= f).events = x.events ++ (f x.value).events := rfl

@[simp] theorem value_bind (x : Logged α) (f : α → Logged β) :
    (x >>= f).value = (f x.value).value := rfl

end Logged

/-- A source of events with a dotted name. -/
structure Logger where
  /-- the name -/
  name : String
deriving DecidableEq, Repr

namespace Logger

/-- The logger that all others descend from. -/
def root : Logger := ⟨"flowgen"⟩

/-- The logger of a part. -/
def child (l : Logger) (name : String) : Logger := ⟨l.name ++ "." ++ name⟩

/-- An event of the logger. -/
def event (l : Logger) (level : Level) (message : String) : Event :=
  ⟨level, message, [("logger", l.name)]⟩

end Logger

end ExtensionKit
