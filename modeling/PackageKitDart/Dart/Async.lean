import PackageKitDart.Dart.TypedData

namespace PackageKitDart.Dart

variable {α ε : Type}

/-- A `Completer`: the value or error it was completed with, once it was. -/
structure Completer (α ε : Type) where
  outcome : Option (Except ε α) := none

namespace Completer

def isCompleted (c : Completer α ε) : Bool := c.outcome.isSome

def settle (c : Completer α ε) (outcome : Except ε α) : Except DartError (Completer α ε) :=
  if c.isCompleted then .error (.stateError "Future already completed")
  else .ok { outcome := some outcome }

def complete (c : Completer α ε) (value : α) : Except DartError (Completer α ε) :=
  c.settle (.ok value)

def completeError (c : Completer α ε) (error : ε) : Except DartError (Completer α ε) :=
  c.settle (.error error)

theorem settle_of_none {c : Completer α ε} (h : c.outcome = none) (o : Except ε α) :
    c.settle o = .ok { outcome := some o } := by
  simp [settle, isCompleted, h]

theorem isCompleted_eq_false {c : Completer α ε} : c.isCompleted = false ↔ c.outcome = none :=
  Option.isSome_eq_false_iff.trans Option.isNone_iff_eq_none

end Completer

/-- A `StreamController`: the events added to its stream so far. -/
structure StreamController (α : Type) where
  events : List α := []
  isClosed : Bool := false

namespace StreamController

def add (c : StreamController α) (event : α) : Except DartError (StreamController α) :=
  if c.isClosed then .error (.stateError "Cannot add event after closing")
  else .ok { c with events := c.events ++ [event] }

def close (c : StreamController α) : StreamController α := { c with isClosed := true }

@[simp]
theorem close_events (c : StreamController α) : c.close.events = c.events := rfl

@[simp]
theorem close_isClosed (c : StreamController α) : c.close.isClosed = true := rfl

@[simp]
theorem close_close (c : StreamController α) : c.close.close = c.close := rfl

theorem close_of_isClosed {c : StreamController α} (h : c.isClosed = true) : c.close = c := by
  cases c
  subst h
  rfl

end StreamController

end PackageKitDart.Dart
