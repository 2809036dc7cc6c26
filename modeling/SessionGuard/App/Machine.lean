import SessionGuard.App.Operation

/-!
# Interleavings

A `Machine` is an application with the operations that wait, each under a number.  An `Event`
starts an operation or runs a waiting one on; the events of a run come in any order.
-/

namespace SessionGuard

structure Machine where
  app : App
  waiting : List (Nat × Waiting)
  /-- The operations that have ended, oldest first. -/
  finished : List (Nat × Outcome)

/-- What can happen next: an operation starts under a number, or the waiting one of a number gets
its answer, runs out of time, looks at the session again or is given up. -/
inductive Event
  | start (id : Nat) (now : Int) (op : Operation)
  | answer (id : Nat) (reply : Reply)
  | timeout (id : Nat)
  | wake (id : Nat)
  | abandon (id : Nat)

namespace Machine

def starting (app : App) : Machine := ⟨app, [], []⟩

/-- The waiting operation of a number. -/
def find? (m : Machine) (id : Nat) : Option Waiting :=
  (m.waiting.find? fun w => w.1 == id).map (·.2)

/-- The machine after an operation has run: it waits on, or it has ended. -/
def advance (m : Machine) (id : Nat) (result : App × Progress) : Machine :=
  let others := m.waiting.filter fun w => w.1 != id
  match result.2 with
  | .waiting on => { m with app := result.1, waiting := others ++ [(id, on)] }
  | .finished outcome =>
    { m with app := result.1, waiting := others, finished := m.finished ++ [(id, outcome)] }

/-- The machine after an event.  An operation cannot start under a number that waits, and an event
for a number that does not wait changes nothing. -/
def step (settings : Settings) (m : Machine) : Event → Machine
  | .start id now op =>
    match m.find? id with
    | some _ => m
    | none => m.advance id (m.app.start settings now op)
  | .answer id reply =>
    match m.find? id with
    | some on => m.advance id (m.app.answer settings on reply)
    | none => m
  | .timeout id =>
    match m.find? id with
    | some on => m.advance id (m.app.timeout on)
    | none => m
  | .wake id =>
    match m.find? id with
    | some on => m.advance id (m.app.wake on)
    | none => m
  | .abandon id =>
    match m.find? id with
    | some on =>
      { m with
        app := m.app.abandon on
        waiting := m.waiting.filter fun w => w.1 != id }
    | none => m

/-- The machine after events, in their order. -/
def run (settings : Settings) (m : Machine) (events : List Event) : Machine :=
  events.foldl (step settings) m

@[simp] theorem run_nil (settings : Settings) (m : Machine) : m.run settings [] = m := rfl

@[simp] theorem run_cons (settings : Settings) (m : Machine) (e : Event) (es : List Event) :
    m.run settings (e :: es) = (m.step settings e).run settings es := rfl

theorem run_append (settings : Settings) (m : Machine) (es fs : List Event) :
    m.run settings (es ++ fs) = (m.run settings es).run settings fs := by
  simp [run, List.foldl_append]

end Machine

end SessionGuard
