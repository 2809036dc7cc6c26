import SessionGuard.Scenario.World

/-!
# Scenarios

A `Scenario` takes the application through steps, against a script and with a clock of its own.
A step is done once every operation waits, and its report says what happened meanwhile.
-/

namespace SessionGuard

structure Scenario where
  world : World
  /-- The names of the operations in the background. -/
  names : List (Nat × String)
  /-- The number of the next operation. -/
  next : Nat

namespace Scenario

inductive Step
  /-- Runs an operation to its end. -/
  | run (op : Operation)
  /-- Starts an operation in the background. -/
  | start (name : String) (op : Operation)
  /-- Stores a token behind the session's back. -/
  | storeToken (token : Token)
  | clearToken
  /-- Puts an entry where the session file is. -/
  | placeFile (entry : Entry)
  /-- Lets a call that is held go on. -/
  | release (name : String)
  | advance (milliseconds : Nat)
  /-- Gives an operation in the background up. -/
  | abandon (name : String)

/-- What a step answers. -/
inductive Result
  | outcome (outcome : Outcome)
  | started
  /-- Another operation waits for the session already. -/
  | skipped
  /-- The operation never ends. -/
  | stuck
  | done

/-- What happened in a step, and the application after it. -/
structure Report where
  result : Result
  app : App
  navigations : List Navigation
  calls : List Call
  /-- The operations in the background that ended, oldest first. -/
  finished : List (String × Outcome)

/-- A scenario before its first step. -/
def starting (world : World) : Scenario := ⟨world, [], 0⟩

/-- How long a step waits for its operation, in milliseconds. -/
def stepLimit : Nat := 10000000000

/-- Whether an operation waits for the session to be judged. -/
def isVisit : Operation → Bool
  | .awaitResolved | .visit _ => true
  | _ => false

/-- Whether a visit has to be left out, another one waiting. -/
def isSkipped (op : Operation) (w : World) : Bool :=
  isVisit op && w.machine.app.session.state.isLoading
    && w.machine.waiting.any fun v => v.2.call?.isNone

/-- The scenario with another store. -/
def withStore (store : Store) (s : Scenario) : Scenario :=
  let m := s.world.machine
  { s with world := { s.world with machine := { m with app := { m.app with store := store } } } }

/-- Runs an operation to its end, or gives it up. -/
def runOperation (op : Operation) (s : Scenario) : Scenario × Result :=
  let id := s.next
  let world := (s.world.spawn id op).await id (s.world.clock + stepLimit)
  match world.outcome? id with
  | some outcome => ({ s with world := world, next := id + 1 }, .outcome outcome)
  | none => ({ s with world := world.abandon id, next := id + 1 }, .stuck)

/-- A step, up to where the operations in the background run. -/
def act (step : Step) (s : Scenario) : Scenario × Result :=
  match step with
  | .run op => if isSkipped op s.world then (s, .skipped) else s.runOperation op
  | .start name op =>
    if isSkipped op s.world then (s, .skipped)
    else
      ({ s with
        world := s.world.spawn s.next op
        names := s.names ++ [(s.next, name)]
        next := s.next + 1 }, .started)
  | .storeToken token =>
    match s.world.machine.app.store.set token with
    | .ok store => (s.withStore store, .outcome (.stored (.ok ())))
    | .error f => (s.withStore f.left, .outcome (.stored (.error f.cause)))
  | .clearToken => (s.withStore s.world.machine.app.store.clear, .done)
  | .placeFile entry => (s.withStore (s.world.machine.app.store.placeFile entry), .done)
  | .release name => ({ s with world := s.world.release name }, .done)
  | .advance time => ({ s with world := s.world.moveTo (s.world.clock + time) }, .done)
  | .abandon name =>
    match s.names.reverse.find? fun n => n.2 == name with
    | some (id, _) => ({ s with world := s.world.abandon id }, .done)
    | none => (s, .done)

/-- A step, and what happened in it. -/
def step (step : Step) (s : Scenario) : Scenario × Report :=
  let before := s.world.machine
  let (s, result) := s.act step
  let s := { s with world := s.world.settle none }
  let after := s.world.machine
  (s,
    { result := result
      app := after.app
      navigations := after.app.history.log.drop before.app.history.log.length
      calls := after.app.calls.drop before.app.calls.length
      finished := (after.finished.drop before.finished.length).filterMap fun f =>
        (s.names.find? fun n => n.1 == f.1).map fun n => (n.2, f.2) })

/-- The reports of steps, in their order. -/
def reports : List Step → Scenario → List Report
  | [], _ => []
  | x :: rest, s =>
    let (s, report) := s.step x
    report :: reports rest s

end Scenario

end SessionGuard
