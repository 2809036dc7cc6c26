import SessionGuard.App.Machine
import SessionGuard.Scenario.Script

/-!
# A world with a clock of its own

A `World` runs the operations of a machine against a script.  Operations run one at a time, in the
order in which they were woken, each until it waits.  The clock stands still while any of them can
run; timers fire by their moment, and those of one moment in the order they were set.
-/

namespace SessionGuard

/-- A call on its way. -/
structure Flight where
  /-- The release that the reply waits for. -/
  hold : Option String
  /-- How long the reply takes, from the call or the release on. -/
  delay : Nat
  /-- The moment of the reply; meaningless while it is held. -/
  due : Nat
  reply : Option Reply
  /-- The moment from which the reply is not waited for. -/
  limit : Option Nat

namespace Flight

/-- The reply, if it is there at a moment. -/
def reply? (f : Flight) (clock : Nat) : Option Reply :=
  if f.hold.isNone && f.due ≤ clock then f.reply else none

/-- Whether the reply is not waited for any more. -/
def isOver (f : Flight) (clock : Nat) : Bool := f.limit.any (· ≤ clock)

end Flight

/-- Operations are known by their numbers; moments are in milliseconds. -/
structure World where
  settings : Settings
  /-- The date, in seconds, that tokens are judged by. -/
  date : Int
  machine : Machine
  script : Script
  clock : Nat
  flights : List (Nat × Flight)
  timers : List (Nat × Nat)
  /-- The releases that nothing has waited for yet. -/
  permits : List String
  /-- The operations that have not begun. -/
  fresh : List (Nat × Operation)
  /-- The operations to run next. -/
  woken : List Nat

namespace World

def starting (settings : Settings) (date : Int) (app : App) (script : Script) : World :=
  ⟨settings, date, .starting app, script, 0, [], [], [], [], []⟩

/-! ## Waking -/

def wake (id : Nat) (w : World) : World :=
  if id ∈ w.woken then w else { w with woken := w.woken ++ [id] }

def setTimer (moment id : Nat) (w : World) : World :=
  { w with
    timers := w.timers.takeWhile (·.1 ≤ moment) ++ (moment, id)
      :: w.timers.dropWhile (·.1 ≤ moment) }

/-- Moves the clock on to a moment; the timers up to it fire. -/
def moveTo (moment : Nat) (w : World) : World :=
  let clock := max w.clock moment
  let due := w.timers.takeWhile (·.1 ≤ clock)
  let w := { w with clock := clock, timers := w.timers.dropWhile (·.1 ≤ clock) }
  due.foldl (fun w t => w.wake t.2) w

/-- Wakes the operations that wait for the session. -/
def wakeVisitors (w : World) : World :=
  (w.machine.waiting.filter fun v => v.2.call?.isNone).foldl (fun w v => w.wake v.1) w

/-! ## Calls -/

/-- Sends the call that an operation waits for on its way. -/
def depart (id : Nat) (on : Waiting) (w : World) : World :=
  match on.call? with
  | none => w
  | some call =>
    let (scripted, script) := w.script.next call.endpoint
    let free := scripted.hold.all (· ∈ w.permits)
    let due := w.clock + scripted.delay
    let limit :=
      match on with
      | .validating .. => some (w.clock + w.settings.timeout)
      | _ => none
    let flight : Flight :=
      ⟨if free then none else scripted.hold, scripted.delay, due, scripted.reply, limit⟩
    let w := { w with
      script := script
      permits := w.permits.filter fun p => scripted.hold != some p
      flights := w.flights ++ [(id, flight)] }
    let w := if free && scripted.reply.isSome then w.setTimer due id else w
    match limit with
    | some moment => w.setTimer moment id
    | none => w

/-- Forgets the call of an operation. -/
def land (id : Nat) (w : World) : World :=
  { w with
    flights := w.flights.filter fun f : Nat × Flight => f.1 != id
    timers := w.timers.filter fun t : Nat × Nat => t.2 != id }

/-- Lets the first call that waits for a release go on, or else the next one to come. -/
def release (name : String) (w : World) : World :=
  match w.flights.find? fun f => f.2.hold == some name with
  | some (id, flight) =>
    let due := w.clock + flight.delay
    let w := { w with
      flights := w.flights.map fun f : Nat × Flight =>
        if f.1 == id then (id, { flight with hold := none, due := due }) else f }
    (if flight.reply.isSome then w.setTimer due id else w).wake id
  | none => if name ∈ w.permits then w else { w with permits := w.permits ++ [name] }

/-! ## Running operations -/

/-- An event of one operation: who waits for the session looks at it anew if it has changed. -/
def happen (id : Nat) (e : Event) (w : World) : World :=
  let before := w.machine.app.session
  let w := { w with machine := w.machine.step w.settings e }.land id
  let after := w.machine.app.session
  let w :=
    if after.state = before.state ∧ after.generation = before.generation then w
    else w.wakeVisitors
  match w.machine.find? id with
  | some on => w.depart id on
  | none => w

/-- Runs an operation until it waits, for `fuel` events at most. -/
def runWithin : Nat → Nat → World → World
  | 0, _, w => w
  | fuel + 1, id, w =>
    match w.fresh.find? fun f => f.1 == id with
    | some (_, op) =>
      let w := { w with fresh := w.fresh.filter fun f => f.1 != id }
      runWithin fuel id (w.happen id (.start id w.date op))
    | none =>
      match w.flights.find? fun f => f.1 == id with
      | some (_, flight) =>
        match flight.reply? w.clock with
        | some reply => runWithin fuel id (w.happen id (.answer id reply))
        | none => if flight.isOver w.clock then w.happen id (.timeout id) else w
      | none => w.happen id (.wake id)

/-- The number of events until any operation waits: its beginning, and the answers to the three
calls of the longest. -/
def longest : Nat := 5

/-- Runs a woken operation until it waits. -/
def run (id : Nat) (w : World) : World :=
  runWithin longest id { w with woken := w.woken.filter (· != id) }

/-- A number of runs that is not reached before all operations wait. -/
def patience (w : World) : Nat :=
  let operations := w.machine.waiting.length + w.fresh.length + w.woken.length + 1
  16 * operations * operations

/-- Runs the woken operations but one until none is left, `fuel` of them at most. -/
def settleWithin : Nat → Option Nat → World → World
  | 0, _, w => w
  | fuel + 1, other, w =>
    match w.woken.find? fun id => other != some id with
    | some id => settleWithin fuel other (w.run id)
    | none => w

/-- Runs the woken operations, one of them aside, until none is left. -/
def settle (other : Option Nat) (w : World) : World := settleWithin w.patience other w

/-- Puts an operation into the world, to be run next. -/
def spawn (id : Nat) (op : Operation) (w : World) : World :=
  { w with fresh := w.fresh ++ [(id, op)] }.wake id

/-- Gives an operation up. -/
def abandon (id : Nat) (w : World) : World :=
  { w with
    fresh := w.fresh.filter fun f => f.1 != id
    woken := w.woken.filter (· != id) }.happen id (.abandon id)

/-- How an operation has ended. -/
def outcome? (id : Nat) (w : World) : Option Outcome :=
  (w.machine.finished.find? fun f => f.1 == id).map (·.2)

/-- Waits for an operation up to a moment, in `fuel` rounds at most.  In each round the operation
runs first, then the others, and the clock moves on to the next timer once all of them wait. -/
def awaitWithin (id limit : Nat) : Nat → World → World
  | 0, w => w
  | fuel + 1, w =>
    let w := if id ∈ w.woken then w.run id else w
    match w.outcome? id with
    | some _ => w
    | none =>
      let w := w.settle (some id)
      if id ∈ w.woken then awaitWithin id limit fuel w
      else
        match w.timers.head? with
        | some (moment, _) =>
          if moment ≤ limit then awaitWithin id limit fuel (w.moveTo moment) else w.moveTo limit
        | none => w.moveTo limit

/-- Waits for an operation up to a moment. -/
def await (id limit : Nat) (w : World) : World := awaitWithin id limit w.patience w

end World

end SessionGuard
