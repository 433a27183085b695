import GelfCourier.Broker.Handover
import GelfCourier.Diagnostic
import GelfCourier.Simulation.Agenda

/-!
A durable transport and its broker. The broker may stop listening, break its connections, and refuse
commands; a refused command changes nothing. One send or one consumer runs at a time. A consumer that
has nothing left to do is ended by a close.
-/

set_option autoImplicit false

namespace GelfCourier.Simulation

/-- What a handler does with a message. -/
inductive HandlerOutcome where
  | succeed
  | fail
  /-- Closes the transport and succeeds. -/
  | closeAndSucceed
  | closeAndFail
  /-- Makes the next push fail, closes the transport and fails. -/
  | loseAndFail
  /-- Takes the broker down, closes the transport and fails. -/
  | downAndFail
  deriving DecidableEq

namespace HandlerOutcome

def succeeds : HandlerOutcome → Bool
  | .succeed => true
  | .closeAndSucceed => true
  | _ => false

def closes : HandlerOutcome → Bool
  | .succeed => false
  | .fail => false
  | _ => true

end HandlerOutcome

inductive BrokerOp where
  | connect
  | send (message : Message)
  | consume (outcomes : List HandlerOutcome)
  | close
  | deposit (payload : Bytes)
  | dropPeers
  | down
  | up
  | failPushes (count : Nat)
  | failPops (count : Nat)
  | failPings (count : Nat)

inductive BrokerReply where
  | done
  /-- A new transport uses this list of the broker. -/
  | connected (queue : String)
  | result (result : Except TransportFault Unit)

/-- A message given to the handler, and what the handler did. -/
structure HandlerCall where
  message : Message
  outcome : HandlerOutcome

structure BrokerRun where
  settings : BrokerSettings
  /-- The transport in use; before the first connect, a closed one. -/
  transport : Broker.Transport := { Broker.Transport.ofSettings settings [] with closed := true }
  listening : Bool := true
  /-- Connections accepted so far, numbered from zero. -/
  accepted : Nat := 0
  /-- Connections with a number below this are broken. -/
  severed : Nat := 0
  failingPushes : Nat := 0
  failingPops : Nat := 0
  failingPings : Nat := 0
  /-- What the handler will do, call by call; afterwards it succeeds. -/
  outcomes : List HandlerOutcome := []
  calls : List HandlerCall := []
  diagnostics : List Diagnostic := []

namespace BrokerRun

def report (run : BrokerRun) (level : Level) (text : String) : BrokerRun :=
  { run with diagnostics := run.diagnostics ++ [{ level, text }] }

def step (run : BrokerRun) (step : Broker.Transport.Step) : BrokerRun :=
  { run with transport := (run.transport.step? step).getD run.transport }

/-- All connections break. -/
def sever (run : BrokerRun) : BrokerRun :=
  { run with severed := run.accepted }

def dial (run : BrokerRun) : BrokerRun × Broker.DialEnd :=
  if run.listening then ({ run with accepted := run.accepted + 1 }, .connected run.accepted)
  else (run, .refused)

/-- The broker's answer to a push on a connection. -/
def answerPush (run : BrokerRun) (connection : Nat) : BrokerRun × Bool :=
  if connection < run.severed then (run, false)
  else if 0 < run.failingPushes then
    ({ run with failingPushes := run.failingPushes - 1 }, false)
  else (run, true)

/-- The broker's answer to a pop on a connection, if there is one before the list gets an element. -/
def answerPop (run : BrokerRun) (connection : Nat) : BrokerRun × Option Broker.PopEnd :=
  if connection < run.severed then (run, some .failed)
  else if 0 < run.failingPops then
    ({ run with failingPops := run.failingPops - 1 }, some .failed)
  else if !run.transport.list.isEmpty then (run, some .element)
  else if run.transport.closed then (run, some .nothing)
  else (run, none)

/-- What a handler call does besides its result. -/
def handle (run : BrokerRun) (payload : Bytes) : BrokerRun × HandlerOutcome :=
  let outcome := run.outcomes.headD .succeed
  let calls := match Payload.read payload with
    | .ok message => run.calls ++ [⟨message, outcome⟩]
    | .error _ => run.calls
  let run := { run with calls, outcomes := run.outcomes.tail }
  let run := match outcome with
    | .loseAndFail => { run with failingPushes := 1 }
    | .downAndFail => { run with listening := false }.sever
    | _ => run
  (if outcome.closes then run.step .close else run, outcome)

def isPausing : Broker.Phase → Bool
  | .push _ .pausing => true
  | .resting => true
  | _ => false

def isLooking : Broker.Phase → Bool
  | .push _ .looking => true
  | .looking => true
  | _ => false

/-- A pop that brought an element, and a complaint where that is no message. -/
def receive (run : BrokerRun) (number : Nat) : BrokerRun :=
  let payload := run.transport.list.headD []
  let run := run.step (.popEnded number .element)
  match payload, run.transport.phase? number with
  | _ :: _, some .looking => run.report .error "dropping undecodable payload"
  | _, _ => run

/-- The next step of a task, unless it waits for somebody else or is over. -/
def proceed (run : BrokerRun) (task : Broker.Task) : Option BrokerRun :=
  let number := task.number
  match task.phase with
  | .push _ .claiming =>
    if run.transport.pool.isReady number then some (run.step (.take number))
    else if run.transport.pool.isMaking number then
      match run.dial with
      | (run, .refused) => some (run.report .warn "failed to create pooled object, retrying")
      | (run, ending) => some (run.step (.dialled number ending))
    else none
  | .push _ .pushing =>
    match run.answerPush ((run.transport.pool.object? number).getD 0) with
    | (run, true) =>
      some ((run.step (.pushed number true)).report .debug "pushed gelf message")
    | (run, false) =>
      some ((run.step (.pushed number false)).report .warn "redis push failed, retrying")
  | .popping =>
    match task.connection with
    | none =>
      match run.dial with
      | (run, .refused) =>
        some ((run.step (.dialled number .refused)).report .warn "redis pop failed, retrying")
      | (run, ending) => some (run.step (.dialled number ending))
    | some connection =>
      match run.answerPop connection with
      | (_, none) => none
      | (run, some .element) => some (run.receive number)
      | (run, some .failed) =>
        some ((run.step (.popEnded number .failed)).report .warn "redis pop failed, retrying")
      | (run, some .nothing) => some (run.step (.popEnded number .nothing))
  | .handling payload =>
    let (run, outcome) := run.handle payload
    let run := run.step (.handled number outcome.succeeds)
    some (if outcome.succeeds then run
      else run.report .warn "handler failed, requeueing message")
  | .redialing _ =>
    match run.dial with
    | (run, .refused) =>
      some ((run.step (.dialled number .refused)).report .error
        "message lost: requeue failed while closing")
    | (run, ending) => some (run.step (.dialled number ending))
  | .returning _ =>
    match run.answerPush run.accepted with
    | (run, true) =>
      some ((run.step (.pushed number true)).report .debug "requeued message while closing")
    | (run, false) =>
      some ((run.step (.pushed number false)).report .error
        "message lost: requeue failed while closing")
  | .finished _ => none
  | phase =>
    if isPausing phase then some (run.step (.rested number))
    else if isLooking phase then some (run.step (.look number))
    else none

/-- Steps of one task until it waits for somebody else or is over. -/
def work (run : BrokerRun) (number : Nat) : (turns : Nat) → BrokerRun
  | 0 => run
  | turns + 1 =>
    match (run.transport.task? number).bind run.proceed with
    | none => run
    | some next => work next number turns

/-- How many steps a task gets before it is given up. -/
def patience : Nat := 10000

def result (run : BrokerRun) (number : Nat) : Except TransportFault Unit :=
  match run.transport.phase? number with
  | some (.finished result) => result
  | _ => .error .closed

def isOver (run : BrokerRun) (number : Nat) : Bool :=
  match run.transport.phase? number with
  | some (.finished _) => true
  | _ => false

/-- Opens a connection and asks for a sign of life; then a new transport replaces the old one. -/
def connect (run : BrokerRun) : BrokerRun × BrokerReply :=
  match run.dial with
  | (run, .refused) => (run, .result (.error .broker))
  | (run, .connected _) =>
    if 0 < run.failingPings then
      ({ run with failingPings := run.failingPings - 1 }, .result (.error .broker))
    else
      let transport := Broker.Transport.ofSettings run.settings run.transport.list
      ({ run with transport }.report .info "redis transport connected",
        .connected run.settings.queue)

def consume (run : BrokerRun) (outcomes : List HandlerOutcome) : BrokerRun × BrokerReply :=
  let number := run.transport.tasks.length
  let begun := { run with outcomes }.step (.consume number)
  let run := begun.work number patience
  let run := if run.isOver number then run else (run.step .close).work number patience
  (run, .result (run.result number))

def apply (run : BrokerRun) : BrokerOp → BrokerRun × BrokerReply
  | .connect => run.connect
  | .send message =>
    let number := run.transport.tasks.length
    let run := (run.step (.send number (Payload.forQueue message))).work number patience
    (run, .result (run.result number))
  | .consume outcomes => run.consume outcomes
  | .close => (run.step .close, .result (.ok ()))
  | .deposit payload => (run.step (.deposit payload), .done)
  | .dropPeers => (run.sever, .done)
  | .down => ({ run with listening := false }.sever, .done)
  | .up => ({ run with listening := true }, .done)
  | .failPushes failingPushes => ({ run with failingPushes }, .done)
  | .failPops failingPops => ({ run with failingPops }, .done)
  | .failPings failingPings => ({ run with failingPings }, .done)

/-- What an operation is answered, and what can be seen after it. -/
structure BrokerView where
  reply : BrokerReply
  calls : List HandlerCall
  list : List Bytes
  accepted : Nat

/-- Operations one after another, with what can be seen after each. -/
def applyAll (run : BrokerRun) : List BrokerOp → BrokerRun × List BrokerView
  | [] => (run, [])
  | op :: ops =>
    let (run, reply) := { run with calls := [] }.apply op
    let view := ⟨reply, run.calls, run.transport.list, run.accepted⟩
    let (run, views) := run.applyAll ops
    (run, view :: views)

end BrokerRun

end GelfCourier.Simulation
