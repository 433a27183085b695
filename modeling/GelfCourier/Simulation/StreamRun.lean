import GelfCourier.Diagnostic
import GelfCourier.Simulation.Agenda
import GelfCourier.Stream.Sending

/-!
A stream transport and its collector, under a clock. The collector may drop its connections, stop
listening, and write octets that nobody reads. A connection whose other side is gone shows its end to
a sender that looks, unless octets are still unread; then one more write vanishes in it.
-/

set_option autoImplicit false

namespace GelfCourier.Simulation

/-- The other side of a connection, as the sender sees it. -/
inductive PeerState where
  | alive
  /-- Closed by the collector. -/
  | ended
  /-- Refused octets after its end. -/
  | reset
  deriving DecidableEq

structure Peer where
  state : PeerState := .alive
  /-- Octets from the collector that the sender has not looked at. -/
  unread : Nat := 0

inductive StreamOp where
  | send (message : Message)
  | startSend (name : String) (message : Message)
  | pending (name : String)
  | finish (name : String)
  | dropPeers
  | down
  | up
  | peerWrite (count : Nat)
  | close

inductive StreamReply where
  | done
  | started
  | flag (value : Bool)
  | result (result : Except TransportFault Unit)

structure StreamRun where
  transport : Stream.Transport
  agenda : Agenda Nat := {}
  peers : List Peer := [{}]
  listening : Bool := true
  /-- Connections accepted since they were last dropped. -/
  accepted : Nat := 1
  /-- Background sends that nobody has finished yet. -/
  unfinished : List (String × Nat) := []
  /-- Frames received and not reported, without their terminators. -/
  frames : List Bytes := []
  diagnostics : List Diagnostic := []

namespace StreamRun

def refusal : IoFault := ⟨.connectionRefused, "Connection refused (os error 111)"⟩

def start (address : String) (policy : RedialPolicy) : StreamRun :=
  { transport := { address, policy }
    diagnostics := [{ level := .debug, text := "tcp transport connected" }] }

def report (run : StreamRun) (level : Level) (text : String) : StreamRun :=
  { run with diagnostics := run.diagnostics ++ [{ level, text }] }

/-- The transport takes a step; the task that got the lock by it gets a turn. -/
def step (run : StreamRun) (step : Stream.Transport.Step) : StreamRun :=
  match run.transport.step? step with
  | none => run
  | some transport =>
    let agenda :=
      if transport.lock.holder = run.transport.lock.holder then run.agenda
      else run.agenda.wakeAll transport.lock.holder.toList
    { run with transport, agenda }

/-- Looks at one octet from the collector: whether the connection has ended. -/
def looksEnded (peer : Peer) : Bool :=
  peer.unread = 0 && peer.state != .alive

/-- A write of a frame on a connection, and what the collector has of it. -/
def write (run : StreamRun) (number connection : Nat) (frame : Bytes) : StreamRun :=
  let peer := run.peers.getD connection {}
  if looksEnded peer then
    run.step (.wrote number (.broken 0 ⟨.connectionReset, "connection closed by peer"⟩))
  else
    let setPeer (state : PeerState) : StreamRun :=
      { run with peers := run.peers.set connection ⟨state, peer.unread - 1⟩ }
    match peer.state with
    | .alive =>
      { setPeer .alive with frames := run.frames ++ [frame.dropLast] }.step (.wrote number .whole)
    | .ended => (setPeer .reset).step (.wrote number .whole)
    | .reset => (setPeer .reset).step (.wrote number (.broken 0 ⟨.other, "broken pipe"⟩))

/-- A task goes on until it waits or is over. -/
def work (run : StreamRun) (number : Nat) : (turns : Nat) → StreamRun
  | 0 => run
  | turns + 1 =>
    match run.transport.task? number with
    | none => run
    | some task =>
      match task.phase, task.purpose with
      | .finished _, _ => run
      | .asking, _ =>
        if run.transport.lock.isHeldBy number then
          let after := run.step (.enter number)
          let after := match after.transport.phase? number with
            | some (.dialing _) => after.report .warn "tcp write failed"
            | _ => after
          work after number turns
        else run
      | .writing connection, .send message =>
        let after := run.write number connection (Stream.frame message)
        let after := match after.transport.phase? number with
          | some (.dialing _) => after.report .warn "tcp write failed"
          | _ => after
        work after number turns
      | .rewriting connection, .send message =>
        work (run.write number connection (Stream.frame message)) number turns
      | .dialing _, _ =>
        let run := run.report .debug "reconnecting"
        if run.transport.closed then run.step (.noticed number)
        else if run.listening then
          let run :=
            { run with peers := run.peers ++ [({} : Peer)], accepted := run.accepted + 1 }.report .info
              "reconnected"
          work (run.step (.dialled number .connected)) number turns
        else
          let run :=
            (run.report .warn "reconnect failed").step (.dialled number (.refused refusal))
          match run.transport.phase? number with
          | some (.pausing _) =>
            { run with agenda := run.agenda.sleep run.transport.policy.intervalMs number }
          | _ => run
      | .pausing _, _ =>
        if run.transport.closed then
          { run with agenda := run.agenda.unset number }.step (.noticed number)
        else work (run.step (.rested number)) number turns
      | _, .close => run

/-- More steps than a task takes in one turn. -/
def workLimit : Nat := 1000000

def turn (run : StreamRun) (number : Nat) : StreamRun :=
  run.work number workLimit

def play : Play StreamRun Nat where
  agenda run := run.agenda
  setAgenda run agenda := { run with agenda }
  turn := turn

def settle (run : StreamRun) : StreamRun :=
  play.settle pairLimit run

def result? (run : StreamRun) (number : Nat) : Option (Except TransportFault Unit) :=
  match run.transport.phase? number with
  | some (.finished result) => some result
  | _ => none

/-- Lets time pass until a task is over, for the given number of milliseconds at most. -/
def await (run : StreamRun) (number : Nat) : (ms : Nat) → StreamRun
  | 0 => run
  | ms + 1 =>
    if (run.result? number).isSome || run.agenda.timers.isEmpty then run
    else await { run with agenda := run.agenda.tick }.settle number ms

/-- How long an operation is waited for, in milliseconds. -/
def patience : Nat := 100000

def awaited (run : StreamRun) (number : Nat) : StreamRun × StreamReply :=
  let run := run.await number patience
  (run, .result ((run.result? number).getD (.error .closed)))

/-- Begins a send or a close. -/
def spawn (run : StreamRun) (purpose : Stream.Purpose) : StreamRun × Nat :=
  let number := run.transport.tasks.length
  let begun := match purpose with
    | .send message => run.step (.send number message)
    | .close => (run.step .signal).step (.close number)
  ({ begun with agenda := begun.agenda.wake number }, number)

def isPausing (task : Stream.Task) : Bool :=
  match task.phase with
  | .pausing _ => true
  | _ => false

/-- Sends that pause, which a close wakes. -/
def pausing (run : StreamRun) : List Nat :=
  (run.transport.tasks.filter isPausing).map (·.number)

def apply (run : StreamRun) : StreamOp → StreamRun × StreamReply
  | .send message =>
    let (run, number) := run.spawn (.send message)
    run.settle.awaited number
  | .startSend name message =>
    let (run, number) := run.spawn (.send message)
    ({ run.settle with unfinished := run.unfinished ++ [(name, number)] }, .started)
  | .pending name =>
    match run.unfinished.find? fun entry => entry.1 = name with
    | none => (run, .flag false)
    | some (_, number) => (run, .flag (run.result? number).isNone)
  | .finish name =>
    match run.unfinished.find? fun entry => entry.1 = name with
    | none => (run, .done)
    | some (_, number) =>
      { run with unfinished := run.unfinished.filter fun entry => entry.1 ≠ name }.awaited number
  | .dropPeers =>
    ({ run with
        accepted := 0
        peers := run.peers.map fun peer =>
          if peer.state = .alive then { peer with state := .ended } else peer }, .done)
  | .down => ({ run with listening := false }, .done)
  | .up => ({ run with listening := true }, .done)
  | .peerWrite count =>
    ({ run with
        peers := run.peers.map fun peer =>
          if peer.state = .alive then { peer with unread := peer.unread + count } else peer },
      .done)
  | .close =>
    let (run, number) := run.spawn .close
    let run := { run with agenda := run.agenda.wakeAll run.pausing }
    run.settle.awaited number

/-- What is told after an operation: the frames received and the connections accepted, unless
background sends are open. -/
def view? (run : StreamRun) : Option (List Bytes × Nat) :=
  if run.unfinished.isEmpty then some (run.frames, run.accepted) else none

/-- Operations one after another, with what is told after each. -/
def applyAll (run : StreamRun) :
    List StreamOp → StreamRun × List (StreamReply × Option (List Bytes × Nat))
  | [] => (run, [])
  | op :: ops =>
    let (run, reply) := run.apply op
    let view := run.view?
    let run := if view.isSome then { run with frames := [] } else run
    let (run, replies) := run.applyAll ops
    (run, (reply, view) :: replies)

end StreamRun

end GelfCourier.Simulation
