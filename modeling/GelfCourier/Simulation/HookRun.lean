import GelfCourier.Diagnostic
import GelfCourier.Hook
import GelfCourier.Simulation.Agenda

/-!
A hook over a scripted transport, under a clock. The transport does what extension fields of the
message say: it waits, panics, fails, or takes the message in.
-/

set_option autoImplicit false

namespace GelfCourier.Simulation

/-! The script of a message. -/

namespace Script

def name : String := "script"

def delay? (message : Message) : Option Nat :=
  match message.field? "delay" with
  | some ⟨.number (.integer n _), _⟩ => if 0 ≤ n then some n.toNat else none
  | _ => none

def panics (message : Message) : Bool := (message.field? "panic").isSome

def fault? (message : Message) : Option TransportFault :=
  match message.field? "fail" with
  | some ⟨.string "too_many", _⟩ => some (.tooManyChunks 300)
  | some ⟨.string "unsupported", _⟩ => some (.unsupported name)
  | some ⟨.string "codec", _⟩ => some (.codec (.layout .notAnObject))
  | some ⟨.string _, _⟩ => some .closed
  | _ => none

end Script

inductive HookOp where
  | fire (name : String) (record : Record)
  | enqueue (record : Record)
  | flush (name : String)
  | shutdown (name : String)
  | flushAndClose (name : String)
  /-- Closes the transport and nothing else. -/
  | closeTransport (name : String)

inductive HookReply where
  | done
  | started
  | refused (fault : HookFault)

/-- A task of the run. -/
inductive HookTask where
  | worker (number : Nat)
  | call (number : Nat)
  deriving DecidableEq

/-- What a call made in the background is. -/
inductive Errand where
  | fire (record : Record)
  /-- A fire of a waiting hook, in the middle of its send. -/
  | sending (message : Message) (wait : Agenda.Wait)
  | dispatch (kind : CallKind) (begun : Bool)
  | closeTransport
  | finished

structure HookRun where
  hook : Hook
  pollMs : Nat := 1000
  closeFails : Bool := false
  agenda : Agenda HookTask := {}
  errands : List (Nat × String × Errand) := []
  /-- Workers in the middle of a send that takes its time. -/
  busy : List (Nat × Message × Agenda.Wait) := []
  log : List String := []
  sent : List Message := []
  finished : List (String × Except HookFault Unit × Nat) := []
  diagnostics : List Diagnostic := []

namespace HookRun

def ofHook (hook : Hook) : HookRun :=
  match hook.dispatch with
  | none => { hook }
  | some dispatch =>
    { hook, agenda := { ready := (List.range dispatch.workers.length).map .worker } }

/-- A line of the transport's log: the time, a word, and the short message if there is one. -/
def note (run : HookRun) (word text : String) : HookRun :=
  let line := toString run.agenda.now ++ " " ++ word ++ " " ++ text
  { run with log := run.log ++ [String.ofList (Text.trimEnd line.toList)] }

def report (run : HookRun) (diagnostic : Diagnostic) : HookRun :=
  { run with diagnostics := run.diagnostics ++ [diagnostic] }

/-- The dispatch changes; workers that its queue woke get a turn. -/
def setDispatch (run : HookRun) (before after : Dispatch Record) : HookRun :=
  { run with
    hook := { run.hook with dispatch := some after }
    agenda := run.agenda.wakeAll ((before.queue.newlyReady after.queue).map .worker) }

/-- The transport's answer to a message, once it has waited; `none` stands for a panic. -/
def answer (run : HookRun) (message : Message) : HookRun × Option (Except TransportFault Unit) :=
  if Script.panics message then (run, none)
  else
    match Script.fault? message with
    | some fault => (run.note "fail" message.shortMessage, some (.error fault))
    | none =>
      ({ run.note "done" message.shortMessage with sent := run.sent ++ [message] }, some (.ok ()))

/-- Calls that wait for a worker, and may go on now that it has exited. A call that was put off comes
back with the others. -/
def wakeJoiners (run : HookRun) (dispatch : Dispatch Record) (w : Nat) : HookRun :=
  let joining := dispatch.calls.filter fun call =>
    match call.phase with
    | .joining (first :: _) => first = w && !run.agenda.putOff.contains (.call call.number)
    | _ => false
  { run with agenda := run.agenda.wakeAll (joining.map fun call => .call call.number) }

/-- The end of a worker's send. -/
def settleSend (run : HookRun) (dispatch : Dispatch Record) (w : Nat) (message : Message) :
    HookRun × Dispatch Record :=
  let (run, answer) := run.answer message
  match answer with
  | none =>
    let dispatch := dispatch.crash w
    (run.wakeJoiners dispatch w, dispatch)
  | some (.ok ()) => (run, dispatch.settle w true)
  | some (.error fault) =>
    (run.report {
      level := .error
      text := "failed to deliver log record"
      details := [("error", fault.message), ("transport", Script.name)] },
      dispatch.settle w false)

/-- An idle worker goes on until it waits for a record or a send, has exited, or has used up its
budget. -/
def work (run : HookRun) (dispatch : Dispatch Record) (w : Nat) :
    (budget : Nat) → HookRun × Dispatch Record
  | 0 => ({ run with agenda := run.agenda.defer (.worker w) }, dispatch)
  | budget + 1 =>
    let dispatch := if (dispatch.worker w).isIdle then dispatch.ask w else dispatch
    if dispatch.queue.isReady w then
      let dispatch := dispatch.take w
      match dispatch.worker w with
      | .sending record =>
        let message := run.hook.encoder.encode record
        let run := run.note "start" message.shortMessage
        match Script.delay? message with
        | none =>
          let (run, dispatch) := run.settleSend dispatch w message
          if (dispatch.worker w).isIdle then work run dispatch w budget else (run, dispatch)
        | some ms =>
          match _found : run.agenda.pause (.worker w) ms budget with
          | (agenda, .under wait) =>
            ({ run with agenda, busy := run.busy ++ [(w, message, wait)] }, dispatch)
          | (agenda, .over left) =>
            let (run, dispatch) := { run with agenda }.settleSend dispatch w message
            if (dispatch.worker w).isIdle then work run dispatch w left else (run, dispatch)
      | _ =>
        ((run.report { level := .debug, text := "delivery worker stopped" }).wakeJoiners dispatch w,
          dispatch)
    else (run, dispatch)
termination_by budget => budget
decreasing_by
  · omega
  · have := Agenda.lt_of_pause_over (by assumption)
    omega

/-- A worker goes on in the middle of its send. -/
def resumeSend (run : HookRun) (dispatch : Dispatch Record) (w : Nat) :
    HookRun × Dispatch Record :=
  match run.busy.find? fun entry => entry.1 = w with
  | none => (run, dispatch)
  | some (_, message, wait) =>
    let others := run.busy.filter fun entry => entry.1 ≠ w
    match run.agenda.goOn (.worker w) wait with
    | (agenda, .under wait) =>
      ({ run with agenda, busy := others ++ [(w, message, wait)] }, dispatch)
    | (agenda, .over left) =>
      let (run, dispatch) :=
        { run with agenda, busy := others }.settleSend dispatch w message
      if (dispatch.worker w).isIdle then work run dispatch w left else (run, dispatch)

def setErrand (run : HookRun) (number : Nat) (errand : Errand) : HookRun :=
  { run with
    errands := run.errands.map fun entry =>
      if entry.1 = number then (number, entry.2.1, errand) else entry }

/-- A call has its result. -/
def finish (run : HookRun) (number : Nat) (name : String) (result : Except HookFault Unit) :
    HookRun :=
  { run.setErrand number .finished with
    finished := run.finished ++ [(name, result, run.agenda.now)] }

/-- The transport is closed. -/
def closeTransport (run : HookRun) (number : Nat) (name : String) : HookRun :=
  (run.note "close" "").finish number name
    (if run.closeFails then .error (.transport .closed) else .ok ())

/-- The end of a waiting hook's send. -/
def settleFire (run : HookRun) (number : Nat) (name : String) (message : Message) : HookRun :=
  let (run, answer) := run.answer message
  match answer with
  | none => run.setErrand number .finished
  | some (.ok ()) => run.finish number name (.ok ())
  | some (.error fault) => run.finish number name (.error (.transport fault))

/-- A call of the dispatch goes on until it waits, has finished, or has used up its budget, of which
each worker that has exited takes one unit. Looking at the queue again and again with no time between
uses up all of it. -/
def advanceCall (run : HookRun) (dispatch : Dispatch Record) (number : Nat) (name : String) :
    (turns budget : Nat) → HookRun
  | 0, _ => run
  | turns + 1, budget =>
    match dispatch.call? number with
    | none => run
    | some call =>
      let after := dispatch.advance call
      match call.phase with
      | .finished => run.finish number name (.ok ())
      | .closing => (run.setDispatch dispatch after).closeTransport number name
      | .flushing =>
        if dispatch.queue.isEmpty then
          advanceCall (run.setDispatch dispatch after) after number name turns budget
        else if run.pollMs = 0 then { run with agenda := run.agenda.defer (.call number) }
        else { run with agenda := run.agenda.sleep run.pollMs (.call number) }
      | .joining (w :: _) =>
        if budget = 0 then { run with agenda := run.agenda.defer (.call number) }
        else if (dispatch.worker w).hasExited then
          let run := run.setDispatch dispatch after
          let run :=
            if (dispatch.worker w).isBroken then
              run.report { level := .error, text := "delivery worker panicked" }
            else run
          advanceCall run after number name turns (budget - 1)
        else run
      | _ => advanceCall (run.setDispatch dispatch after) after number name turns budget

/-- More steps than a call takes in one turn. -/
def callLimit : Nat := 2 * Agenda.budget

/-- The turn of a call of the dispatch that has begun. The pause of a flush is behind it. -/
def resumeCall (run : HookRun) (dispatch : Dispatch Record) (number : Nat) (name : String) :
    HookRun :=
  let budget := match dispatch.call? number with
    | some ⟨_, _, .flushing⟩ => Agenda.budget - 1
    | _ => Agenda.budget
  run.advanceCall dispatch number name callLimit budget

/-- A waiting hook's send begins. -/
def beginFire (run : HookRun) (number : Nat) (name : String) (record : Record) : HookRun :=
  let message := run.hook.encoder.encode record
  let run := run.note "start" message.shortMessage
  match Script.delay? message with
  | none => run.settleFire number name message
  | some ms =>
    match run.agenda.pause (.call number) ms Agenda.budget with
    | (agenda, .under wait) => { run with agenda }.setErrand number (.sending message wait)
    | (agenda, .over _) => { run with agenda }.settleFire number name message

/-- A waiting hook's send goes on. -/
def resumeFire (run : HookRun) (number : Nat) (name : String) (message : Message)
    (wait : Agenda.Wait) : HookRun :=
  match run.agenda.goOn (.call number) wait with
  | (agenda, .under wait) => { run with agenda }.setErrand number (.sending message wait)
  | (agenda, .over _) => { run with agenda }.settleFire number name message

def turn (run : HookRun) : HookTask → HookRun
  | .worker w =>
    match run.hook.dispatch with
    | none => run
    | some dispatch =>
      if (dispatch.worker w).hasExited then run
      else
        let (after, changed) :=
          if (dispatch.worker w).isSending then run.resumeSend dispatch w
          else run.work dispatch w Agenda.budget
        { after with hook := { after.hook with dispatch := some changed } }
  | .call number =>
    match run.errands.find? fun entry => entry.1 = number with
    | none => run
    | some (_, name, errand) =>
      match errand, run.hook.dispatch with
      | .finished, _ => run
      | .closeTransport, _ => run.closeTransport number name
      | .fire record, some dispatch =>
        (run.setDispatch dispatch (dispatch.push record)).finish number name (.ok ())
      | .fire record, none => run.beginFire number name record
      | .sending message wait, _ => run.resumeFire number name message wait
      | .dispatch _ true, some dispatch => run.resumeCall dispatch number name
      | .dispatch kind false, some dispatch =>
        let begun := dispatch.begin number kind
        ((run.setErrand number (.dispatch kind true)).setDispatch dispatch begun).advanceCall
          begun number name callLimit Agenda.budget
      | .dispatch .flushAndClose _, none => run.closeTransport number name
      | .dispatch _ _, none => run.finish number name (.ok ())

/-- Whether a task is a flush that finds records in the queue and does not pause between its looks. -/
def onlyLooks (run : HookRun) : HookTask → Bool
  | .worker _ => false
  | .call number =>
    match run.hook.dispatch with
    | none => false
    | some dispatch =>
      match dispatch.call? number with
      | some ⟨_, _, .flushing⟩ => run.pollMs == 0 && !dispatch.queue.isEmpty
      | _ => false

def play : Play HookRun HookTask where
  agenda run := run.agenda
  setAgenda run agenda := { run with agenda }
  turn := turn
  onlyLooks := onlyLooks

def settle (run : HookRun) : HookRun :=
  play.settle pairLimit run

/-- Begins a call in the background. -/
def spawn (run : HookRun) (name : String) (errand : Errand) : HookRun × HookReply :=
  let number := run.errands.length
  ({ run with
      errands := run.errands ++ [(number, name, errand)]
      agenda := run.agenda.wake (.call number) }, .started)

def apply (run : HookRun) : HookOp → HookRun × HookReply
  | .fire name record => run.spawn name (.fire record)
  | .flush name => run.spawn name (.dispatch .flush false)
  | .shutdown name => run.spawn name (.dispatch .shutdown false)
  | .flushAndClose name => run.spawn name (.dispatch .flushAndClose false)
  | .closeTransport name => run.spawn name .closeTransport
  | .enqueue record =>
    match run.hook.dispatch with
    | none => (run, .refused .synchronous)
    | some dispatch => (run.setDispatch dispatch (dispatch.push record), .done)

def applyAll (run : HookRun) : List HookOp → HookRun × List HookReply
  | [] => (run, [])
  | op :: ops =>
    let (run, reply) := run.apply op
    let (run, replies) := run.applyAll ops
    (run, reply :: replies)

/-- Begins a step with nothing to report. -/
def fresh (run : HookRun) : HookRun :=
  { run with log := [], finished := [], diagnostics := [] }

def step (run : HookRun) (ops : List HookOp) : HookRun × List HookReply :=
  let (run, replies) := run.fresh.applyAll ops
  (run.settle, replies)

/-- Lets milliseconds pass, each with everything that follows from it. -/
def advance (run : HookRun) : (ms : Nat) → HookRun
  | 0 => run
  | ms + 1 => advance { run with agenda := run.agenda.tick }.settle ms

/-- Lets time pass until nobody waits for it, or the given number of timers has rung. -/
def exhaust (run : HookRun) : (rings : Nat) → HookRun
  | 0 => run
  | rings + 1 =>
    match run.agenda.nextRing? with
    | none => run
    | some moment => exhaust { run with agenda := run.agenda.reach moment }.settle rings

end HookRun

end GelfCourier.Simulation
