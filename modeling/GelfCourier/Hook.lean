import GelfCourier.Dispatch.Basic
import GelfCourier.Fault
import GelfCourier.Record.Encoder
import GelfCourier.Settings.Environment

/-!
The entry point for log calls. A waiting hook sends each record itself and has no queue; any other
hook puts records on a queue that background workers drain.
-/

set_option autoImplicit false

namespace GelfCourier

structure Hook where
  encoder : Encoder
  /-- The workers and their queue, unless the hook waits for every send. -/
  dispatch : Option (Dispatch Record)

namespace Hook

/-- A hook with its own host name where the settings give none. -/
def ofSettings (settings : HookSettings) (hostname : String) : Hook where
  encoder := ⟨settings.host.getD hostname, settings.extra⟩
  dispatch := if settings.synchronous then none else some (.start settings.workers)

def isSynchronous (hook : Hook) : Bool := hook.dispatch.isNone

/-- Queues a record; a waiting hook refuses. -/
def enqueue (hook : Hook) (record : Record) : Except HookFault Hook :=
  match hook.dispatch with
  | none => .error .synchronous
  | some dispatch => .ok { hook with dispatch := some (dispatch.push record) }

/-- Records that wait for a worker. -/
def pending (hook : Hook) : Nat :=
  match hook.dispatch with
  | none => 0
  | some dispatch => dispatch.queue.length

/-- How many sends succeeded and failed, where there are workers. -/
def counts? (hook : Hook) : Option (Nat × Nat) :=
  hook.dispatch.map fun dispatch => (dispatch.delivered, dispatch.failed)

end Hook

end GelfCourier
