/-!
A deterministic order of events. Tasks run in the order in which they became able to, and time moves
only when nobody can run; timers that are due together ring in the order in which they were set. In
one turn a task gets through a limited number of operations that might wait. One that has used up its
budget is put off until a round of turns is over, and of several put off the latest comes back first.
-/

set_option autoImplicit false

namespace GelfCourier.Simulation

structure Agenda (τ : Type) where
  /-- Milliseconds since the beginning. -/
  now : Nat := 0
  ready : List τ := []
  /-- Tasks put off in this round, the latest in front. -/
  putOff : List τ := []
  /-- When each timer rings and for whom, in the order in which they were set. -/
  timers : List (Nat × τ) := []

namespace Agenda

variable {τ : Type}

/-- How many operations that might wait a task gets through in one turn. -/
def budget : Nat := 128

/-- How many turns a round has at most. -/
def roundLength : Nat := 61

/-- A task that is ready already keeps its place. -/
def wake [BEq τ] (agenda : Agenda τ) (task : τ) : Agenda τ :=
  if agenda.ready.contains task then agenda
  else { agenda with ready := agenda.ready ++ [task] }

def wakeAll [BEq τ] (agenda : Agenda τ) (tasks : List τ) : Agenda τ :=
  tasks.foldl wake agenda

/-- Wakes a task after some milliseconds. -/
def sleep (agenda : Agenda τ) (ms : Nat) (task : τ) : Agenda τ :=
  { agenda with timers := agenda.timers ++ [(agenda.now + ms, task)] }

/-- Puts a task off until the round is over. -/
def defer (agenda : Agenda τ) (task : τ) : Agenda τ :=
  { agenda with putOff := task :: agenda.putOff }

/-- The round is over: tasks that were put off are ready again. -/
def resume [BEq τ] (agenda : Agenda τ) : Agenda τ :=
  { agenda with putOff := [] }.wakeAll agenda.putOff

/-- Forgets the timers of a task. -/
def unset [BEq τ] (agenda : Agenda τ) (task : τ) : Agenda τ :=
  { agenda with timers := agenda.timers.filter fun timer => timer.2 != task }

/-- The task whose turn it is. -/
def next? (agenda : Agenda τ) : Option (τ × Agenda τ) :=
  match agenda.ready with
  | [] => none
  | task :: ready => some (task, { agenda with ready })

/-- A moment comes: those whose timers ring go before those who are ready. -/
def reach [BEq τ] (agenda : Agenda τ) (moment : Nat) : Agenda τ :=
  let due := agenda.timers.filter fun timer => timer.1 ≤ moment
  let later := agenda.timers.filter fun timer => moment < timer.1
  { agenda with now := moment, ready := [], timers := later }.wakeAll
    (due.map Prod.snd ++ agenda.ready)

/-- One millisecond passes. -/
def tick [BEq τ] (agenda : Agenda τ) : Agenda τ :=
  agenda.reach (agenda.now + 1)

/-- How a pause goes on in a later turn of its task. -/
inductive Wait where
  /-- Its timer has been set. -/
  | asleep
  /-- Its task was put off before it could set a timer for so many milliseconds. -/
  | putOff (ms : Nat)
  deriving DecidableEq, Repr

/-- A pause is over, with the budget that is left, or its task waits. -/
inductive Pause where
  | over (budget : Nat)
  | under (wait : Wait)
  deriving DecidableEq, Repr

/-- A pause of some milliseconds, of which none at all is over at once. -/
def pause (agenda : Agenda τ) (task : τ) (ms : Nat) : (budget : Nat) → Agenda τ × Pause
  | 0 => (agenda.defer task, .under (.putOff ms))
  | budget + 1 =>
    if ms = 0 then (agenda, .over budget) else (agenda.sleep ms task, .under .asleep)

/-- The turn of a task in the middle of a pause. -/
def goOn (agenda : Agenda τ) (task : τ) : Wait → Agenda τ × Pause
  | .asleep => (agenda, .over (budget - 1))
  | .putOff ms => agenda.pause task ms budget

theorem lt_of_pause_over {agenda after : Agenda τ} {task : τ} {ms budget left : Nat}
    (h : agenda.pause task ms budget = (after, .over left)) : left < budget := by
  cases budget with
  | zero => simp [pause] at h
  | succ budget =>
    rw [pause] at h
    split at h <;> simp at h
    omega

/-- When the next timer rings. -/
def nextRing? (agenda : Agenda τ) : Option Nat :=
  (agenda.timers.map (·.1)).min?

end Agenda

/-- What runs under an agenda: a state that holds it, the turn of a task, and the tasks of which a
turn can do nothing but look again later. -/
structure Play (σ τ : Type) where
  agenda : σ → Agenda τ
  setAgenda : σ → Agenda τ → σ
  turn : σ → τ → σ
  onlyLooks : σ → τ → Bool := fun _ _ => false

namespace Play

variable {σ τ : Type} [BEq τ]

/-- Turns one after another, while somebody is ready. -/
def turns (play : Play σ τ) : (count : Nat) → σ → σ
  | 0, state => state
  | count + 1, state =>
    match (play.agenda state).next? with
    | none => state
    | some (task, rest) => play.turns count (play.turn (play.setAgenda state rest) task)

def round (play : Play σ τ) (state : σ) : σ :=
  let state := play.turns Agenda.roundLength state
  play.setAgenda state (play.agenda state).resume

/-- Whether a round would change nothing but the order of those who look again and again. -/
def isSettled (play : Play σ τ) (state : σ) : Bool :=
  (play.agenda state).ready.all (play.onlyLooks state)

/-- Rounds, two at a time, until nothing is left to do. -/
def settle (play : Play σ τ) : (pairs : Nat) → σ → σ
  | 0, state => state
  | pairs + 1, state =>
    if play.isSettled state then state
    else play.settle pairs (play.round (play.round state))

end Play

/-- How many pairs of rounds are played before a run that does not come to rest is given up. -/
def pairLimit : Nat := 100000

end GelfCourier.Simulation
