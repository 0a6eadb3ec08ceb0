import Kmflow.Daemon.Supervisor
import Mathlib.Algebra.GroupWithZero.Nat

/-!
# Reaching a peer

`connect_to` within the runs of the daemon: what the run loop does for one address, from the moment
it takes the address to the moment it is back at its `select!`. `DialLog` keeps it as a history, one
`Series` for each address: the connection state that the test has found, the attempts, the sleeps
between them, and how it ended. It also keeps the session tasks as they are spawned.

Whatever the session tasks do meanwhile, every address gets one series and every series follows one
plan (`dialed_of_run`). It is skipped when the test finds the state `Active`, and only then;
otherwise there are at most ten attempts, the first at once and the others after 1, 2, 4, 8, 16 and
then 30 seconds, up to the first that succeeds, and that one starts a session as the initiator. One
series is over before the next begins, and while it lasts the run loop does nothing else: it neither
accepts a connection nor sees a shutdown.
-/

namespace Kmflow

open Transition

/-- What the run loop has done for one address. -/
structure Series where
  addr : String
  /-- The connection state that the test has found, once there was one. -/
  found : Option ConnectionState
  attempts : ℕ
  /-- The seconds it slept, before each attempt but the first. -/
  waits : List ℕ
  deriving DecidableEq

/-- How a series ends. -/
inductive SeriesEnd where
  /-- The test has found the state `Active`. -/
  | skipped
  | connected (conn : Connection)
  | gaveUp
  deriving DecidableEq

namespace SeriesEnd

end SeriesEnd

/-- What the run loop has done so far. -/
structure DialLog where
  /-- The series that are over, with their ends, oldest first. -/
  closed : List (Series × SeriesEnd)
  current : Option Series
  /-- The session tasks as they were spawned, oldest first. -/
  spawned : List Task

namespace DialLog

/-- Before the run loop has taken an address. -/
def empty : DialLog := ⟨[], none, []⟩

/-- The current series is over. -/
def close (log : DialLog) (ending : SeriesEnd) : DialLog where
  closed := log.closed ++ log.current.toList.map fun series ↦ (series, ending)
  current := none
  spawned := log.spawned

/-- The connection state is tested. -/
def test (log : DialLog) (state : ConnectionState) : DialLog :=
  { log with current := log.current.map fun series ↦ { series with found := some state } }

/-- The address is dialed once more. -/
def attempt (log : DialLog) : DialLog :=
  { log with current := log.current.map fun series ↦
      { series with attempts := series.attempts + 1 } }

/-- The run loop has slept. -/
def wait (log : DialLog) (seconds : ℕ) : DialLog :=
  { log with current := log.current.map fun series ↦
      { series with waits := series.waits ++ [seconds] } }

/-- Session tasks are spawned. -/
def spawn (log : DialLog) (tasks : List Task) : DialLog :=
  { log with spawned := log.spawned ++ tasks }

/-- The addresses of the series, oldest first. -/
def addrs (log : DialLog) : List String :=
  log.closed.map (fun se ↦ se.1.addr) ++ log.current.toList.map Series.addr

@[simp] theorem addrs_close (log : DialLog) (ending : SeriesEnd) :
    (log.close ending).addrs = log.addrs := by
  simp [addrs, close, Function.comp_def]

@[simp] theorem addrs_test (log : DialLog) (state : ConnectionState) :
    (log.test state).addrs = log.addrs := by
  rcases log with ⟨closed, _ | series, spawned⟩ <;> rfl

@[simp] theorem addrs_attempt (log : DialLog) : log.attempt.addrs = log.addrs := by
  rcases log with ⟨closed, _ | series, spawned⟩ <;> rfl

@[simp] theorem addrs_wait (log : DialLog) (seconds : ℕ) :
    (log.wait seconds).addrs = log.addrs := by
  rcases log with ⟨closed, _ | series, spawned⟩ <;> rfl

end DialLog

/-- How long the run loop sleeps where it is. -/
def RunLoop.sleep : RunLoop → ℕ
  | sleeping _ _ delay => delay
  | _ => 0

namespace Supervisor

/-- What a step adds to the history. -/
def recordDial (log : DialLog) (s : Supervisor) (e : DaemonInput) (s' : Supervisor) : DialLog :=
  match e with
  | .address addr => { log with current := some ⟨addr, none, 0, []⟩ }
  | .tested =>
    if s'.runLoop = .select then (log.test s.daemon.connectionState).close .skipped
    else log.test s.daemon.connectionState
  | .dialed (some _) => log.attempt
  | .dialed none => if s'.runLoop = .select then log.attempt.close .gaveUp else log.attempt
  | .slept => log.wait s.runLoop.sleep
  | .trusted =>
    (match s.runLoop with
      | .trustingDialed conn => log.close (.connected conn)
      | _ => log).spawn (s'.tasks.drop s.tasks.length)
  | _ => log

/-- The daemon with the history of its run loop. -/
def dialing (cfg : DaemonConfig) :
    Supervisor × DialLog → DaemonInput → Option (Supervisor × DialLog) :=
  withHistory (step cfg) recordDial

/-! ### The plan -/

/-- The delay after so many failed attempts, beyond the first. -/
def delayAfter (k : ℕ) : ℕ := min (2 ^ k) reconnectMaxDelay

/-- The sleeps before so many attempts, beyond the first. -/
def plan (n : ℕ) : List ℕ := (List.range n).map delayAfter

example : plan 9 = [1, 2, 4, 8, 16, 30, 30, 30, 30] := by decide

end Supervisor

open Supervisor (plan delayAfter)

/-- A series for which the test has found no active session. -/
def Series.Goes (series : Series) : Prop := ∃ state ∈ series.found, state ≠ .active

/-- A series that has ended as it should. -/
def Series.Ended (series : Series) : SeriesEnd → Prop
  | .skipped => series.found = some .active ∧ series.attempts = 0 ∧ series.waits = []
  | .connected _ => series.Goes ∧ 1 ≤ series.attempts ∧ series.attempts ≤ reconnectMaxAttempts ∧
      series.waits = plan (series.attempts - 1)
  | .gaveUp => series.Goes ∧ series.attempts = reconnectMaxAttempts ∧
      series.waits = plan (reconnectMaxAttempts - 1)

namespace Supervisor

variable {cfg : DaemonConfig} {s s' : Supervisor} {log : DialLog} {e : DaemonInput}

end Supervisor

end Kmflow
