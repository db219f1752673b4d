import GraphServer.System.Connection

/-!
How processes take turns.

A process that has its turn runs until it waits, is set aside or ends. Processes have their turns in the
order in which they were woken. Those that were set aside come back at the end of a round, when all
others wait or many turns have been had; when nothing can go on, time passes to the next alarm.
`System.poll` is one turn of any process at all, so that every order of turns can be described;
`System.settle`, `System.advance` and `System.perform` follow the one order in which a server runs on a
single thread.
-/

namespace GraphServer.System

/-! ### One turn -/

/-- Puts a process at a point of its program. -/
def setProgram (s : System) (p : ProcessId) (program : Program) : System :=
  s.onProcess p fun x => { x with program }

/-- Sets an alarm, unless it is set. -/
def setAlarm (s : System) (p : ProcessId) (due : Nat) : System :=
  if (due, p) ∈ s.alarms then s else { s with alarms := s.alarms ++ [(due, p)] }

/-- Puts a process where it waits. -/
def park (s : System) (p : ProcessId) (program : Program) : System :=
  (program.due?.toList).foldl (fun s due => s.setAlarm p due) (s.setProgram p program)

/-- Sets a process aside at the point at which its allowance was used up, and otherwise puts it where it
waits. -/
def suspend (s : System) (p : ProcessId) (program : Program) : System :=
  if s.allowance = 0 then { s.setProgram p program with aside := p :: s.aside } else s.park p program

/-- A step of the writer of a channel, which takes something off its allowance whenever it takes
messages. -/
def stepWriter (s : System) (c : ChannelId) : System × Turn ChannelId :=
  match s.channels[c]? with
  | none => (s, .done (.ok ()))
  | some x =>
    match x.outbound.step with
    | some (outbound, woken) =>
      match if x.outbound.isReceiving then s.spend? else some s with
      | some s => ((s.onChannel c fun x => { x with outbound }).wakeAll woken, .go c)
      | none => (s, .wait c)
    | none =>
      match x.outbound.result? with
      | some result => (s, .done result)
      | none => (s, .wait c)

/-- A turn of a program, given the turn of its points. -/
def liftTurn {α : Type} (x : System × Turn α) (program : α → Program) : System × Turn Program :=
  (x.1, x.2.map program)

/-- A step of a process. -/
def step (s : System) (p : ProcessId) : Program → System × Turn Program
  | .handler context point => liftTurn (s.stepHandler p context point) (.handler context)
  | .single i point => liftTurn (s.stepSingle p i point) (.single i)
  | .worker i point => liftTurn (s.stepWorker p i point) (.worker i)
  | .lifetime i milliseconds due => s.stepLifetime i milliseconds due
  | .timeout i elapsed ofSession point =>
    liftTurn (s.stepTimeout p i elapsed ofSession point) (.timeout i elapsed ofSession)
  | .writer c => liftTurn (s.stepWriter c) .writer
  | .connection i point => liftTurn (s.stepConnection p i point) (.connection i)
  | .delivery c d point => liftTurn (s.stepDelivery p c d point) (.delivery c d)
  | .finished result => (s, .wait (.finished result))

/-- Stops a process, which gives up the parcel with which it waits. -/
def cancel (s : System) (p : ProcessId) (program : Program) : System :=
  let s :=
    match program.handover? with
    | some h => s.giveUp p h
    | none => s
  s.finish p none

/-- Runs a process until it waits or ends, or for so many steps, after which it has to wait for its next
turn. -/
def run (p : ProcessId) : (steps : Nat) → System → System
  | 0, s => s.wake p
  | steps + 1, s =>
    match s.program? p with
    | none => s
    | some program =>
      match s.step p program with
      | (s, .go program) => run p steps (s.setProgram p program)
      | (s, .wait program) => s.suspend p program
      | (s, .done result) => s.finish p (some result)

/-- The greatest number of steps in one turn. -/
def quantum : Nat := 1000000

/-- Gives a process its turn. -/
def poll (s : System) (p : ProcessId) : System :=
  match s.processes[p]? with
  | none => s
  | some x =>
    if x.program.isFinished then s
    else if x.cancelled then s.cancel p x.program
    else run p quantum { s with allowance := turnAllowance }

/-! ### All turns -/

/-- Whether all processes wait. -/
def isIdle (s : System) : Bool :=
  s.ready.isEmpty && s.aside.isEmpty

/-- Wakes the processes that were set aside, the last one first. -/
def bringBack (s : System) : System :=
  { s with aside := [] }.wakeAll s.aside

/-- Gives processes their turns until all wait, for at most so many turns; one process may be left
out. -/
def takeTurns (except : Option ProcessId) : (turns : Nat) → System → System
  | 0, s => s
  | turns + 1, s =>
    match s.ready.find? (some · ≠ except) with
    | none => s
    | some p => takeTurns except turns (poll { s with ready := s.ready.erase p } p)

/-- The greatest number of turns in a round. -/
def roundLength : Nat := 61

/-- A round of turns, from which one process may be left out. -/
def round (s : System) (except : Option ProcessId) : System :=
  (takeTurns except roundLength s).bringBack

/-- Goes on round after round until all processes wait, for at most so many rounds. -/
def settleFor : (rounds : Nat) → System → System
  | 0, s => s
  | rounds + 1, s => if s.isIdle then s else settleFor rounds (s.round none)

/-- The greatest number of rounds between two moments. -/
def roundLimit : Nat := 1000000

/-- Gives processes their turns until all wait. -/
def settle (s : System) : System :=
  settleFor roundLimit { s with reserve := turnAllowance }

/-- The time of the next alarm. -/
def nextAlarm? (s : System) : Option Nat :=
  (s.alarms.map (·.1)).min?

/-- Moves the timers and wakes the processes whose alarms are due, the earliest first. -/
def ring (s : System) (now : Nat) : System :=
  let due := (s.alarms.filter (·.1 ≤ now)).mergeSort (fun a b => a.1 ≤ b.1)
  let s := { s with now, alarms := s.alarms.filter (now < ·.1) }
  s.wakeAll (due.map (·.2))

/-- Lets time pass until `target`, alarm by alarm, for at most so many alarms. -/
def passFor (target : Nat) : (alarms : Nat) → System → System
  | 0, s => s
  | alarms + 1, s =>
    match s.nextAlarm? with
    | none => s
    | some due =>
      if target < due then s else passFor target alarms (settle (s.ring (max s.now due)))

/-- Lets some milliseconds pass; every alarm is due at a later millisecond than the one before. -/
def advance (s : System) (milliseconds : Nat) : System :=
  let target := s.now + milliseconds
  let s := passFor target (milliseconds + 1) s.settle
  { s with now := target }

/-! ### Acting from outside -/

/-- Gives a process its turn if it was woken. -/
def pollIfReady (s : System) (p : ProcessId) : System :=
  if p ∈ s.ready then poll { s with ready := s.ready.erase p } p else s

/-- Lets time pass to the next alarm if all processes wait. -/
def ringIfIdle (s : System) : Option System :=
  if s.isIdle then s.nextAlarm?.map fun due => s.ring (max s.now due) else some s

/-- Goes on until a process has ended, for at most so many rounds. That process has its own turns between
the rounds of the others. -/
def awaitFor (p : ProcessId) : (rounds : Nat) → System → System
  | 0, s => s
  | rounds + 1, s =>
    if (s.result? p).isSome then s
    else
      match (s.round (some p)).ringIfIdle with
      | none => s.round (some p)
      | some s => awaitFor p rounds (s.pollIfReady p)

/-- Runs a program until it has ended, and others as long as it has to wait for them. Its first turn has
what those outside have left of their allowance, and they keep what its last turn leaves. -/
def perform (s : System) (program : Program) : System × ProcessId :=
  let (s, p) := s.addProcess program
  let s := awaitFor p roundLimit (run p quantum { s with allowance := s.reserve })
  ({ s with reserve := s.allowance }, p)

/-- Changes the transport of a channel, after which its writer may go on. -/
def onTransport (s : System) (c : ChannelId) (f : Transport → Transport) : System :=
  let s := s.onChannel c fun x =>
    { x with outbound := { x.outbound with transport := f x.outbound.transport } }
  s.wakeAll (s.channels[c]?.bind (·.writer)).toList

/-- Nobody is left who could send over a channel. -/
def abandon (s : System) (c : ChannelId) : System :=
  let s := s.onChannel c fun x => x.withQueue { x.outbound.queue with abandoned := true }
  s.wakeReceiver c

end GraphServer.System
