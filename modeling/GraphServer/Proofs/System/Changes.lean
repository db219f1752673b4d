import GraphServer.Proofs.System.Requests
import Mathlib.Logic.Relation

/-!
Everything that a process does is made of a few changes.

* `Session.Amends`: what can be done to a session at once;
* `System.Change`: what can be done to a server at once, and `System.Changes`: one after the other;
* `System.Changes.step`: **every step of every process is made of these changes**, so that what each of them keeps is
  kept by every step.
-/

namespace GraphServer

/-- What can be done to a session at once. -/
inductive Session.Amends (x : Session) : Session → Prop
  | hooks (hook : SessionHook) (p : ProcessId) : Amends x ((x.setHook hook p).toOption.getD x)
  | staffs (p : ProcessId) : Amends x { x with future := some p }
  | begins {f : InFlight} {x' : Session} (begins : x.begin f = .ok x') : Amends x x'
  | lands : Amends x { x with inFlight := none }
  | expires {elapsed : Nat} {x' : Session} (expires : x.expire? elapsed = some x') : Amends x x'
  | stops : Amends x x.stopAccepting
  | finishes : Amends x x.finish
  | dies : Amends x x.kill
  | notifies (notified : Bool) : Amends x (x.setNotified notified)
  | enqueues {b : Backlog} {t : Task} {x' : Session} (backlog : x.backlog = some b) (accepting : x.accepting = true)
    (enqueues : x.enqueue b t = .ok x') : Amends x x'
  | dequeues {t : Task} {x' : Session} (dequeues : x.dequeue? = some (t, x')) : Amends x x'
  | drains : Amends x x.drain.2

/-- Whether a program stands where it begins: it waits for nothing. -/
def Program.isFresh : Program → Bool
  | handler _ (.ready _) | single _ (.start _) | worker _ .choosing | lifetime _ _ none | timeout _ _ _ .start => true
  | writer _ | connection _ .start | delivery _ _ .start => true
  | _ => false

namespace System

/-- What can be done to a server at once. -/
inductive Change (s : System) : System → Prop
  | spends : Change s s.spend
  | wakes (p : ProcessId) : Change s (s.wake p)
  | starts {P : Program} (fresh : P.isFresh = true) : Change s (s.spawn P).1
  | stops (p : ProcessId) : Change s (s.abort p)
  | channel (c : ChannelId) (f : Channel → Channel) : Change s (s.onChannel c f)
  | connection (n : ConnectionId) (f : Connection → Connection) : Change s (s.onConnection n f)
  | context (y : TaskContext) : Change s (s.addContext y).1
  | concludes (k : ContextId) : Change s (s.onContext k fun x => { x with finished := true })
  | session (i : SessionId) {f : Session → Session} (amends : ∀ x, s.sessions[i]? = some x → x.Amends (f x)) :
    Change s (s.onSession i f)
  | opens (x : Session) : Change s (s.addSession x).1
  | table (t : SessionTable) : Change s { s with table := t }
  | joins (t : Transport) : Change s (s.addChannel t).1

/-- One change after the other. -/
def Changes : System → System → Prop :=
  Relation.ReflTransGen Change

namespace Changes

variable {s s' s'' : System} {i : SessionId} {p : ProcessId}

@[refl] lemma refl (s : System) : s.Changes s :=
  Relation.ReflTransGen.refl

lemma trans (h : s.Changes s') (h' : s'.Changes s'') : s.Changes s'' :=
  Relation.ReflTransGen.trans h h'

lemma of_change (h : s.Change s') : s.Changes s' :=
  .single h

/-- What each change keeps is kept. -/
lemma keeps {P : System → Prop} (each : ∀ s s', P s → s.Change s' → P s') (h : s.Changes s') (hs : P s) : P s' := by
  induction h with
  | refl => exact hs
  | tail _ change ih => exact each _ _ ih change

lemma of_stirs (h : s.Stirs s') : s.Changes s' :=
  h.relates refl trans fun stir => of_change (by
    cases stir with
    | spends => exact .spends
    | wakes p => exact .wakes p
    | channel c f => exact .channel c f)

/-! ### Waking and waiting -/

lemma spend? (h : s.spend? = some s') : s.Changes s' := of_stirs (.spend? h)

lemma spendAt? {due : Nat} (h : s.spendAt? due = some s') : s.Changes s' := of_stirs (.spendAt? h)

lemma wakeAll (s : System) (ps : List ProcessId) : s.Changes (s.wakeAll ps) := of_stirs (.wakeAll s ps)

lemma wakeIf (s : System) (p : ProcessId) (test : Program → Bool) : s.Changes (s.wakeIf p test) :=
  of_stirs (.wakeIf s p test)

lemma abortAll (s : System) (ps : List ProcessId) : s.Changes (s.abortAll ps) := by
  induction ps generalizing s with
  | nil => exact refl s
  | cons p ps ih => exact (of_change (.stops p)).trans (ih (s.abort p))

/-! ### Sending -/

lemma resume (s : System) (p : ProcessId) (h : Handover) : s.Changes (s.resume p h).1 := of_stirs (.resume s p h)

lemma giveUp (s : System) (p : ProcessId) (h : Handover) : s.Changes (s.giveUp p h) := of_stirs (.giveUp s p h)

lemma sendResponse (s : System) (p : ProcessId) (c : ChannelId) (r : Response) :
    s.Changes (s.sendResponse p c r).1 :=
  of_stirs (.sendResponse s p c r)

lemma closeChannel (s : System) (p : ProcessId) (c : ChannelId) : s.Changes (s.closeChannel p c).1 :=
  of_stirs (.closeChannel s p c)

lemma sendFor (s : System) (p : ProcessId) (x : TaskContext) (r : Response) : s.Changes (s.sendFor p x r).1 :=
  of_stirs (.sendFor s p x r)

lemma call (s : System) (p : ProcessId) (k : ContextId) (c : Call) : s.Changes (s.call p k c).1 := by
  have outcome := s.call_outcome p k c
  generalize s.call p k c = x at outcome ⊢
  cases outcome with
  | strays | late => exact refl s
  | streams => exact sendFor s p _ _
  | concludes => exact (of_change (.concludes k)).trans (sendFor _ p _ _)

lemma tryFinish (s : System) (p : ProcessId) (k : ContextId) (r : Uuid → Response) :
    s.Changes (s.tryFinish p k r).1 := by
  have outcome := s.tryFinish_outcome p k r
  generalize s.tryFinish p k r = x at outcome ⊢
  cases outcome with
  | strays | late => exact refl s
  | concludes => exact (of_change (.concludes k)).trans (sendFor _ p _ _)

/-! ### Sessions -/

lemma onSession {f : Session → Session} (s : System) (i : SessionId) (amends : ∀ x : Session, x.Amends (f x)) :
    s.Changes (s.onSession i f) :=
  of_change (.session i fun x _ => amends x)

/-- A session is put in the place of what it was made from. -/
lemma replace {x x' : Session} (hx : s.sessions[i]? = some x) (amends : x.Amends x') :
    s.Changes (s.onSession i fun _ => x') := by
  refine of_change (.session i fun y hy => ?_)
  cases hx.symm.trans hy
  exact amends

lemma notify (s : System) (i : SessionId) : s.Changes (s.notify i) := by
  rw [System.notify]
  have set := onSession s i fun x => .notifies true
  split
  · exact set.trans (wakeIf _ _ _)
  · exact set

lemma disarm (s : System) (i : SessionId) : s.Changes (s.disarm i) :=
  abortAll s _

lemma finishSession (s : System) (i : SessionId) : s.Changes (s.finishSession i) :=
  (onSession s i fun _ => .finishes).trans (disarm _ i)

lemma interrupt (s : System) (p : ProcessId) (i : SessionId) (elapsed : Nat) (ofSession : Bool) :
    s.Changes (s.interrupt p i elapsed ofSession).1 := by
  have outcome := s.interrupt_outcome p i elapsed ofSession
  generalize s.interrupt p i elapsed ofSession = x at outcome ⊢
  cases outcome with
  | rests => exact refl s
  | stops => exact ((onSession s i fun _ => .lands).trans (of_change (.stops _))).trans (tryFinish _ p _ _)

lemma closeMulti (s : System) (i : SessionId) : s.Changes (s.closeMulti i) :=
  (onSession s i fun _ => .stops).trans (notify _ i)

lemma kill (s : System) (i : SessionId) : s.Changes (s.kill i) := by
  rw [System.kill]
  split
  · exact refl s
  · exact (onSession s i fun _ => .dies).trans (abortAll _ _)

lemma submitTask (s : System) (i : SessionId) (t : Task) : s.Changes (s.submitTask i t).1 := by
  have outcome := s.submitTask_outcome i t
  generalize s.submitTask i t = x at outcome ⊢
  cases outcome with
  | strays | closed | full => exact refl s
  | engages =>
    exact ((onSession s i fun _ => .stops).trans (of_change (.starts rfl))).trans (onSession _ i fun _ => .hooks _ _)
  | enqueues known accepting many queued => exact (replace known (.enqueues many accepting queued)).trans (notify _ i)

lemma submit (s : System) (c : ChannelId) (i : SessionId) (r : Request) : s.Changes (s.submit c i r).1 := by
  have made : s.Changes (s.makeTask r c).1 := of_change (.context _)
  rw [submit_fst]
  exact made.trans (submitTask _ i _)

/-! ### The manager -/

lemma openChannel (s : System) (transport : Transport) : s.Changes (s.openChannel transport).1 :=
  ((of_change (.joins transport)).trans (of_change (.starts rfl))).trans (of_change (.channel _ _))

lemma openMulti (s : System) (name : String) (c : ChannelId) (limit : Nat) : s.Changes (s.openMulti name c limit).1 :=
  ((of_change (.opens _)).trans (of_change (.starts rfl))).trans (onSession _ _ fun _ => .staffs _)

lemma armLifetime (s : System) (i : SessionId) : s.Changes (s.armLifetime i) := by
  rw [System.armLifetime]
  dsimp only
  split
  · exact refl s
  · exact (of_change (.starts rfl)).trans (onSession _ i fun _ => .hooks _ _)

lemma getOrCreate (s : System) (name : String) (c : ChannelId) : s.Changes (s.getOrCreate name c).1 := by
  have pruned : s.Changes s.prune := of_change (.table _)
  have outcome := s.getOrCreate_outcome name c
  generalize s.getOrCreate name c = x at outcome ⊢
  cases outcome with
  | finds | elsewhere | full => exact pruned
  | opens => exact ((pruned.trans (openMulti _ name c _)).trans (armLifetime _ _)).trans (of_change (.table _))

lemma single (s : System) (c : ChannelId) : s.Changes (s.single c).1 :=
  ((of_change (.opens _)).trans (of_change (.table _))).trans (of_change (.table _))

lemma closeSession (s : System) (name : String) : s.Changes (s.closeSession name).1 := by
  rw [System.closeSession]
  split
  · exact refl s
  · exact (of_change (.table _)).trans (closeMulti _ _)

lemma closeBoundTo (s : System) (c : ChannelId) : s.Changes (s.closeBoundTo c) := by
  have killed (is : List SessionId) (s : System) : s.Changes (is.foldl System.kill s) := by
    induction is generalizing s with
    | nil => exact refl s
    | cons i is ih => exact (kill s i).trans (ih (s.kill i))
  exact (killed _ s).trans (of_change (.table _))

lemma route (s : System) (c : ChannelId) (r : Request) : s.Changes (s.route c r).1 := by
  have outcome := s.route_outcome c r
  generalize s.route c r = x at outcome ⊢
  cases outcome with
  | lone => exact (single s c).trans (submit _ c _ r)
  | closes => exact closeSession s _
  | enters => exact (getOrCreate s _ c).trans (submit _ c _ r)
  | refused => exact getOrCreate s _ c

/-! ### Steps -/

lemma of_transit {α : Type} {x : System × Transit} {next : Except Error Unit → α} {waiting : Handover → α}
    (h : s.Changes x.1) : s.Changes (Transit.turn x next waiting).1 := by
  rwa [Transit.turn_fst]

lemma stepHandler (s : System) (p : ProcessId) (k : ContextId) (point : HandlerPoint) :
    s.Changes (s.stepHandler p k point).1 := by
  have outcome := s.stepHandler_outcome p k point
  generalize s.stepHandler p k point = x at outcome ⊢
  cases outcome with
  | returns | sleeps | waits => exact refl s
  | calls => exact of_transit (call s p k _)
  | resumes => exact of_transit (resume s p _)
  | wakes spent => exact spendAt? spent

lemma stepRun (s : System) (p : ProcessId) (i : SessionId) (point : RunPoint) : s.Changes (s.stepRun p i point).1 := by
  have launched (t : Task) : s.Changes (s.launch t) := of_change (.starts rfl)
  have outcome := s.stepRun_outcome p i point
  generalize s.stepRun p i point = x at outcome ⊢
  cases outcome with
  | strays | waits | leaves => exact refl s
  | begins known alive inTime =>
    exact (launched _).trans (replace (launch_sessions s _ ▸ known) (.begins (Session.begin_of_inTime alive inTime _)))
  | dies => exact (launched _).trans (of_change (.stops _))
  | refuses => exact of_transit (((launched _).trans (of_change (.stops _))).trans (tryFinish _ p _ _))
  | stopped ended spent => exact (spend? spent).trans (onSession _ i fun _ => .lands)
  | returned ended spent =>
    exact of_transit (((spend? spent).trans (onSession _ i fun _ => .lands)).trans (tryFinish _ p _ _))
  | expires runs spent => exact of_transit ((spendAt? spent).trans (interrupt _ p i _ _))
  | resumes => exact of_transit (resume s p _)

lemma stepSingle (s : System) (p : ProcessId) (i : SessionId) (point : RunPoint) :
    s.Changes (s.stepSingle p i point).1 := by
  have outcome := s.stepSingle_outcome p i point
  generalize s.stepSingle p i point = x at outcome ⊢
  cases outcome with
  | ends => exact finishSession s i
  | runs => exact stepRun s p i point

lemma stepWorker (s : System) (p : ProcessId) (i : SessionId) (point : WorkerPoint) :
    s.Changes (s.stepWorker p i point).1 := by
  have outcome := s.stepWorker_outcome p i point
  generalize s.stepWorker p i point = x at outcome ⊢
  cases outcome with
  | strays | rests | waits | leaves => exact refl s
  | takes known taken => exact replace known (.dequeues taken)
  | ends => exact finishSession s i
  | hears => exact onSession s i fun _ => .notifies false
  | runs => exact stepRun s p i _

lemma stepTimeout (s : System) (p : ProcessId) (i : SessionId) (elapsed : Nat) (ofSession : Bool)
    (point : TimeoutPoint) : s.Changes (s.stepTimeout p i elapsed ofSession point).1 := by
  have outcome := s.stepTimeout_outcome p i elapsed ofSession point
  generalize s.stepTimeout p i elapsed ofSession point = x at outcome ⊢
  cases outcome with
  | late | strays | leaves => exact refl s
  | expires known inTime =>
    have expired := replace (s := s) known (.expires (Session.expire?_of_inTime inTime elapsed))
    exact of_transit (expired.trans (interrupt _ p i _ _))
  | interrupts => exact of_transit (interrupt s p i _ _)
  | drains known => exact replace known .drains
  | answers => exact of_transit (tryFinish s p _ _)
  | notifies => exact notify s i
  | closes => exact of_transit (closeChannel s p _)
  | disarms => exact disarm s i
  | resumes => exact of_transit (resume s p _)

lemma stepLifetime (s : System) (i : SessionId) (milliseconds : Nat) (due : Option Nat) :
    s.Changes (s.stepLifetime i milliseconds due).1 := by
  have outcome := s.stepLifetime_outcome i milliseconds due
  generalize s.stepLifetime i milliseconds due = x at outcome ⊢
  cases outcome with
  | sets | waits => exact refl s
  | rings spent => exact spendAt? spent

lemma stepWriter (s : System) (c : ChannelId) : s.Changes (s.stepWriter c).1 := of_stirs (.stepWriter s c)

lemma stepDelivery (s : System) (p : ProcessId) (c : ChannelId) (d : Delivery) (point : DeliveryPoint) :
    s.Changes (s.stepDelivery p c d point).1 :=
  of_stirs (.stepDelivery s p c d point)

lemma read (s : System) (n : ConnectionId) (x : Connection) : s.Changes (s.read n x).1 := by
  have outcome := s.read_outcome n x
  generalize s.read n x = y at outcome ⊢
  cases outcome with
  | waits => exact refl s
  | ends spent => exact spend? spent
  | cuts spent | jams spent => exact (spend? spent).trans (of_change (.connection n _))

lemma handle (s : System) (p : ProcessId) (n : ConnectionId) (x : Connection) (frame : Bytes) (rest : List Bytes) :
    s.Changes (s.handle p n x frame rest).1 := by
  have shaken : s.Changes (s.shake n x frame) := of_change (.connection n _)
  have outcome := s.handle_outcome p n x frame rest
  generalize s.handle p n x frame rest = y at outcome ⊢
  cases outcome with
  | unopened | undecoded => exact of_transit (shaken.trans (sendResponse _ p x.channel _))
  | accepts => exact shaken.trans (route _ x.channel _)
  | replies => exact of_transit ((shaken.trans (route _ x.channel _)).trans (sendResponse _ p x.channel _))

lemma stepConnection (s : System) (p : ProcessId) (n : ConnectionId) (point : ConnectionPoint) :
    s.Changes (s.stepConnection p n point).1 := by
  have outcome := s.stepConnection_outcome p n point
  generalize s.stepConnection p n point = y at outcome ⊢
  cases outcome with
  | strays | handled => exact refl s
  | starts => exact (of_change (.starts rfl)).trans (of_change (.channel _ _))
  | reads => exact read s n _
  | handles => exact handle s p n _ _ _
  | replies | excuses => exact of_transit (resume s p _)
  | @ends x =>
    rw [hangUp_fst]
    exact (closeBoundTo s x.channel).trans (closeChannel _ p x.channel)
  | closes =>
    rw [hangUp_fst]
    exact resume s p _

/-- **Every step of every process** is made of changes of these kinds. -/
theorem step (s : System) (p : ProcessId) (P : Program) : s.Changes (s.step p P).1 := by
  cases P with
  | handler k point => exact stepHandler s p k point
  | single i point => exact stepSingle s p i point
  | worker i point => exact stepWorker s p i point
  | lifetime i milliseconds due => exact stepLifetime s i milliseconds due
  | timeout i elapsed ofSession point => exact stepTimeout s p i elapsed ofSession point
  | writer c => exact stepWriter s c
  | connection n point => exact stepConnection s p n point
  | delivery c d point => exact stepDelivery s p c d point
  | finished result => exact refl s

end Changes

end System

end GraphServer
