import GraphServer.Proofs.System.Requests

/-!
What leaves sessions and processes alone.

* `System.Still`: no session, nothing in the table of sessions and no process has changed;
* `System.Quiet`: no context has changed either. Putting parcels into queues, waking processes and letting time pass
  is quiet; answering a request is still.
-/

namespace GraphServer

namespace System

/-! ### Relations -/

/-- Between two states of a server no session and no process changed. -/
structure Still (s s' : System) : Prop where
  service : s'.service = s.service
  sessions : s'.sessions = s.sessions
  table : s'.table = s.table
  processes : s'.processes = s.processes

/-- Between two states of a server no session, no process and no context changed. -/
structure Quiet (s s' : System) : Prop extends Still s s' where
  contexts : s'.contexts = s.contexts

variable {s s' s'' : System}

@[refl] lemma Still.refl (s : System) : s.Still s := ⟨rfl, rfl, rfl, rfl⟩

lemma Still.trans (h : s.Still s') (h' : s'.Still s'') : s.Still s'' :=
  ⟨h'.service.trans h.service, h'.sessions.trans h.sessions, h'.table.trans h.table, h'.processes.trans h.processes⟩

lemma Still.program? (h : s.Still s') (p : ProcessId) : s'.program? p = s.program? p := by
  rw [System.program?, System.program?, h.processes]

namespace Quiet

@[refl] lemma refl (s : System) : s.Quiet s := ⟨.refl s, rfl⟩

lemma trans (h : s.Quiet s') (h' : s'.Quiet s'') : s.Quiet s'' :=
  ⟨h.toStill.trans h'.toStill, h'.contexts.trans h.contexts⟩

lemma of_stirs (h : s.Stirs s') : s.Quiet s' :=
  h.relates refl trans fun stir => by
    cases stir with
    | wakes p =>
      rw [wake]
      split
      · exact refl _
      · exact ⟨⟨rfl, rfl, rfl, rfl⟩, rfl⟩
    | _ => exact ⟨⟨rfl, rfl, rfl, rfl⟩, rfl⟩

/-! ### Waking and waiting -/

lemma spend (s : System) : s.Quiet s.spend := of_stirs (.of_stir .spends)

lemma spend? (h : s.spend? = some s') : s.Quiet s' := of_stirs (.spend? h)

lemma spendAt? {due : Nat} (h : s.spendAt? due = some s') : s.Quiet s' := of_stirs (.spendAt? h)

lemma wake (s : System) (p : ProcessId) : s.Quiet (s.wake p) := of_stirs (.of_stir (.wakes p))

lemma wakeAll (s : System) (ps : List ProcessId) : s.Quiet (s.wakeAll ps) := of_stirs (.wakeAll s ps)

lemma wakeIf (s : System) (p : ProcessId) (test : Program → Bool) : s.Quiet (s.wakeIf p test) :=
  of_stirs (.wakeIf s p test)

lemma onChannel (s : System) (c : ChannelId) (f : Channel → Channel) : s.Quiet (s.onChannel c f) :=
  of_stirs (.of_stir (.channel c f))

lemma onConnection (s : System) (i : ConnectionId) (f : Connection → Connection) : s.Quiet (s.onConnection i f) :=
  ⟨⟨rfl, rfl, rfl, rfl⟩, rfl⟩

lemma wakeReceiver (s : System) (c : ChannelId) : s.Quiet (s.wakeReceiver c) := of_stirs (.wakeReceiver s c)

lemma setAlarm (s : System) (p : ProcessId) (due : Nat) : s.Quiet (s.setAlarm p due) := by
  rw [System.setAlarm]
  split
  · exact refl s
  · exact ⟨⟨rfl, rfl, rfl, rfl⟩, rfl⟩

lemma setAlarms (s : System) (p : ProcessId) (dues : List Nat) :
    s.Quiet (dues.foldl (fun s due => s.setAlarm p due) s) := by
  induction dues generalizing s with
  | nil => exact refl s
  | cons due dues ih => exact (setAlarm s p due).trans (ih _)

lemma bringBack (s : System) : s.Quiet s.bringBack := by
  have hempty : s.Quiet { s with aside := [] } := ⟨⟨rfl, rfl, rfl, rfl⟩, rfl⟩
  exact hempty.trans (wakeAll _ _)

lemma ring (s : System) (now : Nat) : s.Quiet (s.ring now) := by
  have hnow : s.Quiet { s with now, alarms := s.alarms.filter (now < ·.1) } := ⟨⟨rfl, rfl, rfl, rfl⟩, rfl⟩
  exact hnow.trans (wakeAll _ _)

/-! ### Parcels -/

lemma ask (s : System) (c : ChannelId) (parcel : Parcel) (question : OutboundQueue → OutboundQueue.Entry) :
    s.Quiet (s.ask c parcel question).1 :=
  of_stirs (.ask s c parcel question)

lemma resume (s : System) (p : ProcessId) (h : Handover) : s.Quiet (s.resume p h).1 := of_stirs (.resume s p h)

lemma giveUp (s : System) (p : ProcessId) (h : Handover) : s.Quiet (s.giveUp p h) := of_stirs (.giveUp s p h)

lemma sendResponse (s : System) (p : ProcessId) (c : ChannelId) (r : Response) : s.Quiet (s.sendResponse p c r).1 :=
  of_stirs (.sendResponse s p c r)

lemma closeChannel (s : System) (p : ProcessId) (c : ChannelId) : s.Quiet (s.closeChannel p c).1 :=
  of_stirs (.closeChannel s p c)

lemma sendFor (s : System) (p : ProcessId) (x : TaskContext) (r : Response) : s.Quiet (s.sendFor p x r).1 :=
  of_stirs (.sendFor s p x r)

lemma stepWriter (s : System) (c : ChannelId) : s.Quiet (s.stepWriter c).1 := of_stirs (.stepWriter s c)

end Quiet

/-! ### Stopping -/

/-- Stopping a process changes nothing else. -/
lemma abort_quiet (s : System) (p : ProcessId) : ∃ processes, Quiet { s with processes } (s.abort p) := by
  have outcome := s.abort_outcome p
  generalize s.abort p = s' at outcome ⊢
  cases outcome with
  | spares => exact ⟨s.processes, .refl s⟩
  | stops => exact ⟨_, .wake (s.onProcess p fun x => { x with cancelled := true }) p⟩

lemma abort_service (s : System) (p : ProcessId) : (s.abort p).service = s.service :=
  (s.abort_quiet p).elim fun _ quiet => quiet.service

lemma abort_sessions (s : System) (p : ProcessId) : (s.abort p).sessions = s.sessions :=
  (s.abort_quiet p).elim fun _ quiet => quiet.sessions

lemma abort_table (s : System) (p : ProcessId) : (s.abort p).table = s.table :=
  (s.abort_quiet p).elim fun _ quiet => quiet.table

lemma abort_contexts (s : System) (p : ProcessId) : (s.abort p).contexts = s.contexts :=
  (s.abort_quiet p).elim fun _ quiet => quiet.contexts

/-! ### Answers -/

namespace Still

lemma of_transit {α : Type} {x : System × Transit} {next : Except Error Unit → α} {waiting : Handover → α}
    (h : s.Still x.1) : s.Still (Transit.turn x next waiting).1 := by
  rwa [Transit.turn_fst]

lemma onContext (s : System) (k : ContextId) (f : TaskContext → TaskContext) : s.Still (s.onContext k f) :=
  ⟨rfl, rfl, rfl, rfl⟩

lemma call (s : System) (p : ProcessId) (k : ContextId) (c : Call) : s.Still (s.call p k c).1 := by
  have outcome := s.call_outcome p k c
  generalize s.call p k c = x at outcome ⊢
  cases outcome with
  | strays | late => exact refl s
  | streams => exact (Quiet.sendFor s p _ _).toStill
  | concludes => exact (onContext s k _).trans (Quiet.sendFor _ p _ _).toStill

lemma tryFinish (s : System) (p : ProcessId) (k : ContextId) (r : Uuid → Response) :
    s.Still (s.tryFinish p k r).1 := by
  have outcome := s.tryFinish_outcome p k r
  generalize s.tryFinish p k r = x at outcome ⊢
  cases outcome with
  | strays | late => exact refl s
  | concludes => exact (onContext s k _).trans (Quiet.sendFor _ p _ _).toStill

lemma replyTimeout (s : System) (p : ProcessId) (k : ContextId) (elapsed : Nat) (ofSession : Bool) :
    s.Still (s.replyTimeout p k elapsed ofSession).1 :=
  tryFinish s p k _

/-! ### Steps that concern no session -/

lemma stepHandler (s : System) (p : ProcessId) (k : ContextId) (point : HandlerPoint) :
    s.Still (s.stepHandler p k point).1 := by
  have outcome := s.stepHandler_outcome p k point
  generalize s.stepHandler p k point = x at outcome ⊢
  cases outcome with
  | returns | sleeps | waits => exact refl s
  | calls => exact of_transit (call s p k _)
  | resumes => exact of_transit (Quiet.resume s p _).toStill
  | wakes spent => exact (Quiet.spendAt? spent).toStill

lemma stepDelivery (s : System) (p : ProcessId) (c : ChannelId) (d : Delivery) (point : DeliveryPoint) :
    s.Still (s.stepDelivery p c d point).1 :=
  (Quiet.of_stirs (.stepDelivery s p c d point)).toStill

lemma stepWriter (s : System) (c : ChannelId) : s.Still (s.stepWriter c).1 :=
  (Quiet.stepWriter s c).toStill

lemma stepLifetime (s : System) (i : SessionId) (milliseconds : Nat) (due : Option Nat) :
    s.Still (s.stepLifetime i milliseconds due).1 := by
  have outcome := s.stepLifetime_outcome i milliseconds due
  generalize s.stepLifetime i milliseconds due = x at outcome ⊢
  cases outcome with
  | sets | waits => exact refl s
  | rings spent => exact (Quiet.spendAt? spent).toStill

end Still

end System

end GraphServer
