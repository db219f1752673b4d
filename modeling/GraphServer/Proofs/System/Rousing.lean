import GraphServer.Proofs.System.Quiet

/-!
What wakes processes and puts none to sleep.

* `System.isAwake`: whether a process is sure to have a turn;
* `System.Rouses`: processes were woken, and nothing happened to sessions, processes, contexts and connections. Whatever
  is put into queues, and whatever time brings, rouses.
-/

namespace GraphServer.System

variable {s s' s'' : System} {c : ChannelId} {p q : ProcessId}

/-- Whether a process is sure to have a turn. -/
def isAwake (s : System) (p : ProcessId) : Bool :=
  p ∈ s.ready ∨ p ∈ s.aside

lemma isAwake_iff : s.isAwake p = true ↔ p ∈ s.ready ∨ p ∈ s.aside :=
  decide_eq_true_iff

/-- Between two states of a server processes were woken, and no session, process, context and connection changed. -/
structure Rouses (s s' : System) : Prop extends Quiet s s' where
  connections : s'.connections = s.connections
  awake : ∀ p, s.isAwake p = true → s'.isAwake p = true

/-! ### Waking -/

lemma mem_ready_wake_of_mem (h : q ∈ s.ready) : q ∈ (s.wake p).ready := by
  rw [wake]
  split
  · exact h
  · exact List.mem_append_left _ h

lemma aside_wake (s : System) (p : ProcessId) : (s.wake p).aside = s.aside := by
  rw [wake]
  split <;> rfl

lemma connections_wake (s : System) (p : ProcessId) : (s.wake p).connections = s.connections := by
  rw [wake]
  split <;> rfl

/-- A process that is woken is awake. -/
lemma isAwake_wake (s : System) (p : ProcessId) : (s.wake p).isAwake p = true := by
  rw [isAwake_iff, wake]
  split
  next h => exact .inl h
  next => exact .inl (List.mem_append_right _ List.mem_cons_self)

namespace Rouses

@[refl] lemma refl (s : System) : s.Rouses s := ⟨.refl s, rfl, fun _ => id⟩

lemma trans (h : s.Rouses s') (h' : s'.Rouses s'') : s.Rouses s'' :=
  ⟨h.toQuiet.trans h'.toQuiet, h'.connections.trans h.connections, fun p hp => h'.awake p (h.awake p hp)⟩

/-- What leaves those who are awake as they are. -/
lemma of_same (quiet : s.Quiet s') (connections : s'.connections = s.connections) (ready : s'.ready = s.ready)
    (aside : s'.aside = s.aside) : s.Rouses s' :=
  ⟨quiet, connections, fun p hp => by rwa [isAwake_iff, ready, aside, ← isAwake_iff]⟩

lemma wake (s : System) (p : ProcessId) : s.Rouses (s.wake p) := by
  refine ⟨.wake s p, connections_wake s p, fun q hq => ?_⟩
  rw [isAwake_iff] at hq ⊢
  rw [aside_wake]
  exact hq.imp_left mem_ready_wake_of_mem

lemma of_stirs (h : s.Stirs s') : s.Rouses s' :=
  h.relates refl trans fun stir => by
    cases stir with
    | spends => exact .of_same (.spend _) rfl rfl rfl
    | wakes p => exact wake _ p
    | channel c f => exact .of_same (.onChannel _ c f) rfl rfl rfl

lemma wakeAll (s : System) (ps : List ProcessId) : s.Rouses (s.wakeAll ps) := of_stirs (.wakeAll s ps)

lemma wakeIf (s : System) (p : ProcessId) (test : Program → Bool) : s.Rouses (s.wakeIf p test) :=
  of_stirs (.wakeIf s p test)

end Rouses

/-- All processes that are woken are awake. -/
lemma isAwake_wakeAll {ps : List ProcessId} (h : p ∈ ps) (s : System) : (s.wakeAll ps).isAwake p = true := by
  induction ps generalizing s with
  | nil => cases h
  | cons q ps ih =>
    obtain rfl | h := List.mem_cons.mp h
    · exact (Rouses.wakeAll (s.wake p) ps).awake p (isAwake_wake s p)
    · exact ih h (s.wake q)

/-- Who passes a test and is woken for it is awake. -/
lemma isAwake_wakeIf {P : Program} {test : Program → Bool} (hP : s.program? p = some P) (passes : test P = true) :
    (s.wakeIf p test).isAwake p = true := by
  rw [wakeIf, hP, Option.any_some, if_pos passes]
  exact isAwake_wake s p

namespace Rouses

/-! ### Time and allowances -/

lemma spend (s : System) : s.Rouses s.spend := of_stirs (.of_stir .spends)

lemma spend? (h : s.spend? = some s') : s.Rouses s' := of_stirs (.spend? h)

lemma spendAt? {due : Nat} (h : s.spendAt? due = some s') : s.Rouses s' := of_stirs (.spendAt? h)

lemma setAlarms (s : System) (p : ProcessId) (dues : List Nat) :
    s.Rouses (dues.foldl (fun s due => s.setAlarm p due) s) := by
  induction dues generalizing s with
  | nil => exact refl s
  | cons due dues ih =>
    have first : s.Rouses (s.setAlarm p due) := by
      refine .of_same (.setAlarm s p due) ?_ ?_ ?_ <;> rw [System.setAlarm] <;> split <;> rfl
    exact first.trans (ih _)

lemma bringBack (s : System) : s.Rouses s.bringBack := by
  have woken := wakeAll { s with aside := [] } s.aside
  refine ⟨.bringBack s, woken.connections, fun p hp => ?_⟩
  obtain ready | aside := isAwake_iff.mp hp
  · exact woken.awake p (isAwake_iff.mpr (.inl ready))
  · exact isAwake_wakeAll aside _

lemma ring (s : System) (now : Nat) : s.Rouses (s.ring now) := by
  have set : s.Rouses { s with now, alarms := s.alarms.filter (now < ·.1) } :=
    .of_same ⟨⟨rfl, rfl, rfl, rfl⟩, rfl⟩ rfl rfl rfl
  exact set.trans (wakeAll _ _)

/-! ### Queues -/

lemma onChannel (s : System) (c : ChannelId) (f : Channel → Channel) : s.Rouses (s.onChannel c f) :=
  of_stirs (.of_stir (.channel c f))

lemma onTransport (s : System) (c : ChannelId) (f : Transport → Transport) : s.Rouses (s.onTransport c f) :=
  of_stirs (.onTransport s c f)

lemma abandon (s : System) (c : ChannelId) : s.Rouses (s.abandon c) := of_stirs (.abandon s c)

lemma wakeReader (s : System) (n : ConnectionId) : s.Rouses (s.wakeReader n) := of_stirs (.wakeReader s n)

lemma resume (s : System) (p : ProcessId) (h : Handover) : s.Rouses (s.resume p h).1 := of_stirs (.resume s p h)

lemma sendResponse (s : System) (p : ProcessId) (c : ChannelId) (r : Response) : s.Rouses (s.sendResponse p c r).1 :=
  of_stirs (.sendResponse s p c r)

lemma closeChannel (s : System) (p : ProcessId) (c : ChannelId) : s.Rouses (s.closeChannel p c).1 :=
  of_stirs (.closeChannel s p c)

lemma sendFor (s : System) (p : ProcessId) (x : TaskContext) (r : Response) : s.Rouses (s.sendFor p x r).1 :=
  of_stirs (.sendFor s p x r)

lemma stepWriter (s : System) (c : ChannelId) : s.Rouses (s.stepWriter c).1 := of_stirs (.stepWriter s c)

end Rouses

end GraphServer.System
