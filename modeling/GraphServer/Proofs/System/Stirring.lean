import GraphServer.System.Schedule
import Mathlib.Logic.Relation
import Mathlib.Tactic

/-!
What sending does to a server.

* `System.Stir`: something is taken off the allowance, a process is woken, or a channel changes;
* `System.Stirs`: one after the other. **Whatever is sent stirs**, and so does what a writer takes off a queue, so that
  a relation that each stirring keeps is kept by all of that.
-/

namespace GraphServer

lemma Transit.turn_fst {α : Type} (x : System × Transit) (next : Except Error Unit → α) (waiting : Handover → α) :
    (Transit.turn x next waiting).1 = x.1 := by
  obtain ⟨s, t⟩ := x
  cases t <;> rfl

namespace System

/-- What sending does to a server at once. -/
inductive Stir (s : System) : System → Prop
  | spends : Stir s s.spend
  | wakes (p : ProcessId) : Stir s (s.wake p)
  | channel (c : ChannelId) (f : Channel → Channel) : Stir s (s.onChannel c f)

/-- One stirring after the other. -/
def Stirs : System → System → Prop :=
  Relation.ReflTransGen Stir

namespace Stirs

variable {s s' s'' : System}

@[refl] lemma refl (s : System) : s.Stirs s :=
  Relation.ReflTransGen.refl

lemma trans (h : s.Stirs s') (h' : s'.Stirs s'') : s.Stirs s'' :=
  Relation.ReflTransGen.trans h h'

lemma of_stir (h : s.Stir s') : s.Stirs s' :=
  .single h

/-- What relates the states before and after each stirring relates those before and after all of them. -/
lemma relates {R : System → System → Prop} (h : s.Stirs s') (same : ∀ s, R s s)
    (further : ∀ {s s' s''}, R s s' → R s' s'' → R s s'') (each : ∀ {s s'}, s.Stir s' → R s s') : R s s' := by
  induction h with
  | refl => exact same s
  | tail _ stir ih => exact further ih (each stir)

/-! ### Waking and waiting -/

lemma spend? (h : s.spend? = some s') : s.Stirs s' := by
  rw [System.spend?] at h
  split at h
  · cases h
  · cases h
    exact of_stir .spends

lemma spendAt? {due : Nat} (h : s.spendAt? due = some s') : s.Stirs s' := by
  rw [System.spendAt?] at h
  split at h
  · cases h
  · exact spend? h

lemma wakeAll (s : System) (ps : List ProcessId) : s.Stirs (s.wakeAll ps) := by
  induction ps generalizing s with
  | nil => exact refl s
  | cons p ps ih => exact (of_stir (.wakes p)).trans (ih (s.wake p))

lemma wakeIf (s : System) (p : ProcessId) (test : Program → Bool) : s.Stirs (s.wakeIf p test) := by
  rw [System.wakeIf]
  split
  · exact of_stir (.wakes p)
  · exact refl s

lemma wakeReceiver (s : System) (c : ChannelId) : s.Stirs (s.wakeReceiver c) := by
  rw [System.wakeReceiver]
  split
  · split
    · exact wakeAll s _
    · exact refl s
  · exact refl s

lemma wakeReader (s : System) (n : ConnectionId) : s.Stirs (s.wakeReader n) := by
  rw [System.wakeReader]
  split
  · exact wakeIf s _ _
  · exact refl s

lemma onTransport (s : System) (c : ChannelId) (f : Transport → Transport) : s.Stirs (s.onTransport c f) :=
  (of_stir (.channel c _)).trans (wakeAll _ _)

lemma abandon (s : System) (c : ChannelId) : s.Stirs (s.abandon c) :=
  (of_stir (.channel c _)).trans (wakeReceiver _ c)

/-! ### Parcels -/

lemma count (s : System) (c : ChannelId) (parcel : Parcel) : s.Stirs (s.count c parcel) := by
  rw [System.count]
  split
  · exact of_stir (.channel c _)
  · exact refl s

lemma uncount (s : System) (c : ChannelId) (parcel : Parcel) : s.Stirs (s.uncount c parcel) := by
  rw [System.uncount]
  split
  · exact of_stir (.channel c _)
  · exact refl s

lemma ask (s : System) (c : ChannelId) (parcel : Parcel) (question : OutboundQueue → OutboundQueue.Entry) :
    s.Stirs (s.ask c parcel question).1 := by
  rw [System.ask]
  split
  · exact refl s
  · split
    · exact uncount s c parcel
    · exact ((of_stir .spends).trans (of_stir (.channel c _))).trans (wakeReceiver _ c)
    · exact of_stir (.channel c _)

lemma press (s : System) (p : ProcessId) (c : ChannelId) (parcel : Parcel) (since : Nat) :
    s.Stirs (s.press p c parcel since).1 := by
  rw [System.press]
  split
  · exact refl s
  · dsimp only
    split
    · split <;> exact refl s
    · exact (count s c parcel).trans (ask _ c parcel _)

lemma send (s : System) (p : ProcessId) (c : ChannelId) (parcel : Parcel) : s.Stirs (s.send p c parcel).1 :=
  press s p c parcel s.wall

lemma resume (s : System) (p : ProcessId) (h : Handover) : s.Stirs (s.resume p h).1 := by
  rw [System.resume]
  split
  · split
    next hs => exact (spendAt? hs).trans (press _ p h.channel h.parcel _)
    next => exact refl s
  · exact ask s h.channel h.parcel _

lemma giveUp (s : System) (p : ProcessId) (h : Handover) : s.Stirs (s.giveUp p h) := by
  rw [System.giveUp]
  split
  · exact (of_stir (.channel _ _)).trans (wakeAll _ _)
  · exact refl s

lemma sendResponse (s : System) (p : ProcessId) (c : ChannelId) (r : Response) : s.Stirs (s.sendResponse p c r).1 := by
  rw [System.sendResponse]
  split
  · exact refl s
  · split
    · exact refl s
    · split
      · exact refl s
      · exact send s p c _

lemma closeChannel (s : System) (p : ProcessId) (c : ChannelId) : s.Stirs (s.closeChannel p c).1 := by
  rw [System.closeChannel]
  split
  · exact refl s
  · split
    · exact refl s
    · exact (of_stir (.channel c _)).trans (send _ p c .close)

lemma deliver (s : System) (p : ProcessId) (c : ChannelId) (d : Delivery) : s.Stirs (s.deliver p c d).1 := by
  cases d with
  | response r => exact sendResponse s p c r
  | reply r => exact sendResponse s p c r
  | close => exact closeChannel s p c
  | parcel parcel => exact send s p c parcel

lemma sendFor (s : System) (p : ProcessId) (x : TaskContext) (r : Response) : s.Stirs (s.sendFor p x r).1 := by
  rw [System.sendFor]
  split
  · exact sendResponse s p _ r
  · exact refl s

/-! ### Steps that only send -/

lemma stepDelivery (s : System) (p : ProcessId) (c : ChannelId) (d : Delivery) (point : DeliveryPoint) :
    s.Stirs (s.stepDelivery p c d point).1 := by
  cases point with
  | start =>
    have delivered := deliver s p c d
    rw [System.stepDelivery]
    rcases hx : s.deliver p c d with ⟨s', result | hand⟩ <;> rw [hx] at delivered <;> exact delivered
  | sending h =>
    have resumed := resume s p h
    rw [System.stepDelivery]
    rcases hx : s.resume p h with ⟨s', result | hand⟩ <;> rw [hx] at resumed <;> exact resumed

lemma stepWriter (s : System) (c : ChannelId) : s.Stirs (s.stepWriter c).1 := by
  rw [System.stepWriter]
  split
  · exact refl s
  · split
    next outbound woken _ =>
      split
      next s' hspent =>
        have spent : s.Stirs s' := by
          split at hspent
          · exact spend? hspent
          · cases hspent
            rfl
        exact (spent.trans (of_stir (.channel c _))).trans (wakeAll _ woken)
      next => exact refl s
    · split <;> exact refl s

end Stirs

end System

end GraphServer
