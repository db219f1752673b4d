import GraphServer.Proofs.Session.Chronicle
import GraphServer.Proofs.System.Quiet

/-!
What sending comes to, over any channel.

* `System.Mute`: nothing was put into any queue, and no session, process or context has changed;
* `System.Posts`: something that is sent over a channel is put into its queue, its sender waits with it, or it is
  refused. The other channels notice nothing.
-/

namespace GraphServer.System

variable {s s' s'' : System} {c : ChannelId}

/-! ### Putting nothing into a queue -/

/-- Between two states of a server nothing was put into a queue, and no session, process or context changed. -/
structure Mute (s s' : System) : Prop extends Quiet s s' where
  sent : ∀ c, s'.sentOver c = s.sentOver c

namespace Mute

@[refl] lemma refl (s : System) : s.Mute s := ⟨.refl s, fun _ => rfl⟩

lemma trans (h : s.Mute s') (h' : s'.Mute s'') : s.Mute s'' :=
  ⟨h.toQuiet.trans h'.toQuiet, fun c => (h'.sent c).trans (h.sent c)⟩

lemma of_channels (h : s.Quiet s') (channels : s'.channels = s.channels) : s.Mute s' :=
  ⟨h, fun c => by rw [sentOver, sentOver, channels]⟩

lemma onChannel (s : System) (c : ChannelId) {f : Channel → Channel} (kept : ∀ x, (f x).sent = x.sent) :
    s.Mute (s.onChannel c f) := by
  refine ⟨.onChannel s c f, fun c' => ?_⟩
  rw [sentOver, sentOver, System.onChannel, List.getElem?_modify]
  cases s.channels[c']? with
  | none => rfl
  | some x =>
    by_cases hc : c = c'
    · simp [hc, kept]
    · simp [hc]

lemma onOutbound (s : System) (c : ChannelId) (f : Channel → Outbound) :
    s.Mute (s.onChannel c fun x => { x with outbound := f x }) :=
  onChannel s c fun _ => rfl

lemma spend (s : System) : s.Mute s.spend := .of_channels (.spend s) rfl

lemma spend? (h : s.spend? = some s') : s.Mute s' := by
  rw [System.spend?] at h
  split at h
  · cases h
  · cases h
    exact spend s

lemma spendAt? {due : Nat} (h : s.spendAt? due = some s') : s.Mute s' := by
  rw [System.spendAt?] at h
  split at h
  · cases h
  · exact spend? h

lemma wake (s : System) (p : ProcessId) : s.Mute (s.wake p) := by
  refine .of_channels (.wake s p) ?_
  rw [System.wake]
  split <;> rfl

lemma wakeAll (s : System) (ps : List ProcessId) : s.Mute (s.wakeAll ps) := by
  induction ps generalizing s with
  | nil => exact refl s
  | cons p ps ih => exact (wake s p).trans (ih (s.wake p))

lemma wakeIf (s : System) (p : ProcessId) (test : Program → Bool) : s.Mute (s.wakeIf p test) := by
  rw [System.wakeIf]
  split
  · exact wake s p
  · exact refl s

lemma wakeReceiver (s : System) (c : ChannelId) : s.Mute (s.wakeReceiver c) := by
  rw [System.wakeReceiver]
  split
  · split
    · exact wakeAll s _
    · exact refl s
  · exact refl s

lemma setAlarms (s : System) (p : ProcessId) (dues : List Nat) :
    s.Mute (dues.foldl (fun s due => s.setAlarm p due) s) := by
  refine .of_channels (.setAlarms s p dues) ?_
  induction dues generalizing s with
  | nil => rfl
  | cons due dues ih =>
    refine (ih (s.setAlarm p due)).trans ?_
    rw [System.setAlarm]
    split <;> rfl

lemma bringBack (s : System) : s.Mute s.bringBack :=
  ⟨.bringBack s, (wakeAll { s with aside := [] } s.aside).sent⟩

lemma ring (s : System) (now : Nat) : s.Mute (s.ring now) :=
  ⟨.ring s now, (wakeAll { s with now, alarms := s.alarms.filter (now < ·.1) } _).sent⟩

lemma count (s : System) (c : ChannelId) (parcel : Parcel) : s.Mute (s.count c parcel) := by
  rw [System.count]
  split
  · exact onOutbound s c _
  · exact refl s

lemma uncount (s : System) (c : ChannelId) (parcel : Parcel) : s.Mute (s.uncount c parcel) := by
  rw [System.uncount]
  split
  · exact onOutbound s c _
  · exact refl s

lemma giveUp (s : System) (p : ProcessId) (h : Handover) : s.Mute (s.giveUp p h) := by
  rw [System.giveUp]
  split
  · exact (onOutbound s _ _).trans (wakeAll _ _)
  · exact refl s

end Mute

/-! ### Sending -/

/-- What becomes of something that is sent over a channel. -/
inductive Posts (s : System) (c : ChannelId) (m : Option Sent) (s' : System) : Transit → Prop
  | put (quiet : s.Quiet s') (sent : ∀ c', s'.sentOver c' = s.sentOver c' ++ if c' = c then m.toList else []) :
    Posts s c m s' (.done (.ok ()))
  | held (mute : s.Mute s') (h : Handover) (channel : h.channel = c) (meaning : h.parcel.meaning = m) :
    Posts s c m s' (.waiting h)
  | refused (mute : s.Mute s') (e : Error) : Posts s c m s' (.done (.error e))

namespace Posts

/-- What happens before does not matter if nothing is put into a queue. -/
lemma after {m : Option Sent} {t : Transit} (h : s.Mute s') (posts : s'.Posts c m s'' t) : s.Posts c m s'' t := by
  cases posts with
  | put quiet sent => exact .put (h.toQuiet.trans quiet) fun c' => by rw [sent, h.sent]
  | held mute x channel meaning => exact .held (h.trans mute) x channel meaning
  | refused mute e => exact .refused (h.trans mute) e

/-- A parcel that is recorded with its channel. -/
lemma sentOver_record {x : Channel} (known : s.channels[c]? = some x) (q : OutboundQueue) (parcel : Parcel)
    (c' : ChannelId) : (s.onChannel c fun x => (x.withQueue q).record parcel).sentOver c' =
      s.sentOver c' ++ if c' = c then parcel.meaning.toList else [] := by
  rw [sentOver, sentOver, System.onChannel, List.getElem?_modify]
  by_cases hc : c = c'
  · subst hc
    simp [known, Channel.record, Channel.withQueue]
  · simp [hc, Ne.symm hc]

lemma ask (s : System) (c : ChannelId) (parcel : Parcel) (question : OutboundQueue → OutboundQueue.Entry) :
    s.Posts c parcel.meaning (s.ask c parcel question).1 (s.ask c parcel question).2 := by
  have hquiet := Quiet.ask s c parcel question
  rw [System.ask] at hquiet ⊢
  split
  next => exact .refused (.refl s) _
  next x known =>
    rw [known] at hquiet
    cases hq : question x.outbound.queue with
    | refused => exact .refused (.uncount s c parcel) _
    | stored q =>
      simp only [hq] at hquiet ⊢
      refine .put hquiet fun c' => ?_
      rw [(Mute.wakeReceiver _ c).sent c']
      exact sentOver_record (s := s.spend) known q parcel c'
    | queued q =>
      dsimp only
      exact .held (.onOutbound s c _) _ rfl rfl

lemma press (s : System) (p : ProcessId) (c : ChannelId) (parcel : Parcel) (since : Nat) :
    s.Posts c parcel.meaning (s.press p c parcel since).1 (s.press p c parcel since).2 := by
  rw [System.press]
  split
  next => exact .refused (.refl s) _
  next x _ =>
    dsimp only
    split
    · split
      · exact .refused (.refl s) _
      · exact .held (.refl s) _ rfl rfl
    · exact (ask _ c parcel _).after (.count s c parcel)

lemma send (s : System) (p : ProcessId) (c : ChannelId) (parcel : Parcel) :
    s.Posts c parcel.meaning (s.send p c parcel).1 (s.send p c parcel).2 :=
  press s p c parcel s.wall

lemma resume (s : System) (p : ProcessId) (h : Handover) :
    s.Posts h.channel h.parcel.meaning (s.resume p h).1 (s.resume p h).2 := by
  rw [System.resume]
  split
  next since due _ =>
    split
    next hs => exact (press _ p h.channel h.parcel since).after (.spendAt? hs)
    next => exact .held (.refl s) h rfl rfl
  next => exact ask s h.channel h.parcel _

lemma sendResponse (s : System) (p : ProcessId) (c : ChannelId) (r : Response) :
    s.Posts c (some (.response r)) (s.sendResponse p c r).1 (s.sendResponse p c r).2 := by
  rw [System.sendResponse]
  split
  · exact .refused (.refl s) _
  · split
    · exact .refused (.refl s) _
    · split
      · exact .refused (.refl s) _
      · exact send s p c (.response r _)

end Posts

end GraphServer.System
