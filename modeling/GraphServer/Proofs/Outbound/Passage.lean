import GraphServer.Proofs.Outbound.Writing
import GraphServer.System.Schedule

/-!
What sending does to the queue of a channel and to the count of the frames that are on their way.

* `OutboundQueue.Carries`: how a queue comes out of an attempt to send a parcel. A frame is counted from the moment at
  which its sender found no pressure, at most as many are as may be, and one that is refused is not counted any more;
* `System.Passes`: what becomes of a parcel and of the channel over which it is sent;
* `System.Passes.send`, `System.Passes.resume`: **a parcel that is sent, or looked after again, is carried**.
-/

namespace GraphServer

/-! ### Parcels on their way -/

/-- Whether a parcel that waits is counted as on its way: it is a frame whose sender found no pressure. -/
def Handover.isCounted (h : Handover) : Bool :=
  match h.stage with
  | .pressed _ _ => false
  | .queued => h.parcel.isFrame

namespace Transit

/-- What was put into the queue, if it was to be this message. -/
def put (m : Outgoing) : Transit → List Outgoing
  | done (.ok _) => [m]
  | done (.error _) => []
  | waiting _ => []

/-- The parcel that waits. -/
def held? : Transit → Option Handover
  | done _ => none
  | waiting h => some h

/-- How many frames wait that are counted. -/
def counted (t : Transit) : Nat :=
  (t.held?.any (·.isCounted)).toNat

end Transit

lemma Outgoing.length_frames_message (parcel : Parcel) :
    (frames [parcel.message]).length = parcel.isFrame.toNat := by
  obtain ⟨m, meaning⟩ := parcel
  cases m <;> rfl

lemma Outgoing.frames_append (messages later : List Outgoing) :
    frames (messages ++ later) = frames messages ++ frames later :=
  List.filterMap_append

/-! ### The queue -/

namespace OutboundQueue

variable {q q' : OutboundQueue}

/-- An answer of a queue to a message changes neither its settings nor its count. -/
structure Entry.Answers (e : Entry) (q : OutboundQueue) (m : Outgoing) : Prop where
  grows : q.Grows (e.queue q) (e.put m)
  settings : (e.queue q).settings = q.settings
  pending : (e.queue q).pending = q.pending

lemma Entry.Answers.enter (q : OutboundQueue) (s : SenderId) (m : Outgoing) : (q.enter s m).Answers q m := by
  refine ⟨.enter q s m, ?_, ?_⟩ <;>
  · rw [OutboundQueue.enter]
    split
    · rfl
    · split <;> rfl

lemma Entry.Answers.reserve (q : OutboundQueue) (s : SenderId) (m : Outgoing) : (q.reserve s).Answers q m := by
  have idle : (q.reserve s).put m = [] := by
    rw [OutboundQueue.reserve]
    split
    · rfl
    · split <;> rfl
  refine ⟨idle ▸ .reserve q s, ?_, ?_⟩ <;>
  · rw [OutboundQueue.reserve]
    split
    · rfl
    · split <;> rfl

lemma Entry.Answers.resume (q : OutboundQueue) (s : SenderId) (m : Outgoing) : (q.resume s m).Answers q m := by
  refine ⟨.resume q s m, ?_, ?_⟩ <;>
  · rw [OutboundQueue.resume]
    split
    · rfl
    · split <;> rfl

lemma pending_lt_of_calm (calm : ¬ q.underPressure = true) : q.pending < q.settings.maxPendingFrames := by
  simpa [underPressure] using calm

/-- How a queue comes out of counting a parcel as on its way. -/
structure Counts (q : OutboundQueue) (parcel : Parcel) (q' : OutboundQueue) : Prop extends q.Grows q' [] where
  settings : q'.settings = q.settings
  pending : q'.pending = q.pending + parcel.isFrame.toNat
  bounded : q.pending ≤ q.settings.maxPendingFrames → q'.pending ≤ q.settings.maxPendingFrames

/-- Only frames are counted, and only as long as there is no pressure. -/
lemma Counts.count (q : OutboundQueue) (parcel : Parcel) (calm : ¬(parcel.isFrame && q.underPressure) = true) :
    q.Counts parcel (if parcel.isFrame then q.count else q) := by
  cases frame : parcel.isFrame with
  | false => exact ⟨.idle rfl rfl id, rfl, by rw [frame]; rfl, id⟩
  | true =>
    rw [frame, Bool.true_and] at calm
    exact ⟨.idle rfl rfl id, rfl, by rw [frame]; rfl, fun _ => pending_lt_of_calm calm⟩

/-- How a queue comes out of an attempt to send a parcel of which so much was counted before. -/
structure Carries (q : OutboundQueue) (parcel : Parcel) (before : Nat) (q' : OutboundQueue) (t : Transit) : Prop
    extends q.Grows q' (t.put parcel.message) where
  settings : q'.settings = q.settings
  pending : q'.pending + before = q.pending + t.counted + (Outgoing.frames (t.put parcel.message)).length
  bounded : q.pending ≤ q.settings.maxPendingFrames → q'.pending ≤ q.settings.maxPendingFrames

namespace Carries

/-- A parcel that waits, or is refused, before it was counted. -/
lemma idle {parcel : Parcel} {t : Transit} (put : t.put parcel.message = []) (counted : t.counted = 0) :
    q.Carries parcel 0 q t where
  toGrows := put ▸ .idle rfl rfl id
  settings := rfl
  pending := by rw [put, counted]; rfl
  bounded := id

/-- A parcel that is counted and then carried was not counted before. -/
lemma of_counts {parcel : Parcel} {q₁ : OutboundQueue} {t : Transit} (counts : q.Counts parcel q₁)
    (carries : q₁.Carries parcel parcel.isFrame.toNat q' t) : q.Carries parcel 0 q' t where
  messages := by rw [carries.messages, counts.messages, List.append_nil]
  closed := carries.closed.trans counts.closed
  abandoned h := carries.abandoned (counts.abandoned h)
  refused h := carries.refused (counts.closed.trans h)
  settings := carries.settings.trans counts.settings
  pending := by
    have hpending := carries.pending
    rw [counts.pending] at hpending
    omega
  bounded h := by
    have hbounded := carries.bounded
    rw [counts.settings] at hbounded
    exact hbounded (counts.bounded h)

/-- A frame that is sent without waiting is counted, and only if there is no pressure. -/
lemma trySend {f : OutboundFrame} (sent : q.trySend f = .ok q') : q.Carries (.raw f) 0 q' (.done (.ok ())) := by
  have grows := Grows.ofMove q (.trySend f)
  rw [move, sent] at grows
  rw [OutboundQueue.trySend] at sent
  split at sent
  · cases sent
  next calm =>
    split at sent
    · cases sent
    · split at sent
      · cases sent
        exact ⟨grows, rfl, rfl, fun _ => pending_lt_of_calm calm⟩
      · cases sent

end Carries

lemma grant_settings (q : OutboundQueue) : q.grant.1.settings = q.settings ∧ q.grant.1.pending = q.pending := by
  rw [grant]
  split <;> exact ⟨rfl, rfl⟩

/-- A sender that stops waiting leaves the settings and the count as they are. -/
lemma leave_settings (q : OutboundQueue) (s : SenderId) :
    (q.leave s).1.settings = q.settings ∧ (q.leave s).1.pending = q.pending := by
  rw [leave]
  split
  · exact grant_settings { q with granted := q.granted.erase s }
  · exact ⟨rfl, rfl⟩

end OutboundQueue

/-! ### The writer -/

namespace Outbound

/-- Taking a batch out of the queue changes neither its settings nor its count. -/
lemma takeBatch_settings (n : Nat) (q : OutboundQueue) :
    (takeBatch n q).queue.settings = q.settings ∧ (takeBatch n q).queue.pending = q.pending := by
  induction n generalizing q with
  | zero => exact ⟨rfl, rfl⟩
  | succ n ih =>
    rw [takeBatch, OutboundQueue.receive]
    cases messages : q.messages with
    | nil => exact ⟨rfl, rfl⟩
    | cons m rest =>
      have granted := OutboundQueue.grant_settings { q with messages := rest }
      cases m with
      | close => exact granted
      | frame f =>
        have later := ih { q with messages := rest }.grant.1
        exact ⟨later.1.trans granted.1, later.2.trans granted.2⟩

/-- Nor does the step in which the writer looks for messages. -/
lemma step_receiving {o o' : Outbound} {woken : List SenderId} (phase : o.phase = .receiving)
    (goes : o.step = some (o', woken)) :
    o'.queue.settings = o.queue.settings ∧ o'.queue.pending = o.queue.pending := by
  rw [step, phase] at goes
  dsimp only at goes
  split at goes
  · split at goes
    · cases goes
      exact ⟨rfl, rfl⟩
    · cases goes
  · cases goes
    exact takeBatch_settings batchLimit o.queue

end Outbound

/-! ### The server -/

namespace System

variable {s s' : System} {c : ChannelId} {o : Outbound}

/-- The way out of a channel. -/
def outbound? (s : System) (c : ChannelId) : Option Outbound :=
  s.channels[c]?.map (·.outbound)

lemma outbound?_of_channels (same : s'.channels = s.channels) : s'.outbound? c = s.outbound? c := by
  rw [outbound?, outbound?, same]

lemma outbound?_onChannel (s : System) (c : ChannelId) {f : Channel → Channel} (g : Outbound → Outbound)
    (changes : ∀ x, (f x).outbound = g x.outbound) : (s.onChannel c f).outbound? c = (s.outbound? c).map g := by
  rw [outbound?, outbound?, onChannel, List.getElem?_modify_eq]
  cases s.channels[c]? with
  | none => rfl
  | some x => exact congrArg some (changes x)

@[simp] lemma channels_wakeAll (s : System) (ps : List ProcessId) : (s.wakeAll ps).channels = s.channels := by
  induction ps generalizing s with
  | nil => rfl
  | cons p ps ih =>
    refine (ih (s.wake p)).trans ?_
    rw [wake]
    split <;> rfl

@[simp] lemma outbound?_wakeAll (s : System) (ps : List ProcessId) : (s.wakeAll ps).outbound? c = s.outbound? c :=
  outbound?_of_channels (channels_wakeAll s ps)

@[simp] lemma outbound?_wakeReceiver (s : System) (c' : ChannelId) :
    (s.wakeReceiver c').outbound? c = s.outbound? c := by
  rw [wakeReceiver]
  split
  · split
    · exact outbound?_wakeAll s _
    · rfl
  · rfl

lemma outbound?_spend? (h : s.spend? = some s') : s'.outbound? c = s.outbound? c := by
  rw [spend?] at h
  split at h
  · cases h
  · cases h
    rfl

lemma exists_channel (known : s.outbound? c = some o) : ∃ x, s.channels[c]? = some x ∧ x.outbound = o :=
  Option.map_eq_some_iff.mp known

/-- A new channel, of which the writer has done nothing yet. -/
lemma outbound?_openChannel (s : System) (transport : Transport) :
    (s.openChannel transport).1.outbound? (s.openChannel transport).2 =
      some { queue := { settings := s.service.settings.writer }, transport } := by
  have spawned (s : System) (c : ChannelId) : (s.spawnWriter c).outbound? c = s.outbound? c := by
    let p := s.processes.length
    refine (outbound?_onChannel _ c (f := fun x => { x with writer := some p }) id fun _ => rfl).trans ?_
    rw [Option.map_id, id]
    exact outbound?_wakeAll _ [p]
  refine (spawned _ _).trans ?_
  simp [outbound?]

/-- The channel after a parcel was counted. -/
lemma outbound?_count (known : s.outbound? c = some o) (parcel : Parcel) : (s.count c parcel).outbound? c =
    some { o with queue := if parcel.isFrame then o.queue.count else o.queue } := by
  rw [count]
  split
  · rw [outbound?_onChannel s c (fun o => { o with queue := o.queue.count }) fun _ => rfl, known]
    rfl
  · exact known

/-- The channel after a parcel was refused that had been counted. -/
lemma outbound?_uncount {x : Channel} (known : s.channels[c]? = some x) (parcel : Parcel) :
    (s.uncount c parcel).outbound? c = some { x.outbound with
      queue := if parcel.isFrame then x.outbound.queue.discount 1 else x.outbound.queue } := by
  rw [uncount]
  split
  · rw [outbound?_onChannel s c (fun o => { o with queue := o.queue.discount 1 }) fun _ => rfl, outbound?, known]
    rfl
  · rw [outbound?, known]
    rfl

/-- The message that a delivery is to put into the queue of a channel, if there is one. -/
def message? (s : System) (c : ChannelId) : Delivery → Option Outgoing
  | .response r | .reply r => (s.frameOf r).toOption.map .frame
  | .close => if s.channels[c]?.any (·.closed) then none else some .close
  | .parcel parcel => some parcel.message

/-- What becomes of a parcel that is sent over a channel, and of the channel: only its queue changes. -/
structure Passes (o : Outbound) (c : ChannelId) (parcel : Parcel) (before : Nat) (x : System × Transit) : Prop where
  carries : ∃ q, x.1.outbound? c = some { o with queue := q } ∧ o.queue.Carries parcel before q x.2
  held : ∀ h, x.2.held? = some h → h.channel = c

namespace Passes

/-- A parcel that was counted asks for a place. -/
lemma ask {parcel : Parcel} {question : OutboundQueue → OutboundQueue.Entry} (known : s.outbound? c = some o)
    (answers : (question o.queue).Answers o.queue parcel.message) (counted : parcel.isFrame.toNat ≤ o.queue.pending) :
    Passes o c parcel parcel.isFrame.toNat (s.ask c parcel question) := by
  obtain ⟨x, hx, rfl⟩ := exists_channel known
  rw [System.ask, hx]
  dsimp only
  cases asked : question x.outbound.queue with
  | refused =>
    refine ⟨⟨_, outbound?_uncount hx parcel, ?_⟩, nofun⟩
    cases frame : parcel.isFrame with
    | false => exact .idle rfl rfl
    | true =>
      rw [frame] at counted
      exact ⟨.idle rfl rfl id, rfl, Nat.sub_add_cancel counted, (Nat.sub_le _ _).trans⟩
  | stored q =>
    rw [asked] at answers
    refine ⟨⟨q, ?_, answers.grows, answers.settings, ?_, (answers.pending.trans_le ·)⟩, nofun⟩
    · rw [outbound?_wakeReceiver, outbound?_onChannel s.spend c (fun o => { o with queue := q }) fun _ => rfl]
      exact congrArg (Option.map _) known
    · rw [Transit.put, Outgoing.length_frames_message]
      exact congrArg (· + _) answers.pending
  | queued q =>
    rw [asked] at answers
    refine ⟨⟨q, ?_, answers.grows, answers.settings, ?_, (answers.pending.trans_le ·)⟩, ?_⟩
    · rw [outbound?_onChannel s c (fun o => { o with queue := q }) fun _ => rfl, known]
      rfl
    · exact congrArg (· + _) answers.pending
    · rintro h ⟨⟩
      rfl

lemma enter {parcel : Parcel} (known : s.outbound? c = some o) (p : ProcessId)
    (counted : parcel.isFrame.toNat ≤ o.queue.pending) :
    Passes o c parcel parcel.isFrame.toNat (s.enter p c parcel) := by
  refine ask known ?_ counted
  split
  · exact .reserve _ p parcel.message
  · exact .enter _ p parcel.message

/-- A parcel that was not counted yet is, unless there is pressure. -/
lemma press (known : s.outbound? c = some o) (p : ProcessId) (parcel : Parcel) (since : Nat) :
    Passes o c parcel 0 (s.press p c parcel since) := by
  obtain ⟨x, hx, rfl⟩ := exists_channel known
  rw [System.press, hx]
  dsimp only
  split
  next =>
    split
    · exact ⟨⟨_, known, .idle rfl rfl⟩, nofun⟩
    · refine ⟨⟨_, known, .idle rfl rfl⟩, ?_⟩
      rintro h ⟨⟩
      rfl
  next calm =>
    have counts := OutboundQueue.Counts.count x.outbound.queue parcel calm
    have counted := (Nat.le_add_left _ _).trans_eq counts.pending.symm
    obtain ⟨⟨q, hq, carries⟩, held⟩ := enter (outbound?_count known parcel) p counted
    exact ⟨⟨q, hq, .of_counts counts carries⟩, held⟩

lemma send (known : s.outbound? c = some o) (p : ProcessId) (parcel : Parcel) :
    Passes o c parcel 0 (s.send p c parcel) :=
  press known p parcel s.wall

lemma sendResponse {r : Response} {f : OutboundFrame} (known : s.outbound? c = some o) (p : ProcessId)
    (frame : s.frameOf r = .ok f) : Passes o c (.response r f) 0 (s.sendResponse p c r) := by
  obtain ⟨x, hx, rfl⟩ := exists_channel known
  rw [System.sendResponse, hx, frame]
  dsimp only
  split
  · exact ⟨⟨_, known, .idle rfl rfl⟩, nofun⟩
  · exact send known p (.response r f)

lemma closeChannel {x : Channel} (known : s.channels[c]? = some x) (p : ProcessId) (opened : ¬ x.closed = true) :
    Passes x.outbound c .close 0 (s.closeChannel p c) := by
  rw [System.closeChannel, known]
  dsimp only
  rw [if_neg opened]
  refine send ?_ p .close
  rw [outbound?_onChannel s c (f := fun x => { x with closed := true }) id fun _ => rfl, outbound?, known]
  rfl

/-- Whatever is delivered over a channel, a parcel with its message is sent. -/
lemma deliver {d : Delivery} {m : Outgoing} (known : s.outbound? c = some o) (p : ProcessId)
    (message : s.message? c d = some m) :
    ∃ parcel : Parcel, parcel.message = m ∧ Passes o c parcel 0 (s.deliver p c d) := by
  cases d with
  | response r | reply r =>
    cases frame : s.frameOf r with
    | error e =>
      rw [message?, frame] at message
      cases message
    | ok f =>
      rw [message?, frame] at message
      cases message
      exact ⟨.response r f, rfl, sendResponse known p frame⟩
  | close =>
    obtain ⟨x, hx, rfl⟩ := exists_channel known
    rw [message?, hx, Option.any_some] at message
    split at message
    · cases message
    next opened =>
      cases message
      exact ⟨.close, rfl, closeChannel hx p opened⟩
  | parcel parcel =>
    cases message
    exact ⟨parcel, rfl, send known p parcel⟩

/-- A parcel that waits is looked after again. -/
lemma resume {h : Handover} (known : s.outbound? h.channel = some o) (p : ProcessId)
    (counted : h.isCounted.toNat ≤ o.queue.pending) :
    Passes o h.channel h.parcel h.isCounted.toNat (s.resume p h) := by
  obtain ⟨c, parcel, stage⟩ := h
  cases stage with
  | pressed since due =>
    rw [System.resume]
    dsimp only
    split
    next s₁ passed =>
      rw [spendAt?] at passed
      split at passed
      · cases passed
      · exact press ((outbound?_spend? passed).trans known) p parcel since
    next =>
      refine ⟨⟨_, known, .idle rfl rfl⟩, ?_⟩
      rintro h ⟨⟩
      rfl
  | queued =>
    rw [System.resume]
    exact ask known (.resume _ p parcel.message) counted

end Passes

/-- A sender that stops waiting changes only who waits. -/
lemma exists_giveUp {h : Handover} (known : s.outbound? h.channel = some o) (p : ProcessId) :
    ∃ q, (s.giveUp p h).outbound? h.channel = some { o with queue := q } ∧ o.queue.Grows q [] ∧
      q.settings = o.queue.settings ∧ q.pending = o.queue.pending := by
  obtain ⟨x, hx, rfl⟩ := exists_channel known
  obtain ⟨c, parcel, stage⟩ := h
  cases stage with
  | pressed since due => exact ⟨_, known, .idle rfl rfl id, rfl, rfl⟩
  | queued =>
    obtain ⟨settings, pending⟩ := x.outbound.queue.leave_settings p
    refine ⟨_, ?_, .leave _ p, settings, pending⟩
    rw [giveUp, hx]
    dsimp only
    rw [outbound?_wakeAll,
      outbound?_onChannel s c (fun o => { o with queue := (x.outbound.queue.leave p).1 }) fun _ => rfl, known]
    rfl

/-- A frame that is sent without waiting is carried, or nothing changes. -/
lemma trySend_cases (known : s.outbound? c = some o) (f : OutboundFrame) :
    (∃ e, s.trySend c f = (s, .error e)) ∨ ∃ s' q, s.trySend c f = (s', .ok ()) ∧
      s'.outbound? c = some { o with queue := q } ∧ o.queue.Carries (.raw f) 0 q (.done (.ok ())) := by
  obtain ⟨x, hx, rfl⟩ := exists_channel known
  rw [trySend, hx]
  dsimp only
  cases sent : x.outbound.queue.trySend f with
  | error e => exact .inl ⟨e, rfl⟩
  | ok q =>
    refine .inr ⟨_, q, rfl, ?_, .trySend sent⟩
    rw [outbound?_wakeReceiver, outbound?_onChannel s c (fun o => { o with queue := q }) fun _ => rfl, known]
    rfl

/-- A step of the writer of a channel, unless it has to wait for its next turn. -/
lemma stepWriter_cases (known : s.outbound? c = some o) : (s.stepWriter c).1.outbound? c = some o ∨
    ∃ o' woken, o.step = some (o', woken) ∧ (s.stepWriter c).1.outbound? c = some o' := by
  obtain ⟨x, hx, rfl⟩ := exists_channel known
  rw [stepWriter, hx]
  dsimp only
  cases step : x.outbound.step with
  | none =>
    dsimp only
    split <;> exact .inl known
  | some r =>
    obtain ⟨o', woken⟩ := r
    dsimp only
    split
    next s₁ spent =>
      refine .inr ⟨o', woken, rfl, ?_⟩
      have known₁ : s₁.outbound? c = some x.outbound := by
        split at spent
        · exact (outbound?_spend? spent).trans known
        · cases spent
          exact known
      rw [outbound?_wakeAll, outbound?_onChannel s₁ c (fun _ => o') fun _ => rfl, known₁]
      rfl
    next => exact .inl known

end System

end GraphServer
