import GraphServer.Proofs.Outbound.Passage

/-!
The frames that are on their way over one channel, whoever sends them.

* `Traffic`: a server, one of its channels and the books about it: who waits with a parcel, what was accepted, what was
  written and flushed, and how many frames were given up after they had been counted;
* `Traffic.Act`: what senders, the writer, its transport and the clocks may do, in any order;
* `Traffic.Kept`: the books agree with the queue and the writer, which every act preserves;
* `Traffic.countedExactly`: **the count of the frames on their way is the number of those that wait for a place and of
  those accepted and not yet flushed**, unless frames were given up after they had been counted.

The count is not what is left to be written: a frame behind an order to close is accepted, counted and never written.
-/

namespace GraphServer

/-! ### Frames around an order to close -/

namespace Outgoing

/-- The frames behind the first order to close. -/
def framesBehind (messages : List Outgoing) : List OutboundFrame :=
  frames (messages.dropWhile (· ≠ .close))

lemma framesAhead_append_framesBehind (messages : List Outgoing) :
    framesAhead messages ++ framesBehind messages = frames messages := by
  rw [framesAhead, framesBehind, ← frames_append, List.takeWhile_append_dropWhile]

@[simp] lemma frames_map_frame (fs : List OutboundFrame) : frames (fs.map .frame) = fs := by
  induction fs with
  | nil => rfl
  | cons f fs ih => exact congrArg (f :: ·) ih

@[simp] lemma framesAhead_map_frame (fs : List OutboundFrame) : framesAhead (fs.map .frame) = fs := by
  induction fs with
  | nil => rfl
  | cons f fs ih => rw [List.map_cons, framesAhead_frame, ih]

lemma framesBehind_eq_nil {messages : List Outgoing} (none_ : .close ∉ messages) : framesBehind messages = [] := by
  induction messages with
  | nil => rfl
  | cons m messages ih =>
    rw [List.mem_cons, not_or] at none_
    rw [framesBehind, List.dropWhile_cons, if_pos (decide_eq_true (Ne.symm none_.1))]
    exact ih none_.2

end Outgoing

/-! ### What the writer took -/

namespace Outbound

variable {o : Outbound} {taken : List OutboundFrame} {lost : List Outgoing}

/-- Whether the writer has come to the end of a batch, so that all it took is written and flushed. -/
def flushesTo (o o' : Outbound) : Bool :=
  match o.phase, o'.phase with
  | .writing _ _ _, .receiving => true
  | .writing _ _ _, .closing => true
  | _, _ => false

lemma flushesTo_self (o : Outbound) : o.flushesTo o = false := by
  rw [flushesTo]
  cases o.phase <;> rfl

/-- Whether a writer waits for messages and there are none, or has ended. -/
def isAtRest (o : Outbound) : Bool :=
  match o.phase with
  | .receiving => o.queue.messages.isEmpty
  | .ended _ => true
  | _ => false

/-- The writer has these frames in its hands. -/
def Holds (o : Outbound) (taken : List OutboundFrame) : Prop :=
  match o.phase with
  | .writing rest frames _ => frames = taken.length ∧ rest.bytes <:+ taken.flatMap OutboundFrame.bytes
  | _ => taken = []

namespace Holds

lemma eq_nil (h : o.Holds taken) (idle : ∀ rest n closing, o.phase ≠ .writing rest n closing) : taken = [] := by
  rw [Holds] at h
  split at h
  next rest n closing phase => exact absurd phase (idle rest n closing)
  next => exact h

/-- What is left to be written is the end of what the writer took. -/
lemma inHand_suffix (h : o.Holds taken) : o.inHand <:+ taken.flatMap OutboundFrame.bytes := by
  rw [inHand]
  cases phase : o.phase with
  | writing rest n closing =>
    rw [Holds, phase] at h
    exact h.2
  | _ => exact List.nil_suffix

end Holds

/-- The accepted messages are the frames that the writer took, the order to close if it took it, what lies in the
queue, and behind an order to close what was lost when the writer ended. -/
structure Parts (o : Outbound) (accepted : List Outgoing) (gone : List OutboundFrame) (lost : List Outgoing) :
    Prop where
  accepted_eq : accepted =
    gone.map .frame ++ (if o.wasClosed then [.close] else []) ++ (o.queue.messages ++ lost)
  lost_cases : lost = [] ∨ o.wasClosed = true ∧ o.queue.closed = true

namespace Parts

variable {accepted : List Outgoing} {gone : List OutboundFrame}

/-- What is put into the queue is accepted, as long as nothing is lost. -/
lemma grows (h : o.Parts accepted gone lost) {q : OutboundQueue} {put : List Outgoing} (grows : o.queue.Grows q put) :
    { o with queue := q }.Parts (accepted ++ put) gone lost where
  accepted_eq := by
    change _ = _ ++ (if o.wasClosed then [.close] else []) ++ (q.messages ++ lost)
    rw [h.accepted_eq, grows.messages]
    obtain rfl | ⟨-, closed⟩ := h.lost_cases
    · simp
    · rw [grows.refused closed]
      simp
  lost_cases := h.lost_cases.imp_right fun ⟨wasClosed, closed⟩ => ⟨wasClosed, grows.closed.trans closed⟩

lemma frames_eq (h : o.Parts accepted gone lost) :
    Outgoing.frames accepted = gone ++ (Outgoing.frames o.queue.messages ++ Outgoing.frames lost) := by
  have none_ : Outgoing.frames (if o.wasClosed then [.close] else []) = [] := by
    split <;> rfl
  rw [h.accepted_eq, Outgoing.frames_append, Outgoing.frames_append, Outgoing.frames_append, none_,
    Outgoing.frames_map_frame, List.append_nil]

/-- Ahead of an order to close nothing is lost. -/
lemma framesAhead_eq (h : o.Parts accepted gone lost) :
    Outgoing.framesAhead accepted = gone ++ if o.wasClosed then [] else Outgoing.framesAhead o.queue.messages := by
  rw [h.accepted_eq, List.append_assoc, Outgoing.framesAhead_append, if_neg (Outgoing.close_notMem_frames gone),
    Outgoing.framesAhead_map_frame]
  obtain rfl | ⟨wasClosed, -⟩ := h.lost_cases
  · cases o.wasClosed <;> simp
  · simp [wasClosed]

lemma wire_eq (h : o.Parts accepted gone lost) : Outgoing.wire accepted =
    gone.flatMap OutboundFrame.bytes ++ if o.wasClosed then [] else Outgoing.wire o.queue.messages := by
  rw [Outgoing.wire, h.framesAhead_eq, List.flatMap_append]
  split <;> rfl

/-- A writer whose queue is open has lost nothing. -/
lemma lost_eq_nil (h : o.Parts accepted gone lost) (opened : ¬ o.queue.closed = true) : lost = [] :=
  h.lost_cases.resolve_right fun closed => opened closed.2

end Parts

end Outbound

/-! ### The history of a channel -/

/-- A server, one of its channels and the books about what is sent over it. -/
structure Traffic where
  system : System
  channel : ChannelId
  /-- Those who wait with a parcel. -/
  senders : List (ProcessId × Handover) := []
  /-- The messages that were accepted, in order. -/
  accepted : List Outgoing := []
  /-- The frames that were written and flushed, in order. -/
  flushed : List OutboundFrame := []
  /-- How many frames were given up after they had been counted. -/
  forsaken : Nat := 0

namespace Traffic

/-- What may happen around a channel. -/
inductive Act where
  /-- Somebody sends a response or a parcel, or closes the channel. -/
  | deliver (p : ProcessId) (d : Delivery)
  /-- Somebody who waits looks after the parcel again. -/
  | resume (p : ProcessId)
  /-- Somebody who waits is stopped. -/
  | abort (p : ProcessId)
  /-- A frame is sent if that needs no waiting. -/
  | trySend (f : OutboundFrame)
  /-- The writer goes a step, unless it has to wait or has ended. -/
  | write
  /-- The transport begins or ends to let the writer wait. -/
  | stall (stalled : Bool)
  /-- The last handle is dropped. -/
  | abandon
  /-- Time passes, or somebody else has a turn. -/
  | pass (now wall allowance : Nat)

/-- A new channel of a server, to a transport with some sink. -/
def start (s : System) (sink : Sink) : Traffic where
  system := (s.openChannel { sink }).1
  channel := (s.openChannel { sink }).2

/-- The parcel with which somebody waits. -/
def sender? (t : Traffic) (p : ProcessId) : Option Handover :=
  (t.senders.find? (·.1 == p)).map (·.2)

/-- Somebody does not wait any more. -/
def without (t : Traffic) (p : ProcessId) : Traffic :=
  { t with senders := t.senders.eraseP (·.1 == p) }

/-- Enters what became of a message that somebody sends. -/
def enter (t : Traffic) (p : ProcessId) (m : Outgoing) (x : System × Transit) : Traffic :=
  { t with
    system := x.1
    senders := (x.2.held?.map fun h => (p, h)).toList ++ t.senders
    accepted := t.accepted ++ x.2.put m }

/-- Enters that somebody gives up a parcel. -/
def forsake (t : Traffic) (p : ProcessId) (h : Handover) : Traffic :=
  { t with system := t.system.giveUp p h, forsaken := t.forsaken + h.isCounted.toNat }

/-- Enters a step of the writer. At the end of a batch all that has left the queue is done with. -/
def wrote (t : Traffic) (system : System) (o o' : Outbound) : Traffic :=
  let left := t.accepted.take (t.accepted.length - o'.queue.messages.length)
  { t with system, flushed := if o.flushesTo o' then Outgoing.frames left else t.flushed }

/-- The writer goes a step. -/
def write (t : Traffic) : Traffic :=
  let system := (t.system.stepWriter t.channel).1
  match t.system.outbound? t.channel, system.outbound? t.channel with
  | some o, some o' => t.wrote system o o'
  | _, _ => { t with system }

/-- The books after an act. -/
def next (t : Traffic) : Act → Traffic
  | .deliver p d =>
    match t.sender? p, t.system.message? t.channel d with
    | none, some m => t.enter p m (t.system.deliver p t.channel d)
    | _, _ => t
  | .resume p =>
    match t.sender? p with
    | some h => (t.without p).enter p h.parcel.message (t.system.resume p h)
    | none => t
  | .abort p =>
    match t.sender? p with
    | some h => (t.without p).forsake p h
    | none => t
  | .trySend f =>
    match t.system.trySend t.channel f with
    | (system, .ok _) => { t with system, accepted := t.accepted ++ [.frame f] }
    | (system, .error _) => { t with system }
  | .write => t.write
  | .stall stalled => { t with system := t.system.onTransport t.channel fun x => { x with stalled } }
  | .abandon => { t with system := t.system.abandon t.channel }
  | .pass now wall allowance => { t with system := { t.system with now, wall, allowance } }

/-- The books after some acts. -/
def play (t : Traffic) (acts : List Act) : Traffic :=
  acts.foldl next t

/-- The way out that the channel has. -/
def outbound? (t : Traffic) : Option Outbound :=
  t.system.outbound? t.channel

/-- The number of frames that wait for a place. -/
def underway (t : Traffic) : Nat :=
  t.senders.countP (·.2.isCounted)

/-- The frames that were accepted and not yet written and flushed. -/
def outstanding (t : Traffic) : List OutboundFrame :=
  (Outgoing.frames t.accepted).drop t.flushed.length

variable {t : Traffic} {o o' : Outbound} {limit loose : Nat} {taken : List OutboundFrame} {lost : List Outgoing}
  {p : ProcessId}

/-! ### The invariant -/

/-- The books agree with the channel, while somebody who acts has so many counted frames in hand. -/
structure Kept (limit loose : Nat) (t : Traffic) (o : Outbound) (taken : List OutboundFrame) (lost : List Outgoing) :
    Prop where
  known : t.system.outbound? t.channel = some o
  stands : o.Stands t.accepted
  parts : o.Parts t.accepted (t.flushed ++ taken) lost
  holds : o.Holds taken
  addressed : ∀ e ∈ t.senders, e.2.channel = t.channel
  settings : o.queue.settings.maxPendingFrames = limit
  bounded : o.queue.pending ≤ limit
  pending : o.queue.pending + t.flushed.length =
    t.underway + (Outgoing.frames t.accepted).length + t.forsaken + loose

/-! ### Senders -/

lemma exists_sender {h : Handover} (waits : t.sender? p = some h) : ∃ before after,
    t.senders = before ++ (p, h) :: after ∧ (t.without p).senders = before ++ after := by
  rw [sender?, Option.map_eq_some_iff] at waits
  obtain ⟨⟨q, w⟩, found, rfl⟩ := waits
  obtain ⟨same, before, after, split, apart⟩ := List.find?_eq_some_iff_append.mp found
  obtain rfl := beq_iff_eq.mp same
  refine ⟨before, after, split, ?_⟩
  rw [without, split, List.eraseP_append_right _ (by simpa using apart), List.eraseP_cons, same]
  rfl

namespace Kept

/-- Somebody takes the parcel into its hands with which it waited. -/
lemma without (h : Kept limit 0 t o taken lost) {w : Handover} (waits : t.sender? p = some w) :
    w.channel = t.channel ∧ Kept limit w.isCounted.toNat (t.without p) o taken lost := by
  obtain ⟨before, after, split, rest⟩ := exists_sender waits
  refine ⟨h.addressed (p, w) (by simp [split]), { h with addressed := fun e he => ?_, pending := ?_ }⟩
  · refine h.addressed e ?_
    rw [rest] at he
    rw [split]
    exact List.mem_append.mpr ((List.mem_append.mp he).imp_right (List.mem_cons_of_mem _))
  · have hpending := h.pending
    have fewer : (t.without p).underway + w.isCounted.toNat = t.underway := by
      rw [underway, underway, rest, split, List.countP_append, List.countP_append, List.countP_cons]
      cases w.isCounted <;> simp [Nat.add_assoc]
    change _ + t.flushed.length = _ + (Outgoing.frames t.accepted).length + t.forsaken + _
    omega

/-- What becomes of a parcel that somebody had in its hands. -/
lemma enter {before : Nat} (h : Kept limit before t o taken lost) {parcel : Parcel} {x : System × Transit}
    (passes : System.Passes o t.channel parcel before x) (p : ProcessId) :
    ∃ o', Kept limit 0 (t.enter p parcel.message x) o' taken lost := by
  obtain ⟨⟨q, hq, carries⟩, held⟩ := passes
  refine ⟨{ o with queue := q }, hq, h.stands.grows carries.toGrows, h.parts.grows carries.toGrows, h.holds, ?_,
    (congrArg _ carries.settings).trans h.settings, ?_, ?_⟩
  · intro e he
    obtain new | old := List.mem_append.mp he
    · rw [Option.mem_toList, Option.map_eq_some_iff] at new
      obtain ⟨w, hw, rfl⟩ := new
      exact held w hw
    · exact h.addressed e old
  · rw [← h.settings]
    exact carries.bounded (h.settings ▸ h.bounded)
  · have hcarried := carries.pending
    have hpending := h.pending
    have more : (t.enter p parcel.message x).underway = x.2.counted + t.underway := by
      rw [underway, underway, Traffic.enter, List.countP_append, Transit.counted]
      cases x.2.held? with
      | none => rfl
      | some w => cases hw : w.isCounted <;> simp [hw]
    rw [more]
    change _ + t.flushed.length =
      _ + (Outgoing.frames (t.accepted ++ x.2.put parcel.message)).length + t.forsaken + 0
    rw [Outgoing.frames_append, List.length_append]
    change q.pending + _ = _
    omega

/-- A counted frame is among those that are on their way. -/
lemma loose_le (h : Kept limit loose t o taken lost) : loose ≤ o.queue.pending := by
  have hpending := h.pending
  have hframes := congrArg List.length h.parts.frames_eq
  rw [List.length_append, List.length_append] at hframes
  omega

/-- A parcel that somebody had in its hands is given up. -/
lemma forsake {w : Handover} (h : Kept limit w.isCounted.toNat t o taken lost) (channel : w.channel = t.channel)
    (p : ProcessId) : ∃ o', Kept limit 0 (t.forsake p w) o' taken lost := by
  obtain ⟨q, hq, grows, settings, pending⟩ := System.exists_giveUp (channel ▸ h.known) p
  have stands := h.stands.grows grows
  have parts := h.parts.grows grows
  rw [List.append_nil] at stands parts
  refine ⟨{ o with queue := q }, channel ▸ hq, stands, parts, h.holds, h.addressed,
    (congrArg _ settings).trans h.settings, pending.trans_le h.bounded, ?_⟩
  change q.pending + t.flushed.length =
    t.underway + (Outgoing.frames t.accepted).length + (t.forsaken + w.isCounted.toNat) + 0
  rw [pending, h.pending]
  omega

/-- Nobody sends, and the queue stays as it is but for who is left to send. -/
lemma beside (h : Kept limit 0 t o taken lost) {s : System} {o' : Outbound} (known : s.outbound? t.channel = some o')
    (stands : o'.Stands t.accepted) (phase : o'.phase = o.phase) (isShut : o'.transport.isShut = o.transport.isShut)
    (queue : o'.queue = { o.queue with abandoned := o'.queue.abandoned }) :
    Kept limit 0 { t with system := s } o' taken lost where
  known := known
  stands := stands
  parts := by
    have wasClosed : o'.wasClosed = o.wasClosed := by
      rw [Outbound.wasClosed, Outbound.wasClosed, phase, isShut]
    refine ⟨?_, ?_⟩
    · rw [wasClosed, queue]
      exact h.parts.accepted_eq
    · rw [wasClosed, queue]
      exact h.parts.lost_cases
  holds := by
    rw [Outbound.Holds, phase]
    exact h.holds
  addressed := h.addressed
  settings := by
    rw [queue]
    exact h.settings
  bounded := by
    rw [queue]
    exact h.bounded
  pending := by
    rw [queue]
    exact h.pending

end Kept

/-! ### The writer -/

namespace Kept

/-- A step that does not end a batch. -/
lemma wrote_of (h : Kept limit 0 t o taken lost) {s : System} (known : s.outbound? t.channel = some o')
    (stands : o'.Stands t.accepted) (running : o.flushesTo o' = false) {taken' : List OutboundFrame}
    {lost' : List Outgoing} (parts : o'.Parts t.accepted (t.flushed ++ taken') lost') (holds : o'.Holds taken')
    (settings : o'.queue.settings = o.queue.settings) (pending : o'.queue.pending = o.queue.pending) :
    Kept limit 0 (t.wrote s o o') o' taken' lost' := by
  have same : t.wrote s o o' = { t with system := s } := by
    rw [wrote, running]
    rfl
  rw [same]
  exact ⟨known, stands, parts, holds, h.addressed, (congrArg _ settings).trans h.settings,
    pending.trans_le h.bounded, pending ▸ h.pending⟩

/-- The end of a batch: its frames are flushed and not counted any more. -/
lemma wrote_flushes (h : Kept limit 0 t o taken lost) {s : System} {rest : Unwritten} {n : Nat} {closing : Bool}
    (phase : o.phase = .writing rest n closing) (known : s.outbound? t.channel = some o')
    (stands : o'.Stands t.accepted) (queue : o'.queue = o.queue.discount n)
    (after : o'.phase = Outbound.afterBatch closing) : Kept limit 0 (t.wrote s o o') o' [] [] := by
  have hholds := h.holds
  rw [Outbound.Holds, phase] at hholds
  obtain ⟨rfl, -⟩ := hholds
  obtain rfl := h.parts.lost_eq_nil (h.stands.closed_eq_false fun result ended => by cases phase.symm.trans ended)
  have accepted_eq := h.parts.accepted_eq
  rw [Outbound.wasClosed, phase, List.append_nil] at accepted_eq
  -- what has left the queue is what was flushed before, the batch, and the order to close if it ended the batch
  have left :
      Outgoing.frames (t.accepted.take (t.accepted.length - o'.queue.messages.length)) = t.flushed ++ taken := by
    rw [queue, accepted_eq]
    change Outgoing.frames (List.take (_ - o.queue.messages.length) _) = _
    rw [List.length_append, Nat.add_sub_cancel, List.take_left, Outgoing.frames_append, Outgoing.frames_map_frame]
    cases closing <;> simp [Outgoing.frames]
  have flushed : (t.wrote s o o').flushed = t.flushed ++ taken := by
    rw [wrote, Outbound.flushesTo, phase, after]
    cases closing <;> exact left
  have wasClosed : o'.wasClosed = closing := by
    rw [Outbound.wasClosed, after]
    cases closing <;> rfl
  refine ⟨known, stands, ⟨?_, .inl rfl⟩, ?_, h.addressed, ?_, ?_, ?_⟩
  · rw [flushed, wasClosed, queue, List.append_nil, List.append_nil]
    exact accepted_eq
  · rw [Outbound.Holds, after]
    cases closing <;> rfl
  · rw [queue]
    exact h.settings
  · rw [queue]
    exact (Nat.sub_le _ _).trans h.bounded
  · have hpending := h.pending
    have hframes := congrArg List.length h.parts.frames_eq
    rw [List.length_append, List.length_append] at hframes
    rw [flushed, List.length_append, queue]
    change o.queue.pending - taken.length + _ = t.underway + (Outgoing.frames t.accepted).length + t.forsaken + 0
    omega

/-- A writer that waits for messages has lost nothing, and what it took it has flushed. -/
lemma of_receiving (h : Kept limit 0 t o taken lost) (phase : o.phase = .receiving) :
    taken = [] ∧ lost = [] ∧ t.accepted = t.flushed.map .frame ++ o.queue.messages := by
  obtain rfl := h.holds.eq_nil fun rest n closing writing => by cases phase.symm.trans writing
  obtain rfl := h.parts.lost_eq_nil (h.stands.closed_eq_false fun result ended => by cases phase.symm.trans ended)
  have accepted_eq := h.parts.accepted_eq
  rw [Outbound.wasClosed, phase] at accepted_eq
  simpa using accepted_eq

/-- A step of the writer. -/
lemma wrote (h : Kept limit 0 t o taken lost) {s : System} {woken : List SenderId} (step : o.step = some (o', woken))
    (known : s.outbound? t.channel = some o') : ∃ taken' lost', Kept limit 0 (t.wrote s o o') o' taken' lost' := by
  have goes : o.Goes o' := .ofStep h.stands.reliable step
  have stands := h.stands.goes goes
  cases goes with
  | stops phase messages abandoned =>
    obtain ⟨settings, pending⟩ := Outbound.step_receiving phase step
    obtain ⟨rfl, rfl, accepted_eq⟩ := h.of_receiving phase
    have shut := h.stands.isShut_eq_false fun result ended => by cases phase.symm.trans ended
    refine ⟨[], [], h.wrote_of known stands (by rw [Outbound.flushesTo, phase]) ⟨?_, .inl rfl⟩ rfl settings pending⟩
    rw [accepted_eq, messages]
    change _ = _ ++ (if o.transport.isShut then _ else _) ++ _
    rw [if_neg shut]
    simp [Outbound.finish, OutboundQueue.close]
  | takes phase b splits frames =>
    obtain ⟨settings, pending⟩ := Outbound.step_receiving phase step
    obtain ⟨rfl, rfl, accepted_eq⟩ := h.of_receiving phase
    refine ⟨b.frames, [], h.wrote_of known stands (by rw [Outbound.flushesTo, phase]) ⟨?_, .inl rfl⟩ ⟨rfl, ?_⟩ settings
      pending⟩
    · rw [accepted_eq, splits.messages]
      cases b.closing <;> simp [Outbound.wasClosed]
    · rw [Unwritten.bytes_ofFrames]
  | closes phase b splits frames closing =>
    obtain ⟨settings, pending⟩ := Outbound.step_receiving phase step
    obtain ⟨rfl, rfl, accepted_eq⟩ := h.of_receiving phase
    refine ⟨[], [], h.wrote_of known stands (by rw [Outbound.flushesTo, phase]) ⟨?_, .inl rfl⟩ rfl settings pending⟩
    rw [accepted_eq, splits.messages, frames, closing]
    simp [Outbound.wasClosed]
  | flushes phase empty => exact ⟨[], [], h.wrote_flushes phase known stands rfl rfl⟩
  | @writes rest n closing phase left t' k output sink flushFault shutdownFault stalled isShut =>
    obtain ⟨accepted_eq, lost_cases⟩ := h.parts
    obtain ⟨length, suffix⟩ : n = taken.length ∧ rest.bytes <:+ taken.flatMap OutboundFrame.bytes := by
      have holds := h.holds
      rw [Outbound.Holds, phase] at holds
      exact holds
    rw [Outbound.wasClosed, phase] at accepted_eq lost_cases
    refine ⟨taken, lost, h.wrote_of known stands (by rw [Outbound.flushesTo, phase]) ⟨accepted_eq, lost_cases⟩
      ⟨length, ?_⟩ rfl rfl⟩
    rw [Unwritten.bytes_advance]
    exact (List.drop_suffix _ _).trans suffix
  | shuts phase =>
    -- the order to close was the last message that the writer took; what lies behind it is lost now
    obtain rfl := h.holds.eq_nil fun rest n closing writing => by cases phase.symm.trans writing
    have accepted_eq := h.parts.accepted_eq
    rw [Outbound.wasClosed, phase] at accepted_eq
    exact ⟨[], o.queue.messages ++ lost, h.wrote_of known stands (by rw [Outbound.flushesTo, phase])
      ⟨accepted_eq, .inr ⟨rfl, rfl⟩⟩ rfl rfl rfl⟩

/-- The writer goes a step, unless it has to wait for its next turn. -/
lemma write (h : Kept limit 0 t o taken lost) : ∃ o' taken' lost', Kept limit 0 t.write o' taken' lost' := by
  rw [Traffic.write, h.known]
  obtain same | ⟨o', woken, step, known⟩ := System.stepWriter_cases h.known
  · rw [same]
    exact ⟨o, taken, lost, h.wrote_of same h.stands (Outbound.flushesTo_self o) h.parts h.holds rfl rfl⟩
  · rw [known]
    obtain ⟨taken', lost', kept⟩ := h.wrote step known
    exact ⟨o', taken', lost', kept⟩

end Kept

/-! ### All acts -/

lemma exists_start (s : System) {sink : Sink} (willing : sink.Willing) :
    ∃ o, Kept s.service.settings.writer.maxPendingFrames 0 (start s sink) o [] [] := by
  have known := System.outbound?_openChannel s { sink }
  exact ⟨_, known, .start _ willing, ⟨rfl, .inl rfl⟩, rfl, nofun, rfl, Nat.zero_le _, rfl⟩

namespace Kept

/-- What an act preserves. -/
lemma next (h : Kept limit 0 t o taken lost) (act : Act) :
    ∃ o' taken' lost', Kept limit 0 (t.next act) o' taken' lost' := by
  cases act with
  | deliver p d =>
    rw [Traffic.next]
    split
    next m _ message =>
      obtain ⟨parcel, rfl, passes⟩ := System.Passes.deliver h.known p message
      obtain ⟨o', kept⟩ := h.enter passes p
      exact ⟨o', taken, lost, kept⟩
    next => exact ⟨o, taken, lost, h⟩
  | resume p =>
    rw [Traffic.next]
    split
    next w waits =>
      obtain ⟨channel, hands⟩ := h.without waits
      have passes := System.Passes.resume (channel ▸ hands.known) p hands.loose_le
      obtain ⟨o', kept⟩ := hands.enter (channel ▸ passes) p
      exact ⟨o', taken, lost, kept⟩
    next => exact ⟨o, taken, lost, h⟩
  | abort p =>
    rw [Traffic.next]
    split
    next w waits =>
      obtain ⟨channel, hands⟩ := h.without waits
      obtain ⟨o', kept⟩ := hands.forsake channel p
      exact ⟨o', taken, lost, kept⟩
    next => exact ⟨o, taken, lost, h⟩
  | trySend f =>
    rw [Traffic.next]
    obtain ⟨e, refused⟩ | ⟨s, q, sent, hq, carries⟩ := System.trySend_cases h.known f
    · rw [refused]
      exact ⟨o, taken, lost, h⟩
    · rw [sent]
      -- the parcel has no sender that waits, so it is entered for anybody
      obtain ⟨o', kept⟩ := h.enter (x := (s, .done (.ok ()))) ⟨⟨q, hq, carries⟩, nofun⟩ 0
      exact ⟨o', taken, lost, kept⟩
  | write => exact h.write
  | stall stalled =>
    refine ⟨_, taken, lost, h.beside ?_ (h.stands.stall stalled) rfl rfl rfl⟩
    rw [System.onTransport, System.outbound?_wakeAll, System.outbound?_onChannel _ _
      (fun o => { o with transport := { o.transport with stalled } }) fun _ => rfl, h.known]
    rfl
  | abandon =>
    have grows : o.queue.Grows { o.queue with abandoned := true } [] := .idle rfl rfl fun _ => rfl
    have stands := h.stands.grows grows
    rw [List.append_nil] at stands
    refine ⟨_, taken, lost, h.beside ?_ stands rfl rfl rfl⟩
    rw [System.abandon, System.outbound?_wakeReceiver, System.outbound?_onChannel _ _
      (fun o => { o with queue := { o.queue with abandoned := true } }) fun _ => rfl, h.known]
    rfl
  | pass now wall allowance => exact ⟨o, taken, lost, h.beside h.known h.stands rfl rfl rfl⟩

lemma play (h : Kept limit 0 t o taken lost) (acts : List Act) :
    ∃ o' taken' lost', Kept limit 0 (t.play acts) o' taken' lost' := by
  induction acts generalizing t o taken lost with
  | nil => exact ⟨o, taken, lost, h⟩
  | cons act acts ih =>
    obtain ⟨o', taken', lost', kept⟩ := h.next act
    exact ih kept

end Kept

/-! ### What the books say -/

/-- What the books say about the channel, which may have so many frames on their way. -/
structure Accounts (limit : Nat) (t : Traffic) (o : Outbound) : Prop where
  bounded : o.queue.pending ≤ limit
  flushed_prefix : t.flushed <+: Outgoing.frames t.accepted
  written : t.flushed.flatMap OutboundFrame.bytes <+: o.transport.output
  rests : o.isAtRest = true → t.flushed = Outgoing.framesAhead t.accepted ∧
    o.transport.output = t.flushed.flatMap OutboundFrame.bytes
  whole : o.isAtRest = true → .close ∉ t.accepted → t.flushed = Outgoing.frames t.accepted
  pending : t.forsaken = 0 → o.queue.pending = t.underway + t.outstanding.length
  settles : t.forsaken = 0 → o.isAtRest = true → t.senders = [] →
    o.queue.pending = (Outgoing.framesBehind t.accepted).length
  clears : t.forsaken = 0 → o.isAtRest = true → t.senders = [] → .close ∉ t.accepted → o.queue.pending = 0

namespace Kept

/-- A writer at rest has nothing in its hands, and nothing lies in its queue. -/
lemma of_isAtRest (h : Kept limit 0 t o taken lost) (rest : o.isAtRest = true) :
    taken = [] ∧ o.queue.messages = [] ∧ o.transport.output = Outgoing.wire t.accepted := by
  rw [Outbound.isAtRest] at rest
  split at rest
  next phase =>
    have messages := List.isEmpty_iff.mp rest
    exact ⟨(h.of_receiving phase).1, messages, (h.stands.of_receiving phase messages).1⟩
  next result phase =>
    obtain rfl := h.holds.eq_nil fun rest n closing writing => by cases phase.symm.trans writing
    exact ⟨rfl, (h.stands.ended result phase).2.1, (h.stands.of_ended phase).1⟩
  next => cases rest

/-- What was flushed was written, and what the writer has in its hands comes next. -/
lemma flushed_prefix_output (h : Kept limit 0 t o taken lost) :
    t.flushed.flatMap OutboundFrame.bytes <+: o.transport.output := by
  have written := h.stands.written
  rw [h.parts.wire_eq] at written
  have both : o.transport.output ++ o.inHand = (t.flushed ++ taken).flatMap OutboundFrame.bytes := by
    cases wasClosed : o.wasClosed with
    | true => simpa [wasClosed] using written
    | false =>
      rw [wasClosed, if_neg Bool.false_ne_true, ← List.append_assoc] at written
      exact List.append_cancel_right written
  obtain ⟨written, split⟩ := h.holds.inHand_suffix
  refine ⟨written, (List.append_left_inj o.inHand).mp ?_⟩
  rw [both, List.flatMap_append, List.append_assoc, split]

lemma accounts (h : Kept limit 0 t o taken lost) : t.Accounts limit o := by
  have frames_eq := h.parts.frames_eq
  rw [List.append_assoc] at frames_eq
  have pending (kept : t.forsaken = 0) : o.queue.pending = t.underway + t.outstanding.length := by
    have hpending := h.pending
    rw [kept] at hpending
    have hlength := congrArg List.length frames_eq
    rw [List.length_append] at hlength
    rw [outstanding, List.length_drop]
    omega
  have rests (rest : o.isAtRest = true) : t.flushed = Outgoing.framesAhead t.accepted := by
    obtain ⟨rfl, messages, -⟩ := h.of_isAtRest rest
    rw [h.parts.framesAhead_eq, messages]
    cases o.wasClosed <;> simp
  have settles (kept : t.forsaken = 0) (rest : o.isAtRest = true) (nobody : t.senders = []) :
      o.queue.pending = (Outgoing.framesBehind t.accepted).length := by
    rw [pending kept, underway, nobody, outstanding, rests rest, ← Outgoing.framesAhead_append_framesBehind,
      List.drop_left]
    exact Nat.zero_add _
  refine ⟨h.bounded, ⟨_, frames_eq.symm⟩, h.flushed_prefix_output, fun rest => ⟨rests rest, ?_⟩,
    fun rest opened => ?_, pending, settles, fun kept rest nobody opened => ?_⟩
  · rw [(h.of_isAtRest rest).2.2, rests rest]
    rfl
  · rw [rests rest, ← Outgoing.framesAhead_append_framesBehind, Outgoing.framesBehind_eq_nil opened, List.append_nil]
  · rw [settles kept rest nobody, Outgoing.framesBehind_eq_nil opened]
    rfl

end Kept

/-- **The frames that are on their way are counted exactly, unless one is given up after it was counted.** Whatever
senders, the writer of a new channel and a transport that never fails do in any order, never more frames are counted
than may be on their way. What was flushed is the first part of what was accepted, and was written. Once the writer is
at rest, the accepted frames before an order to close have been written, each once and in order, and those behind it
have not. As long as no frame was given up after it was counted, the count is the number of those that wait for a place
and of those accepted and not yet flushed; so when nobody sends and the writer is at rest, it is the number of those
behind the order to close, and nothing is counted and everything accepted was written if there was no such order. -/
theorem countedExactly (s : System) {sink : Sink} (willing : sink.Willing) (acts : List Act) :
    let t := (start s sink).play acts
    ∃ o, t.outbound? = some o ∧ t.Accounts s.service.settings.writer.maxPendingFrames o := by
  obtain ⟨o, started⟩ := exists_start s willing
  obtain ⟨o', taken, lost, kept⟩ := started.play acts
  exact ⟨o', kept.known, kept.accounts⟩

/-- A server on which two frames may be on their way at a time, with so many places in a queue. -/
def twoAtATime (channelCapacity : Nat) : System where
  service := { settings := { writer := { maxPendingFrames := 2, channelCapacity, backpressureTimeout := 1000 } } }

/-- A transport that takes at most three bytes at once. -/
def nibbling : Sink := fun _ offered => .accepted (min 3 offered.length)

lemma nibbling_willing : nibbling.Willing := fun _ offered h =>
  have hlength := List.length_pos_of_ne_nil h
  ⟨min 3 offered.length - 1, congrArg SinkReply.accepted (by omega)⟩

/-- A frame of one byte. -/
def byteFrame (b : UInt8) : OutboundFrame := ⟨[0, 0, 0, 1], [b]⟩

/-- Somebody sends a frame of one byte. -/
def Act.sendByte (p : ProcessId) (b : UInt8) : Act := .deliver p (.parcel (.raw (byteFrame b)))

/-- One frame lies in the queue, one waits for a place, and the sender of a third one, which has to wait before it asks
for a place, is stopped. Then the writer writes the first frame, and the second one when it has its place. -/
def threeSends : List Act :=
  [.sendByte 1 7, .sendByte 2 8, .sendByte 3 9, .abort 3] ++ List.replicate 4 .write ++ [.resume 2] ++
    List.replicate 4 .write

/-- The channel after that, if it has one place. -/
def threeSenders : Traffic :=
  (start (twoAtATime 1) nibbling).play threeSends

/-- Nothing is counted any more after both frames were written. -/
theorem countedExactly_threeSenders : ∃ o, threeSenders.outbound? = some o ∧ o.queue.pending = 0 ∧
    o.transport.output = [0, 0, 0, 1, 7, 0, 0, 0, 1, 8] := by
  obtain ⟨o, known, accounts⟩ : ∃ o, threeSenders.outbound? = some o ∧ threeSenders.Accounts 2 o :=
    countedExactly (twoAtATime 1) nibbling_willing threeSends
  have accepted : threeSenders.accepted = [.frame (byteFrame 7), .frame (byteFrame 8)] := by decide +kernel
  have opened : .close ∉ threeSenders.accepted := by
    rw [accepted]
    decide
  have kept : threeSenders.forsaken = 0 := by decide +kernel
  have nobody : threeSenders.senders.isEmpty = true := by decide +kernel
  have rest : threeSenders.outbound?.any (·.isAtRest) = true := by decide +kernel
  rw [known, Option.any_some] at rest
  refine ⟨o, known, accounts.clears kept rest (List.isEmpty_iff.mp nobody) opened, ?_⟩
  rw [(accounts.rests rest).2, accounts.whole rest opened, accepted]
  rfl

/-- **More frames may be counted than wait or are left to be written.** A frame that is accepted behind an order to
close is counted and never written, also when the writer has ended; and a frame whose sender is stopped while it waits
for a place is counted though it was never accepted. Nobody sends any more in either case. -/
theorem not_countedExactly :
    let behind := (start (twoAtATime 2) nibbling).play [.deliver 1 (.parcel .close), .sendByte 2 7, .write, .write]
    let stopped := (start (twoAtATime 1) nibbling).play
      ([.sendByte 1 7, .sendByte 2 8, .abort 2] ++ List.replicate 4 .write)
    (behind.senders.isEmpty = true ∧ behind.outbound?.any (·.isAtRest) = true ∧
      behind.accepted = [.close, .frame (byteFrame 7)] ∧ behind.flushed = [] ∧
      behind.outbound?.map (·.transport.output) = some [] ∧ behind.outbound?.map (·.queue.pending) = some 1) ∧
    (stopped.senders.isEmpty = true ∧ stopped.outbound?.any (·.isAtRest) = true ∧
      stopped.accepted = [.frame (byteFrame 7)] ∧ stopped.flushed = [byteFrame 7] ∧
      stopped.underway + stopped.outstanding.length = 0 ∧ stopped.outbound?.map (·.queue.pending) = some 1) := by
  decide +kernel

end Traffic

end GraphServer
