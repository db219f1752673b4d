import GraphServer.Outbound.Writer
import GraphServer.Proofs.Buffer.Flat
import GraphServer.Proofs.Frame.Exchange

/-!
What a writer writes over a transport that takes something of every offer.

* `OutboundQueue.Grows.ofMove`: those who hold a handle put messages at the end of the queue, as long as it is open;
* `Outbound.takeBatch_splits`: a batch is what comes first in the queue;
* `Outbound.Stands.next`: what was written, what the writer holds and what lies in the queue before an order to
  close are at any time what was put into the queue before it;
* `Outbound.exists_step_eq_none`: a writer that nobody gives anything to do comes to rest;
* `Outbound.emitsQueued`: **a writer writes all frames before the order to close in their order, and nothing else**.
-/

namespace GraphServer

/-! ### Messages before an order to close -/

namespace Outgoing

/-- The frames before the first order to close. -/
def framesAhead (messages : List Outgoing) : List OutboundFrame :=
  frames (messages.takeWhile (· ≠ .close))

/-- The bytes of the frames before the first order to close. -/
def wire (messages : List Outgoing) : Bytes :=
  (framesAhead messages).flatMap OutboundFrame.bytes

@[simp] lemma framesAhead_nil : framesAhead [] = [] := rfl

@[simp] lemma framesAhead_close (messages : List Outgoing) : framesAhead (.close :: messages) = [] := by
  rw [framesAhead, List.takeWhile_cons_of_neg (by simp)]
  rfl

@[simp] lemma framesAhead_frame (f : OutboundFrame) (messages : List Outgoing) :
    framesAhead (.frame f :: messages) = f :: framesAhead messages := by
  rw [framesAhead, List.takeWhile_cons_of_pos (by simp)]
  rfl

/-- What comes after an order to close does not count. -/
lemma framesAhead_append (messages later : List Outgoing) :
    framesAhead (messages ++ later) = framesAhead messages ++ if .close ∈ messages then [] else framesAhead later := by
  induction messages with
  | nil => simp
  | cons m messages ih => cases m <;> simp [ih]

lemma wire_append (messages later : List Outgoing) :
    wire (messages ++ later) = wire messages ++ if .close ∈ messages then [] else wire later := by
  rw [wire, framesAhead_append, List.flatMap_append]
  split <;> rfl

lemma wire_frames (frames : List OutboundFrame) : wire (frames.map .frame) = frames.flatMap OutboundFrame.bytes := by
  induction frames with
  | nil => rfl
  | cons f frames ih => rw [wire] at *; simp [ih]

lemma close_notMem_frames (frames : List OutboundFrame) : .close ∉ frames.map Outgoing.frame := by
  simp

end Outgoing

/-! ### The holders of handles -/

namespace OutboundQueue

/-- What those who hold a handle do to a queue. -/
inductive Move where
  /-- A sender asks for a place for its message. -/
  | enter (s : SenderId) (m : Outgoing)
  /-- A sender asks for a place that it fills later. -/
  | reserve (s : SenderId)
  /-- A sender that waited asks again. -/
  | resume (s : SenderId) (m : Outgoing)
  /-- A sender stops waiting. -/
  | leave (s : SenderId)
  /-- A frame is sent if that needs no waiting. -/
  | trySend (f : OutboundFrame)
  /-- One more frame is on its way. -/
  | count
  /-- Frames are no longer on their way. -/
  | discount (n : Nat)
  /-- The last handle is dropped. -/
  | abandon

/-- The queue after someone asked for a place. -/
def Entry.queue (q : OutboundQueue) : Entry → OutboundQueue
  | .refused => q
  | .stored q => q
  | .queued q => q

/-- What was put into the queue, if someone asked for a place for a message. -/
def Entry.put (m : Outgoing) : Entry → List Outgoing
  | .refused => []
  | .stored _ => [m]
  | .queued _ => []

/-- The queue after a move, and what was put into it. -/
def move (q : OutboundQueue) : Move → OutboundQueue × List Outgoing
  | .enter s m => ((q.enter s m).queue q, (q.enter s m).put m)
  | .reserve s => ((q.reserve s).queue q, [])
  | .resume s m => ((q.resume s m).queue q, (q.resume s m).put m)
  | .leave s => ((q.leave s).1, [])
  | .trySend f =>
    match q.trySend f with
    | .ok q => (q, [.frame f])
    | .error _ => (q, [])
  | .count => (q.count, [])
  | .discount n => (q.discount n, [])
  | .abandon => ({ q with abandoned := true }, [])

/-- How a queue comes out of a move that puts messages into it: they are its last ones, and there are none if it is
closed. -/
structure Grows (q q' : OutboundQueue) (put : List Outgoing) : Prop where
  messages : q'.messages = q.messages ++ put
  closed : q'.closed = q.closed
  abandoned : q.abandoned = true → q'.abandoned = true
  refused : q.closed = true → put = []

lemma Grows.idle {q q' : OutboundQueue} (messages : q'.messages = q.messages) (closed : q'.closed = q.closed)
    (abandoned : q.abandoned = true → q'.abandoned = true) : q.Grows q' [] :=
  ⟨by rw [messages, List.append_nil], closed, abandoned, fun _ => rfl⟩

lemma grant_messages (q : OutboundQueue) : q.grant.1.messages = q.messages := by
  rw [grant]
  split <;> rfl

lemma grant_closed (q : OutboundQueue) : q.grant.1.closed = q.closed := by
  rw [grant]
  split <;> rfl

lemma grant_abandoned (q : OutboundQueue) : q.grant.1.abandoned = q.abandoned := by
  rw [grant]
  split <;> rfl

lemma Grows.enter (q : OutboundQueue) (s : SenderId) (m : Outgoing) :
    q.Grows ((q.enter s m).queue q) ((q.enter s m).put m) := by
  rw [OutboundQueue.enter]
  split
  next => exact .idle rfl rfl id
  next hopen =>
    split
    · exact ⟨rfl, rfl, id, fun hclosed => absurd hclosed hopen⟩
    · exact .idle rfl rfl id

lemma Grows.reserve (q : OutboundQueue) (s : SenderId) : q.Grows ((q.reserve s).queue q) [] := by
  rw [OutboundQueue.reserve]
  split
  · exact .idle rfl rfl id
  · split <;> exact .idle rfl rfl id

lemma Grows.resume (q : OutboundQueue) (s : SenderId) (m : Outgoing) :
    q.Grows ((q.resume s m).queue q) ((q.resume s m).put m) := by
  rw [OutboundQueue.resume]
  split
  next => exact .idle rfl rfl id
  next hopen =>
    split
    · exact ⟨rfl, rfl, id, fun hclosed => absurd hclosed hopen⟩
    · exact .idle rfl rfl id

lemma Grows.leave (q : OutboundQueue) (s : SenderId) : q.Grows (q.leave s).1 [] := by
  rw [OutboundQueue.leave]
  split
  · exact .idle (grant_messages _) (grant_closed _) fun h => (grant_abandoned _).trans h
  · exact .idle rfl rfl id

/-- A move puts messages at the end of the queue, and none if the queue is closed. -/
lemma Grows.ofMove (q : OutboundQueue) (a : Move) : q.Grows (q.move a).1 (q.move a).2 := by
  cases a with
  | enter s m => exact .enter q s m
  | reserve s => exact .reserve q s
  | resume s m => exact .resume q s m
  | leave s => exact .leave q s
  | trySend f =>
    rw [OutboundQueue.move, OutboundQueue.trySend]
    split
    next q' htry =>
      split at htry
      · cases htry
      · split at htry
        · cases htry
        · split at htry
          · cases htry
            exact ⟨rfl, rfl, id, fun hclosed => absurd hclosed ‹_›⟩
          · cases htry
    next => exact .idle rfl rfl id
  | count => exact .idle rfl rfl id
  | discount n => exact .idle rfl rfl id
  | abandon => exact .idle rfl rfl fun _ => rfl

end OutboundQueue

namespace Outbound

/-! ### Batches -/

/-- How a queue splits into a batch and the rest. -/
structure Batch.Splits (b : Batch) (limit : Nat) (q : OutboundQueue) : Prop where
  length_le : b.frames.length ≤ limit
  messages : q.messages = b.frames.map .frame ++ (if b.closing then [.close] else []) ++ b.queue.messages
  closed : b.queue.closed = q.closed
  abandoned : b.queue.abandoned = q.abandoned
  closing_of_nil : b.frames = [] → limit ≠ 0 → q.messages ≠ [] → b.closing = true

/-- A batch is what comes first in the queue. -/
lemma takeBatch_splits (limit : Nat) (q : OutboundQueue) : (takeBatch limit q).Splits limit q := by
  induction limit generalizing q with
  | zero => exact ⟨Nat.le_refl 0, rfl, rfl, rfl, fun _ h => absurd rfl h⟩
  | succ limit ih =>
    rw [takeBatch]
    cases hmessages : q.messages with
    | nil =>
      have hreceive : q.receive = none := by rw [OutboundQueue.receive, hmessages]
      rw [hreceive]
      exact ⟨Nat.zero_le _, rfl, rfl, rfl, fun _ _ h => absurd hmessages h⟩
    | cons m rest =>
      have hreceive : q.receive = some (m, { q with messages := rest }.grant) := by rw [OutboundQueue.receive, hmessages]
      have hrest := OutboundQueue.grant_messages { q with messages := rest }
      have hclosed := OutboundQueue.grant_closed { q with messages := rest }
      have habandoned := OutboundQueue.grant_abandoned { q with messages := rest }
      rw [hreceive]
      cases m with
      | close =>
        refine ⟨Nat.zero_le _, ?_, hclosed, habandoned, fun _ _ _ => rfl⟩
        rw [hmessages]
        exact congrArg (Outgoing.close :: ·) hrest.symm
      | frame f =>
        have hb := ih { q with messages := rest }.grant.1
        refine ⟨Nat.succ_le_succ hb.length_le, ?_, hb.closed.trans hclosed, hb.abandoned.trans habandoned,
          fun hnil => absurd hnil (List.cons_ne_nil _ _)⟩
        rw [hmessages]
        exact congrArg (Outgoing.frame f :: ·) (hrest.symm.trans hb.messages)

/-! ### Histories -/

/-- What happens to a way out. -/
inductive Move where
  /-- Someone who holds a handle does something. -/
  | handle (a : OutboundQueue.Move)
  /-- The transport begins or ends to let the writer wait. -/
  | stall (stalled : Bool)
  /-- The writer goes a step, unless it has to wait or has ended. -/
  | step

/-- A way out and all messages that were put into its queue, in order. -/
structure Story where
  outbound : Outbound
  queued : List Outgoing := []

namespace Story

/-- The story of a new way out. -/
def start (settings : WriterSettings) (sink : Sink) : Story where
  outbound := { queue := { settings }, transport := { sink } }

/-- A story with one move more. -/
def next (s : Story) : Move → Story
  | .handle a =>
    ⟨{ s.outbound with queue := (s.outbound.queue.move a).1 }, s.queued ++ (s.outbound.queue.move a).2⟩
  | .stall stalled =>
    { s with outbound := { s.outbound with transport := { s.outbound.transport with stalled } } }
  | .step =>
    match s.outbound.step with
    | some (outbound, _) => { s with outbound }
    | none => s

/-- A story with several moves more. -/
def after (s : Story) (moves : List Move) : Story :=
  moves.foldl next s

end Story

/-! ### What the writer has in hand -/

/-- The bytes that the writer has taken out of the queue and not yet written. -/
def inHand (o : Outbound) : Bytes :=
  match o.phase with
  | .writing rest _ _ => rest.bytes
  | _ => []

/-- Whether the writer has taken an order to close. -/
def wasClosed (o : Outbound) : Bool :=
  match o.phase with
  | .receiving => false
  | .writing _ _ closing => closing
  | .closing => true
  | .ended _ => o.transport.isShut

/-- The transport never fails and takes a byte of every offer. -/
structure Reliable (o : Outbound) : Prop where
  willing : o.transport.sink.Willing
  flushes : o.transport.flushFault = none
  shuts : o.transport.shutdownFault = none

/-- How a way out stands to what was put into its queue: that is what was written, what the writer has in hand and
what lies in the queue, up to an order to close. -/
structure Stands (o : Outbound) (queued : List Outgoing) : Prop where
  reliable : o.Reliable
  written : o.transport.output ++ (o.inHand ++ if o.wasClosed then [] else Outgoing.wire o.queue.messages) =
    Outgoing.wire queued
  ordered : .close ∈ queued ↔ .close ∈ o.queue.messages ∨ o.wasClosed = true
  batch_le : ∀ rest frames closing, o.phase = .writing rest frames closing → frames ≤ batchLimit
  shut : o.transport.isShut = true → ∃ result, o.phase = .ended result
  closed : o.queue.closed = true ↔ ∃ result, o.phase = .ended result
  ended : ∀ result, o.phase = .ended result →
    result = .ok () ∧ o.queue.messages = [] ∧ (o.transport.isShut = true ∨ o.queue.abandoned = true)

/-! ### A step of the writer -/

/-- What a step of the writer over a reliable transport can be. -/
inductive Goes (o : Outbound) : Outbound → Prop
  /-- There is nothing left, and nobody who could send. -/
  | stops (phase : o.phase = .receiving) (messages : o.queue.messages = []) (abandoned : o.queue.abandoned = true) :
    Goes o (o.finish (.ok ())).1
  /-- A batch is taken, in which there are frames. -/
  | takes (phase : o.phase = .receiving) (b : Batch) (splits : b.Splits batchLimit o.queue) (frames : b.frames ≠ []) :
    Goes o { o with queue := b.queue, phase := .writing (.ofFrames b.frames) b.frames.length b.closing }
  /-- An order to close is taken and nothing else. -/
  | closes (phase : o.phase = .receiving) (b : Batch) (splits : b.Splits batchLimit o.queue) (frames : b.frames = [])
    (closing : b.closing = true) : Goes o { o with queue := b.queue, phase := .closing }
  /-- A batch was written. -/
  | flushes {rest : Unwritten} {frames : Nat} {closing : Bool} (phase : o.phase = .writing rest frames closing)
    (empty : rest.bytes = []) : Goes o { o with queue := o.queue.discount frames, phase := afterBatch closing }
  /-- Some bytes of a batch are written. -/
  | writes {rest : Unwritten} {frames : Nat} {closing : Bool} (phase : o.phase = .writing rest frames closing)
    (left : rest.bytes ≠ []) {t : Transport} (n : Nat)
    (output : t.output = o.transport.output ++ rest.bytes.take (n + 1)) (sink : t.sink = o.transport.sink)
    (flushFault : t.flushFault = o.transport.flushFault) (shutdownFault : t.shutdownFault = o.transport.shutdownFault)
    (stalled : t.stalled = o.transport.stalled) (isShut : t.isShut = o.transport.isShut) :
    Goes o { o with transport := t, phase := .writing (rest.advance (n + 1)) frames closing }
  /-- The transport is shut down. -/
  | shuts (phase : o.phase = .closing) :
    Goes o ({ o with transport := { o.transport with isShut := true } }.finish (.ok ())).1

/-- A willing transport takes something. -/
lemma Reliable.write {o : Outbound} (h : o.Reliable) {bytes : Bytes} (left : bytes ≠ []) :
    ∃ t n, o.transport.write bytes = .ok (t, n + 1) ∧ t.output = o.transport.output ++ bytes.take (n + 1) ∧
      t.sink = o.transport.sink ∧ t.flushFault = o.transport.flushFault ∧
      t.shutdownFault = o.transport.shutdownFault ∧ t.stalled = o.transport.stalled ∧ t.isShut = o.transport.isShut := by
  obtain ⟨n, hn⟩ := h.willing o.transport.output bytes left
  exact ⟨{ o.transport with
      output := o.transport.output ++ bytes.take (n + 1)
      writes := o.transport.writes ++ [min (n + 1) bytes.length] },
    n, by rw [Transport.write, hn]; rfl, rfl, rfl, rfl, rfl, rfl, rfl⟩

lemma Reliable.shutdown {o : Outbound} (h : o.Reliable) :
    o.transport.shutdown = .ok { o.transport with isShut := true } := by
  rw [Transport.shutdown]
  split
  next hfault =>
    rw [h.shuts] at hfault
    cases hfault
  next => rfl

/-- A step of the writer over a reliable transport. -/
lemma Goes.ofStep {o o' : Outbound} {woken : List SenderId} (h : o.Reliable) (step : o.step = some (o', woken)) :
    o.Goes o' := by
  rw [Outbound.step] at step
  cases hphase : o.phase with
  | receiving =>
    rw [hphase] at step
    dsimp only at step
    split at step
    next hempty =>
      split at step
      next habandoned =>
        cases step
        exact .stops hphase (List.isEmpty_iff.mp hempty) habandoned
      next => cases step
    next hne =>
      have hsplits := takeBatch_splits batchLimit o.queue
      cases step
      split
      next hnil =>
        have hframes := List.isEmpty_iff.mp hnil
        exact .closes hphase _ hsplits hframes (hsplits.closing_of_nil hframes (by decide) (by simpa using hne))
      next hframes => exact .takes hphase _ hsplits (by simpa using hframes)
  | writing rest frames closing =>
    rw [hphase] at step
    dsimp only at step
    split at step
    next hempty =>
      rw [Transport.flush, h.flushes] at step
      cases step
      exact .flushes hphase (Unwritten.bytes_eq_nil_of_isEmpty hempty)
    next hleft =>
      split at step
      next => cases step
      next =>
        have hne := Unwritten.bytes_ne_nil hleft
        obtain ⟨t, n, hwrite, houtput, hsink, hflush, hshutdown, hstalled, hshut⟩ := h.write hne
        rw [hwrite] at step
        cases step
        exact .writes hphase hne n houtput hsink hflush hshutdown hstalled hshut
  | closing =>
    rw [hphase] at step
    dsimp only at step
    rw [h.shutdown] at step
    cases step
    exact .shuts hphase
  | ended result =>
    rw [hphase] at step
    cases step

/-! ### What a step preserves -/

namespace Stands

variable {o o' : Outbound} {queued : List Outgoing}

lemma start (settings : WriterSettings) {sink : Sink} (willing : sink.Willing) :
    (Story.start settings sink).outbound.Stands (Story.start settings sink).queued where
  reliable := ⟨willing, rfl, rfl⟩
  written := rfl
  ordered := by simp [Story.start, wasClosed]
  batch_le _ _ _ hphase := by cases hphase
  shut hshut := by cases hshut
  closed := by
    constructor
    · intro hclosed
      cases hclosed
    · rintro ⟨result, hphase⟩
      cases hphase
  ended result hphase := by cases hphase

/-- Messages that are put into the queue are written as long as no order to close was put into it. -/
lemma grows (h : o.Stands queued) {q : OutboundQueue} {put : List Outgoing} (grows : o.queue.Grows q put) :
    { o with queue := q }.Stands (queued ++ put) where
  reliable := ⟨h.reliable.willing, h.reliable.flushes, h.reliable.shuts⟩
  written := by
    change o.transport.output ++ (o.inHand ++ if o.wasClosed then [] else Outgoing.wire q.messages) = _
    rw [grows.messages, Outgoing.wire_append, Outgoing.wire_append, ← h.written]
    by_cases hclosed : o.wasClosed = true
    · rw [if_pos hclosed, if_pos hclosed, if_pos (h.ordered.mpr (.inr hclosed)), List.append_nil, List.append_nil]
    · rw [if_neg hclosed, if_neg hclosed, if_congr (h.ordered.trans (or_iff_left hclosed)) rfl rfl,
        List.append_assoc, List.append_assoc]
  ordered := by
    change _ ↔ .close ∈ q.messages ∨ o.wasClosed = true
    rw [grows.messages, List.mem_append, List.mem_append, h.ordered]
    tauto
  batch_le := h.batch_le
  shut := h.shut
  closed := by
    rw [← h.closed]
    exact Iff.of_eq (congrArg (· = true) grows.closed)
  ended result hphase := by
    obtain ⟨hresult, hmessages, hwhy⟩ := h.ended result hphase
    refine ⟨hresult, ?_, hwhy.imp_right grows.abandoned⟩
    rw [grows.messages, hmessages, grows.refused (h.closed.mpr ⟨result, hphase⟩)]
    rfl

/-- It makes no difference whether the transport lets the writer wait. -/
lemma stall (h : o.Stands queued) (stalled : Bool) :
    { o with transport := { o.transport with stalled } }.Stands queued where
  reliable := ⟨h.reliable.willing, h.reliable.flushes, h.reliable.shuts⟩
  written := h.written
  ordered := h.ordered
  batch_le := h.batch_le
  shut := h.shut
  closed := h.closed
  ended := h.ended

/-- A batch with the rest of the queue is what lay in the queue. -/
lemma batch_written (h : o.Stands queued) (phase : o.phase = .receiving) {b : Batch}
    (splits : b.Splits batchLimit o.queue) :
    o.transport.output ++ (b.frames.flatMap OutboundFrame.bytes ++
      if b.closing then [] else Outgoing.wire b.queue.messages) = Outgoing.wire queued := by
  have hwritten := h.written
  rw [inHand, wasClosed, phase, splits.messages, List.append_assoc, Outgoing.wire_append,
    if_neg (Outgoing.close_notMem_frames b.frames), Outgoing.wire_frames] at hwritten
  rw [← hwritten]
  cases b.closing with
  | true => simp [Outgoing.wire]
  | false => simp

lemma batch_ordered (h : o.Stands queued) (phase : o.phase = .receiving) {b : Batch}
    (splits : b.Splits batchLimit o.queue) : .close ∈ queued ↔ .close ∈ b.queue.messages ∨ b.closing = true := by
  rw [h.ordered, splits.messages, wasClosed, phase]
  cases b.closing <;> simp

lemma isShut_eq_false (h : o.Stands queued) (running : ∀ result, o.phase ≠ .ended result) :
    ¬ o.transport.isShut = true := fun hshut =>
  have ⟨result, hphase⟩ := h.shut hshut
  running result hphase

lemma closed_eq_false (h : o.Stands queued) (running : ∀ result, o.phase ≠ .ended result) :
    ¬ o.queue.closed = true := fun hclosed =>
  have ⟨result, hphase⟩ := h.closed.mp hclosed
  running result hphase

/-- A writer that goes on has to account for what was written and what is left. -/
lemma running (h : o.Stands queued) (before : ∀ result, o.phase ≠ .ended result)
    (after : ∀ result, o'.phase ≠ .ended result) (reliable : o'.Reliable)
    (isShut : o'.transport.isShut = o.transport.isShut) (closed : o'.queue.closed = o.queue.closed)
    (written : o'.transport.output ++ (o'.inHand ++ if o'.wasClosed then [] else Outgoing.wire o'.queue.messages) =
      Outgoing.wire queued)
    (ordered : .close ∈ queued ↔ .close ∈ o'.queue.messages ∨ o'.wasClosed = true)
    (batch_le : ∀ rest frames closing, o'.phase = .writing rest frames closing → frames ≤ batchLimit) :
    o'.Stands queued where
  reliable := reliable
  written := written
  ordered := ordered
  batch_le := batch_le
  shut hshut := absurd (isShut ▸ hshut) (h.isShut_eq_false before)
  closed := by
    constructor
    · intro hclosed
      exact absurd (closed ▸ hclosed) (h.closed_eq_false before)
    · rintro ⟨result, hphase⟩
      exact absurd hphase (after result)
  ended result hphase := absurd hphase (after result)

/-- The writer takes a batch out of the queue. -/
lemma takes (h : o.Stands queued) (phase : o.phase = .receiving) {b : Batch} (splits : b.Splits batchLimit o.queue) :
    { o with queue := b.queue, phase := .writing (.ofFrames b.frames) b.frames.length b.closing }.Stands queued := by
  refine h.running (fun result hp => ?_) (fun result hp => ?_)
    ⟨h.reliable.willing, h.reliable.flushes, h.reliable.shuts⟩ rfl splits.closed ?_ (h.batch_ordered phase splits)
    fun rest n closing hp => ?_
  · cases phase.symm.trans hp
  · cases hp
  · change o.transport.output ++ ((Unwritten.ofFrames b.frames).bytes ++ _) = _
    rw [Unwritten.bytes_ofFrames]
    exact h.batch_written phase splits
  · cases hp
    exact splits.length_le

/-- The writer takes an order to close and nothing else. -/
lemma closes (h : o.Stands queued) (phase : o.phase = .receiving) {b : Batch} (splits : b.Splits batchLimit o.queue)
    (frames : b.frames = []) (closing : b.closing = true) :
    { o with queue := b.queue, phase := .closing }.Stands queued := by
  have hwritten := h.batch_written phase splits
  have hordered := h.batch_ordered phase splits
  rw [closing] at hwritten hordered
  rw [frames] at hwritten
  refine h.running (fun result hp => ?_) (fun result hp => ?_)
    ⟨h.reliable.willing, h.reliable.flushes, h.reliable.shuts⟩ rfl splits.closed hwritten hordered
    fun rest n closing hp => ?_
  · cases phase.symm.trans hp
  · cases hp
  · cases hp

/-- The writer is done with a batch. -/
lemma flushes (h : o.Stands queued) {rest : Unwritten} {frames : Nat} {closing : Bool}
    (phase : o.phase = .writing rest frames closing) (empty : rest.bytes = []) :
    { o with queue := o.queue.discount frames, phase := afterBatch closing }.Stands queued := by
  have hwritten := h.written
  have hordered := h.ordered
  rw [inHand, wasClosed, phase] at hwritten
  rw [wasClosed, phase] at hordered
  dsimp only at hwritten hordered
  rw [empty] at hwritten
  -- the phase after the batch depends on whether an order to close ended it
  cases closing <;>
    exact h.running (fun _ hp => by cases phase.symm.trans hp) (fun _ hp => by cases hp)
      ⟨h.reliable.willing, h.reliable.flushes, h.reliable.shuts⟩ rfl rfl hwritten hordered fun _ _ _ hp => by cases hp

/-- The transport takes some bytes of a batch. -/
lemma writes (h : o.Stands queued) {rest : Unwritten} {frames : Nat} {closing : Bool}
    (phase : o.phase = .writing rest frames closing) {t : Transport} (n : Nat)
    (reliable : Reliable { o with transport := t }) (output : t.output = o.transport.output ++ rest.bytes.take (n + 1))
    (isShut : t.isShut = o.transport.isShut) :
    { o with transport := t, phase := .writing (rest.advance (n + 1)) frames closing }.Stands queued := by
  have hwritten := h.written
  have hordered := h.ordered
  rw [inHand, wasClosed, phase] at hwritten
  rw [wasClosed, phase] at hordered
  refine h.running (fun result hp => ?_) (fun result hp => ?_) ⟨reliable.willing, reliable.flushes, reliable.shuts⟩
    isShut rfl ?_ hordered fun rest' frames' closing' hp => ?_
  · cases phase.symm.trans hp
  · cases hp
  · change t.output ++ ((rest.advance (n + 1)).bytes ++ _) = _
    rw [output, Unwritten.bytes_advance, List.append_assoc, ← List.append_assoc (rest.bytes.take _),
      List.take_append_drop]
    exact hwritten
  · cases hp
    exact h.batch_le _ _ _ phase

/-- What a step of the writer preserves. -/
lemma goes (h : o.Stands queued) (goes : o.Goes o') : o'.Stands queued := by
  have hreliable := h.reliable
  cases goes with
  | stops phase messages abandoned =>
    have hshut := h.isShut_eq_false fun result hp => by cases phase.symm.trans hp
    refine ⟨⟨hreliable.willing, hreliable.flushes, hreliable.shuts⟩, ?_, ?_, fun _ _ _ hp => (by cases hp),
      fun hs => absurd hs hshut, ⟨fun _ => ⟨_, rfl⟩, fun _ => rfl⟩, fun result hresult => ?_⟩
    · have hwritten := h.written
      rw [inHand, wasClosed, phase, messages] at hwritten
      rw [← hwritten]
      change o.transport.output ++ ([] ++ if o.transport.isShut then [] else []) = _
      rw [if_neg hshut]
      rfl
    · rw [h.ordered, wasClosed, phase, messages]
      change _ ↔ _ ∨ o.transport.isShut = true
      simp [hshut, finish, OutboundQueue.close]
    · cases hresult
      exact ⟨rfl, rfl, .inr abandoned⟩
  | takes phase b splits frames => exact h.takes phase splits
  | closes phase b splits frames closing => exact h.closes phase splits frames closing
  | flushes phase empty => exact h.flushes phase empty
  | writes phase left n output sink flushFault shutdownFault stalled isShut =>
    refine h.writes phase n ⟨?_, flushFault.trans hreliable.flushes, shutdownFault.trans hreliable.shuts⟩ output isShut
    rw [sink]
    exact hreliable.willing
  | shuts phase =>
    refine ⟨⟨hreliable.willing, hreliable.flushes, hreliable.shuts⟩, ?_, ?_, fun _ _ _ hp => (by cases hp),
      fun _ => ⟨_, rfl⟩, ⟨fun _ => ⟨_, rfl⟩, fun _ => rfl⟩, fun result hresult => ?_⟩
    · have hwritten := h.written
      rw [inHand, wasClosed, phase] at hwritten
      exact hwritten
    · rw [h.ordered, wasClosed, phase]
      exact ⟨fun _ => .inr rfl, fun _ => .inr rfl⟩
    · cases hresult
      exact ⟨rfl, rfl, .inl rfl⟩

/-- What a move preserves. -/
lemma next {s : Story} (h : s.outbound.Stands s.queued) (move : Move) :
    (s.next move).outbound.Stands (s.next move).queued := by
  cases move with
  | handle a => exact h.grows (.ofMove s.outbound.queue a)
  | stall stalled => exact h.stall stalled
  | step =>
    rw [Story.next]
    split
    next hstep => exact h.goes (.ofStep h.reliable hstep)
    next => exact h

lemma after {s : Story} (h : s.outbound.Stands s.queued) (moves : List Move) :
    (s.after moves).outbound.Stands (s.after moves).queued := by
  induction moves generalizing s with
  | nil => exact h
  | cons move moves ih => exact ih (h.next move)

end Stands

/-! ### Coming to rest -/

/-- What a message costs the writer at most. -/
def toll : Outgoing → Nat
  | .frame f => f.bytes.length + 2
  | .close => 1

/-- What a phase costs the writer at most. -/
def due : WriterPhase → Nat
  | .receiving => 1
  | .writing rest _ _ => rest.bytes.length + 2
  | .closing => 1
  | .ended _ => 0

@[simp] lemma due_afterBatch (closing : Bool) : due (afterBatch closing) = 1 := by
  cases closing <;> rfl

/-- The most steps that a writer has before it, if it is given no more messages. -/
def load (o : Outbound) : Nat :=
  (o.queue.messages.map toll).sum + due o.phase

lemma Batch.Splits.toll_le {b : Batch} {limit : Nat} {q : OutboundQueue} (h : b.Splits limit q) :
    (b.queue.messages.map toll).sum + (b.frames.flatMap OutboundFrame.bytes).length + 2 * b.frames.length +
      (if b.closing then 1 else 0) = (q.messages.map toll).sum := by
  have hframes : ((b.frames.map Outgoing.frame).map toll).sum =
      (b.frames.flatMap OutboundFrame.bytes).length + 2 * b.frames.length := by
    induction b.frames with
    | nil => rfl
    | cons f frames ih =>
      rw [List.map_cons, List.map_cons, List.sum_cons, ih, List.flatMap_cons, List.length_append, List.length_cons, toll]
      omega
  rw [h.messages, List.map_append, List.map_append, List.sum_append, List.sum_append, hframes]
  cases b.closing <;> simp [toll] <;> omega

/-- Every step takes a writer nearer to rest. -/
lemma load_lt_of_goes {o o' : Outbound} (goes : o.Goes o') : o'.load < o.load := by
  cases goes with
  | stops phase messages abandoned =>
    rw [load, load, phase, messages]
    exact Nat.zero_lt_one
  | takes phase b splits frames =>
    have htoll := splits.toll_le
    have hlength := List.length_pos_of_ne_nil frames
    rw [load, load, phase]
    dsimp only [due]
    rw [Unwritten.bytes_ofFrames]
    omega
  | closes phase b splits frames closing =>
    have htoll := splits.toll_le
    rw [closing, if_pos rfl] at htoll
    rw [load, load, phase]
    dsimp only [due]
    omega
  | @flushes rest n closing phase empty =>
    rw [load, load, phase, due_afterBatch, due]
    exact Nat.add_lt_add_left (by omega) _
  | @writes rest frames closing phase left t n output sink flushFault shutdownFault stalled isShut =>
    have hlength := List.length_pos_of_ne_nil left
    rw [load, load, phase]
    dsimp only [due]
    rw [Unwritten.bytes_advance, List.length_drop]
    omega
  | shuts phase =>
    rw [load, load, phase]
    exact Nat.lt_of_lt_of_le Nat.zero_lt_one (Nat.le_add_left _ _)

/-- Steps change nothing but the way out, over a reliable transport not even whether it lets the writer wait or
somebody is left who could send. -/
lemma Goes.same {o o' : Outbound} (goes : o.Goes o') :
    o'.transport.stalled = o.transport.stalled ∧ o'.queue.abandoned = o.queue.abandoned := by
  cases goes with
  | stops => exact ⟨rfl, rfl⟩
  | takes _ b splits => exact ⟨rfl, splits.abandoned⟩
  | closes _ b splits => exact ⟨rfl, splits.abandoned⟩
  | flushes => exact ⟨rfl, rfl⟩
  | writes _ _ _ _ _ _ _ stalled => exact ⟨stalled, rfl⟩
  | shuts => exact ⟨rfl, rfl⟩

/-- A writer that nobody gives anything to do comes to rest. -/
lemma exists_step_eq_none {s : Story} (h : s.outbound.Stands s.queued) :
    ∃ n, let t := s.after (.replicate n .step)
      t.queued = s.queued ∧ t.outbound.step = none ∧ t.outbound.transport.stalled = s.outbound.transport.stalled ∧
        t.outbound.queue.abandoned = s.outbound.queue.abandoned := by
  induction hload : s.outbound.load using Nat.strong_induction_on generalizing s with
  | _ load ih =>
    cases hstep : s.outbound.step with
    | none => exact ⟨0, rfl, hstep, rfl, rfl⟩
    | some r =>
      have hgoes : s.outbound.Goes r.1 := .ofStep h.reliable hstep
      have hnext : s.next .step = { s with outbound := r.1 } := by
        rw [Story.next, hstep]
      obtain ⟨n, hqueued, hrest, hstalled, habandoned⟩ :=
        ih _ (hload ▸ load_lt_of_goes hgoes) (s := { s with outbound := r.1 }) (h.goes hgoes) rfl
      refine ⟨n + 1, ?_⟩
      rw [List.replicate_succ, Story.after, List.foldl_cons, hnext]
      exact ⟨hqueued, hrest, hstalled.trans hgoes.same.1, habandoned.trans hgoes.same.2⟩

/-- A writer at rest over a transport that lets it write waits for messages or has ended. -/
lemma rest_cases {o : Outbound} (h : o.Reliable) (awake : o.transport.stalled = false) (rest : o.step = none) :
    (o.phase = .receiving ∧ o.queue.messages = [] ∧ o.queue.abandoned = false) ∨ ∃ result, o.phase = .ended result := by
  rw [Outbound.step] at rest
  cases hphase : o.phase with
  | receiving =>
    rw [hphase] at rest
    dsimp only at rest
    split at rest
    next hempty =>
      split at rest
      next => cases rest
      next habandoned => exact .inl ⟨rfl, List.isEmpty_iff.mp hempty, Bool.eq_false_iff.mpr habandoned⟩
    next => cases rest
  | writing left frames closing =>
    rw [hphase] at rest
    dsimp only at rest
    split at rest
    next =>
      rw [Transport.flush, h.flushes] at rest
      cases rest
    next hleft =>
      obtain ⟨t, n, hwrite, -⟩ := h.write (Unwritten.bytes_ne_nil hleft)
      rw [awake, hwrite] at rest
      cases rest
  | closing =>
    rw [hphase] at rest
    dsimp only at rest
    rw [h.shutdown] at rest
    cases rest
  | ended result => exact .inr ⟨result, rfl⟩

lemma result?_eq_none_of_receiving {o : Outbound} (phase : o.phase = .receiving) : o.result? = none := by
  rw [result?, phase]

lemma result?_of_ended {o : Outbound} {result : Except Error Unit} (phase : o.phase = .ended result) :
    o.result? = some result := by
  rw [result?, phase]

/-! ### What is written -/

/-- What has been written of what was put into the queue: the frames before the first order to close are written
in order and nothing else, the transport is shut down after them if there was such an order and else never, and the
writer gets so far if it can go on. -/
structure Story.Emits (s : Story) : Prop where
  written : s.outbound.transport.output <+: Outgoing.wire s.queued
  batch_le : ∀ rest frames closing, s.outbound.phase = .writing rest frames closing → frames ≤ 64
  shut : s.outbound.transport.isShut = true →
    .close ∈ s.queued ∧ s.outbound.transport.output = Outgoing.wire s.queued
  ended : ∀ result, s.outbound.result? = some result →
    result = .ok () ∧ s.outbound.transport.output = Outgoing.wire s.queued ∧
      (s.outbound.transport.isShut = true ↔ .close ∈ s.queued) ∧
      (.close ∈ s.queued ∨ s.outbound.queue.abandoned = true)
  rests : ∃ n, let t := s.after (.stall false :: .replicate n .step)
    t.queued = s.queued ∧ t.outbound.step = none ∧ t.outbound.transport.output = Outgoing.wire s.queued ∧
      (t.outbound.transport.isShut = true ↔ .close ∈ s.queued) ∧
      (t.outbound.result? = some (.ok ()) ↔ .close ∈ s.queued ∨ s.outbound.queue.abandoned = true)
  arrives : (∀ f ∈ Outgoing.framesAhead s.queued, OutboundFrame.make f.body = .ok f) →
    ∀ maximum, (∀ f ∈ Outgoing.framesAhead s.queued, f.body.length ≤ maximum) →
      ∀ chunks : List Bytes, chunks.flatten = Outgoing.wire s.queued →
        ∃ yields : List (List Bytes), FrameSplitter.pushAll { maximum } chunks = (yields.map .ok, { maximum }) ∧
          yields.flatten = (Outgoing.framesAhead s.queued).map (·.body)

namespace Stands

variable {o : Outbound} {queued : List Outgoing}

lemma of_ended (h : o.Stands queued) {result : Except Error Unit} (phase : o.phase = .ended result) :
    o.transport.output = Outgoing.wire queued ∧ (o.transport.isShut = true ↔ .close ∈ queued) ∧
      (.close ∈ queued ∨ o.queue.abandoned = true) := by
  obtain ⟨-, hmessages, hwhy⟩ := h.ended result phase
  have hordered : .close ∈ queued ↔ o.transport.isShut = true := by
    rw [h.ordered, hmessages, wasClosed, phase]
    simp
  refine ⟨?_, hordered.symm, hwhy.imp_left hordered.mpr⟩
  rw [← h.written, inHand, wasClosed, phase, hmessages]
  simp [Outgoing.wire]

lemma of_receiving (h : o.Stands queued) (phase : o.phase = .receiving) (messages : o.queue.messages = []) :
    o.transport.output = Outgoing.wire queued ∧ .close ∉ queued ∧ ¬ o.transport.isShut = true := by
  refine ⟨?_, ?_, h.isShut_eq_false fun result => by rw [phase]; exact nofun⟩
  · rw [← h.written, inHand, wasClosed, phase, messages]
    simp [Outgoing.wire]
  · rw [h.ordered, messages, wasClosed, phase]
    simp

lemma emits {s : Story} (h : s.outbound.Stands s.queued) : s.Emits where
  written := ⟨_, h.written⟩
  batch_le := h.batch_le
  shut hshut := by
    obtain ⟨result, hphase⟩ := h.shut hshut
    obtain ⟨houtput, hiff, -⟩ := h.of_ended hphase
    exact ⟨hiff.mp hshut, houtput⟩
  ended result hresult := by
    rw [result?] at hresult
    split at hresult
    next hphase =>
      cases hresult
      exact ⟨(h.ended _ hphase).1, h.of_ended hphase⟩
    next => cases hresult
  rests := by
    have hstart : (s.next (.stall false)).outbound.Stands (s.next (.stall false)).queued := h.next (.stall false)
    obtain ⟨n, hqueued, hrest, hstalled, habandoned⟩ := exists_step_eq_none hstart
    have ht := hstart.after (.replicate n .step)
    refine ⟨n, hqueued, hrest, ?_⟩
    rw [hqueued] at ht
    change _ = s.outbound.queue.abandoned at habandoned
    rw [← habandoned]
    obtain ⟨hphase, hmessages, hheld⟩ | ⟨result, hphase⟩ := rest_cases ht.reliable hstalled hrest
    · obtain ⟨houtput, hclose, hshut⟩ := ht.of_receiving hphase hmessages
      refine ⟨houtput, iff_of_false hshut hclose, iff_of_false ?_ ?_⟩
      · exact fun hresult => nomatch (result?_eq_none_of_receiving hphase).symm.trans hresult
      · rw [hheld]
        exact fun hwhy => hwhy.elim hclose Bool.false_ne_true
    · obtain ⟨houtput, hiff, hwhy⟩ := ht.of_ended hphase
      refine ⟨houtput, hiff, iff_of_true ?_ hwhy⟩
      exact (result?_of_ended hphase).trans (congrArg some (ht.ended result hphase).1)
  arrives made maximum short chunks stream := FrameSplitter.pushAll_frames made short stream

end Stands

/-- A writer over a transport that never fails and takes something of every offer writes the frames that were put
into its queue before the first order to close, all of them and each once, in their order and in batches of at most
64; it writes nothing else, and shuts the transport down after them exactly if there was such an order. Hence they
are cut out of any chunks of what it writes. -/
theorem emitsQueued {sink : Sink} (willing : sink.Willing) (settings : WriterSettings) (moves : List Move) :
    ((Story.start settings sink).after moves).Emits :=
  ((Stands.start settings willing).after moves).emits

/-- Two frames, one of them put into the queue while the other is written, the order to close and a frame after it,
over a transport that takes at most three bytes at once. -/
theorem emits_untilClose :
    let sink : Sink := fun _ offered => .accepted (min 3 offered.length)
    let s := (Story.start {} sink).after [.handle (.enter 0 (.frame ⟨[0, 0, 0, 2], [7, 8]⟩)), .step, .step,
      .handle (.trySend ⟨[0, 0, 0, 0], []⟩), .handle (.enter 1 .close), .handle (.enter 2 (.frame ⟨[0, 0, 0, 1], [9]⟩))]
    sink.Willing ∧ ∃ n, let t := s.after (.stall false :: .replicate n .step)
      t.outbound.transport.output = [0, 0, 0, 2, 7, 8, 0, 0, 0, 0] ∧ t.outbound.transport.isShut = true := by
  have hwilling : Sink.Willing fun _ offered => .accepted (min 3 offered.length) := fun taken offered h =>
    have hlength := List.length_pos_of_ne_nil h
    ⟨min 3 offered.length - 1, congrArg SinkReply.accepted (by omega)⟩
  obtain ⟨n, -, -, houtput, hshut, -⟩ := (emitsQueued hwilling {}
    [.handle (.enter 0 (.frame ⟨[0, 0, 0, 2], [7, 8]⟩)), .step, .step, .handle (.trySend ⟨[0, 0, 0, 0], []⟩),
      .handle (.enter 1 .close), .handle (.enter 2 (.frame ⟨[0, 0, 0, 1], [9]⟩))]).rests
  exact ⟨hwilling, n, houtput.trans (by decide), hshut.mpr (by decide)⟩

end Outbound

end GraphServer
