import GraphServer.Proofs.System.Affairs
import GraphServer.Proofs.System.Outcomes

/-!
What becomes of something that is sent.

* `Affairs.Mails`: it is put into the queue of the channel, its sender waits with it, or it is refused;
* `Affairs.Answers`: the last response to a request, which is sent off unless one was before;
* `Affairs.Interrupts`: the last response to the request in flight, whose handler is stopped.
-/

namespace GraphServer

/-! ### Relations -/

namespace Affairs

/-- What becomes of something that is sent over a channel. -/
inductive Mails (c : ChannelId) (a : Affairs) (m : Option Sent) : Affairs → Transit → Prop
  | put : Mails c a m (a.put m) (.done (.ok ()))
  | held (h : Handover) (channel : h.channel = c) (meaning : h.parcel.meaning = m) : Mails c a m a (.waiting h)
  | refused (e : Error) : Mails c a m a (.done (.error e))

/-- The last response for a context is sent off, unless one was. -/
inductive Answers (c : ChannelId) (a : Affairs) (k : ContextId) (r : Uuid → Response) : Affairs → Transit → Prop
  | already {x : TaskContext} (known : a.contexts[k]? = some x) (finished : x.finished = true) :
    Answers c a k r a (.done (.ok ()))
  | first {x : TaskContext} {a' : Affairs} {t : Transit} (known : a.contexts[k]? = some x)
    (open_ : x.finished = false) (mails : Mails c (a.conclude k) (some (.response (r x.request))) a' t) :
    Answers c a k r a' t

/-- The task in flight is taken out of it. -/
def land (a : Affairs) : Affairs :=
  a.onSession fun x => { x with inFlight := none }

/-- The handler of the task in flight, if there is one, is stopped and answered for. -/
inductive Interrupts (c : ChannelId) (a : Affairs) (elapsed : Nat) (ofSession : Bool) :
    Affairs → Transit → Prop
  | nobody (idle : a.session.inFlight = none) : Interrupts c a elapsed ofSession a (.done (.ok ()))
  | somebody {f : InFlight} {a' : Affairs} {t : Transit} (busy : a.session.inFlight = some f)
    (answers : Answers c (a.land.stop f.handler) f.context (System.timeoutResponse elapsed ofSession) a' t) :
    Interrupts c a elapsed ofSession a' t

/-- The channel is closed after everything that was sent, unless it was closed before. -/
inductive Closes (c : ChannelId) (a : Affairs) : Affairs → Transit → Prop
  | already (closed : a.closed = true) : Closes c a a (.done (.ok ()))
  | first {a' : Affairs} {t : Transit} (notClosed : a.closed = false)
    (mails : Mails c { a with closed := true } (some .close) a' t) : Closes c a a' t

end Affairs

namespace System.Shows

open Affairs

variable {s : System} {i : SessionId} {c : ChannelId} {a : Affairs} {p : ProcessId}

/-! ### Sending -/

lemma count (h : s.Shows i c a) (parcel : Parcel) : (s.count c parcel).Shows i c a := by
  rw [System.count]
  split
  · exact h.onOutbound _ fun x => ⟨rfl, rfl⟩
  · exact h

lemma uncount (h : s.Shows i c a) (parcel : Parcel) : (s.uncount c parcel).Shows i c a := by
  rw [System.uncount]
  split
  · exact h.onOutbound _ fun x => ⟨rfl, rfl⟩
  · exact h

lemma ask (h : s.Shows i c a) (parcel : Parcel) (question : OutboundQueue → OutboundQueue.Entry) :
    ∃ a', (s.ask c parcel question).1.Shows i c a' ∧
      a.Mails c parcel.meaning a' (s.ask c parcel question).2 := by
  obtain ⟨x, hx, -, -⟩ := h.channel
  rw [System.ask, hx]
  cases hq : question x.outbound.queue with
  | refused =>
    simp only [hq]
    exact ⟨a, h.uncount parcel, .refused _⟩
  | stored q =>
    simp only [hq]
    refine ⟨a.put parcel.meaning, wakeReceiver ?_ c, .put⟩
    exact h.spend.onChannel _ rfl rfl rfl rfl fun x hclosed hsent => ⟨hclosed, congrArg (· ++ _) hsent⟩
  | queued q =>
    simp only [hq]
    exact ⟨a, h.onOutbound _ fun x => ⟨rfl, rfl⟩, .held _ rfl rfl⟩

lemma press (h : s.Shows i c a) (p : ProcessId) (parcel : Parcel) (since : Nat) :
    ∃ a', (s.press p c parcel since).1.Shows i c a' ∧
      a.Mails c parcel.meaning a' (s.press p c parcel since).2 := by
  obtain ⟨x, hx, -, -⟩ := h.channel
  rw [System.press, hx]
  dsimp only
  split
  · split
    · exact ⟨a, h, .refused _⟩
    · exact ⟨a, h, .held _ rfl rfl⟩
  · exact (h.count parcel).ask parcel _

lemma send (h : s.Shows i c a) (p : ProcessId) (parcel : Parcel) :
    ∃ a', (s.send p c parcel).1.Shows i c a' ∧ a.Mails c parcel.meaning a' (s.send p c parcel).2 :=
  h.press p parcel s.wall

lemma resume (h : s.Shows i c a) (p : ProcessId) {x : Handover} (hc : x.channel = c) :
    ∃ a', (s.resume p x).1.Shows i c a' ∧ a.Mails c x.parcel.meaning a' (s.resume p x).2 := by
  obtain ⟨channel, parcel, stage⟩ := x
  cases hc
  cases stage with
  | queued => exact h.ask parcel _
  | pressed since due =>
    rw [System.resume]
    dsimp only
    cases hs : s.spendAt? due with
    | none => exact ⟨a, h, .held _ rfl rfl⟩
    | some s' => exact (h.of_spendAt? hs).press p parcel since

lemma giveUp (h : s.Shows i c a) (p : ProcessId) {x : Handover} (hc : x.channel = c) :
    (s.giveUp p x).Shows i c a := by
  obtain ⟨channel, parcel, stage⟩ := x
  cases hc
  rw [System.giveUp]
  split
  next x _ _ =>
    exact (h.onOutbound (fun y => y.withQueue (x.outbound.queue.leave p).1) fun y => ⟨rfl, rfl⟩).wakeAll _
  next => exact h

lemma sendResponse (h : s.Shows i c a) (p : ProcessId) (r : Response) :
    ∃ a', (s.sendResponse p c r).1.Shows i c a' ∧
      a.Mails c (some (.response r)) a' (s.sendResponse p c r).2 := by
  obtain ⟨x, hx, -, -⟩ := h.channel
  rw [System.sendResponse, hx]
  dsimp only
  split
  · exact ⟨a, h, .refused _⟩
  · split
    · exact ⟨a, h, .refused _⟩
    · exact h.send p _

lemma closeChannel (h : s.Shows i c a) (p : ProcessId) :
    ∃ a', (s.closeChannel p c).1.Shows i c a' ∧ a.Closes c a' (s.closeChannel p c).2 := by
  obtain ⟨x, hx, hclosed, -⟩ := h.channel
  rw [System.closeChannel, hx]
  dsimp only
  rw [hclosed]
  cases ha : a.closed with
  | true => exact ⟨a, h, .already ha⟩
  | false =>
    have hshows : (s.onChannel c fun x => { x with closed := true }).Shows i c { a with closed := true } :=
      h.onChannel _ rfl rfl rfl rfl fun _ _ hsent => ⟨rfl, hsent⟩
    obtain ⟨a', hs, hm⟩ := hshows.send p .close
    exact ⟨a', hs, .first ha hm⟩

/-! ### Responses -/

lemma sendFor (h : s.Shows i c a) (p : ProcessId) {x : TaskContext} (hc : x.channel = some c) (r : Response) :
    ∃ a', (s.sendFor p x r).1.Shows i c a' ∧ a.Mails c (some (.response r)) a' (s.sendFor p x r).2 := by
  rw [System.sendFor, hc]
  exact h.sendResponse p r

lemma tryFinish (h : s.Shows i c a) (p : ProcessId) {k : ContextId} {x : TaskContext}
    (hk : a.contexts[k]? = some x) (hc : x.channel = some c) (r : Uuid → Response) :
    ∃ a', (s.tryFinish p k r).1.Shows i c a' ∧ a.Answers c k r a' (s.tryFinish p k r).2 := by
  have stands : s.contexts[k]? = some x := h.contexts ▸ hk
  have outcome := s.tryFinish_outcome p k r
  generalize s.tryFinish p k r = z at outcome ⊢
  cases outcome with
  | strays unknown => cases stands.symm.trans unknown
  | late known finished =>
    cases stands.symm.trans known
    exact ⟨a, h, .already hk finished⟩
  | concludes known unfinished =>
    cases stands.symm.trans known
    obtain ⟨a', hs, hm⟩ := (h.onContext k).sendFor p hc (r x.request)
    exact ⟨a', hs, .first hk unfinished hm⟩

lemma replyTimeout (h : s.Shows i c a) (p : ProcessId) {k : ContextId} {x : TaskContext}
    (hk : a.contexts[k]? = some x) (hc : x.channel = some c) (elapsed : Nat) (ofSession : Bool) :
    ∃ a', (s.replyTimeout p k elapsed ofSession).1.Shows i c a' ∧
      a.Answers c k (timeoutResponse elapsed ofSession) a' (s.replyTimeout p k elapsed ofSession).2 :=
  h.tryFinish p hk hc _

lemma interrupt (h : s.Shows i c a) (p : ProcessId) (elapsed : Nat) (ofSession : Bool)
    (hk : ∀ f, a.session.inFlight = some f → ∃ x, a.contexts[f.context]? = some x ∧ x.channel = some c) :
    ∃ a', (s.interrupt p i elapsed ofSession).1.Shows i c a' ∧
      a.Interrupts c elapsed ofSession a' (s.interrupt p i elapsed ofSession).2 := by
  have outcome := s.interrupt_outcome p i elapsed ofSession
  generalize s.interrupt p i elapsed ofSession = z at outcome ⊢
  cases outcome with
  | rests idle =>
    rw [h.session, Option.bind_some] at idle
    exact ⟨a, h, .nobody idle⟩
  | @stops y f known hf =>
    obtain rfl : y = a.session := Option.some.inj (known.symm.trans h.session)
    obtain ⟨x, hx, hc⟩ := hk f hf
    have hland : (s.onSession i fun x => { x with inFlight := none }).Shows i c a.land := h.onSession _ rfl
    have hstop := hland.abort f.handler
    have hcontexts : (a.land.stop f.handler).contexts = a.contexts := by
      rw [stop]
      split <;> rfl
    obtain ⟨a', hs, ha⟩ := hstop.replyTimeout p (hcontexts ▸ hx) hc elapsed ofSession
    exact ⟨a', hs, .somebody hf ha⟩

end System.Shows

end GraphServer
