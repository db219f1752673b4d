import GraphServer.Proofs.Server.Admitting
import GraphServer.Proofs.Server.Annals

/-!
Books about a connection: what is made of every message that arrives on it, and which answers are put into its queue.

* `Entry`: the body of a message that is handled, to which the server replies at once or which a session accepts;
* `Step.Delivers`: every answer that is sent in a step is in the queue at once;
* `Annals.Reckoned`: the answers in the queue are the replies and, for each context that is marked as answered, the one
  answer of its session;
* `Annals.Reckoned.record`: **a step that delivers keeps them so**.
-/

namespace GraphServer

open GraphServer.System

/-! ### Entries -/

/-- What is made of the body of a message. -/
inductive Account where
  /-- A reply is sent at once. -/
  | replied (r : Response)
  /-- A session accepts the request, which is answered for a context. -/
  | accepted (i : SessionId) (k : ContextId)

namespace Account

/-- The reply that is sent at once. -/
def reply? : Account → Option Response
  | replied r => some r
  | accepted .. => none

/-- The context for which the request is answered later. -/
def context? : Account → Option ContextId
  | replied _ => none
  | accepted _ k => some k

end Account

/-- The body of a message that is handled, and the server that handles it. -/
structure Entry where
  system : System
  channel : ChannelId
  body : Bytes

namespace Entry

/-- The server before a reply is sent, and what was made of the body. -/
def outcome (e : Entry) : System × Account :=
  match e.system.service.codec.decodeRequest e.body with
  | .error err => (e.system, .replied (unreadable err))
  | .ok request =>
    match e.system.route e.channel request with
    | (s, some r) => (s, .replied r)
    | (s, none) => (s, .accepted (e.system.addressee e.channel request) e.system.contexts.length)

/-- What is made of the body. -/
def account (e : Entry) : Account :=
  e.outcome.2

end Entry

namespace Step

/-- The body that is handled in the step. -/
def entered? (x : Step) : Option Entry :=
  match x.program with
  | .connection n (.handling (frame :: _)) =>
    x.before.connections[n]?.bind fun y =>
      match openEnvelope x.before.service.settings y.handshake frame with
      | (.ok body, handshake) => some ⟨x.before.onConnection n fun y => { y with handshake }, y.channel, body⟩
      | (.error _, _) => none
  | _ => none

/-- A message is handled only where the process of a connection has a frame before it. -/
lemma entered?_eq_none {x : Step} (h : ∀ n frame rest, x.program ≠ .connection n (.handling (frame :: rest))) :
    x.entered? = none := by
  rw [entered?]
  split
  next n frame rest heq => exact absurd heq (h n frame rest)
  next => rfl

/-- The reply that is sent in the step. -/
def reply? (x : Step) : Option Response :=
  x.entered?.bind (·.account.reply?)

/-- The context that is marked as answered in the step, and the answer that is put into the queue of a channel. -/
def conclusion? (x : Step) (c : ChannelId) : Option (ContextId × Response) :=
  x.concluded?.bind fun k => (Sent.answers (x.put c)).head?.map (k, ·)

/-- Whether the process waits with nothing, and the answers that were to be sent in the step are in the queue. -/
def Delivers (c : ChannelId) (x : Step) : Prop :=
  x.next.handover? = none ∧
    x.concluded?.isSome.toNat + x.reply?.isSome.toNat ≤ (Sent.answers (x.put c)).length

instance (c : ChannelId) (x : Step) : Decidable (x.Delivers c) :=
  decidable_of_iff (x.next.handover?.isNone = true ∧ _) (and_congr_left' Option.isNone_iff_eq_none)

/-- Whether the time of no session is up after the step, and none was killed. -/
def Spares (x : Step) : Prop :=
  ∀ y ∈ x.after.sessions, y.timedOut = none ∧ y.killed = false

instance (x : Step) : Decidable x.Spares :=
  inferInstanceAs (Decidable (∀ _ ∈ _, _))

end Step

namespace Annals

/-- The bodies that were handled, in order. -/
def entries (a : Annals) : List Entry :=
  a.steps.filterMap (·.2.entered?)

/-- The contexts that were marked as answered, in order, each with the answer that was put into the queue. -/
def conclusions (a : Annals) : List (ContextId × Response) :=
  a.steps.filterMap (·.2.conclusion? 0)

/-- A session accepted the request that is answered for a context. -/
def Holds (a : Annals) (i : SessionId) (k : ContextId) : Prop :=
  ∃ e ∈ a.entries, e.account = .accepted i k

/-- The answer to a body of which something was made. -/
def answer? (a : Annals) : Account → Option Response
  | .replied r => some r
  | .accepted _ k => a.conclusions.lookup k

end Annals

/-! ### One step -/

namespace System

variable {held : SessionId → ContextId → Prop} {s s' s'' : System} {r : ProcessId} {y : Process} {x : Step} {k : ContextId}
  {P : Program} {turning : Option ProcessId} {skip : Option SessionId}

/-- What a step has to do with the answers over the first channel: those that are put into its queue are the reply of the
step and the answer for the context that is marked in it. -/
structure Records (held : SessionId → ContextId → Prop) (s : System) (x : Step) (s' : System) : Prop where
  answers : Sent.answers (s'.sentOver 0) =
    Sent.answers (s.sentOver 0) ++ (x.reply?.toList ++ (x.conclusion? 0).toList.map (·.2))
  marks : ∀ k, s'.isConcluded k = (s.isConcluded k || (x.conclusion? 0).any (·.1 == k))
  fresh : ∀ k r, x.conclusion? 0 = some (k, r) → s.isConcluded k = false ∧
    (∃ y, s'.contexts[k]? = some y ∧ r.request = some y.request) ∧
    ∃ i, held i k ∧ (x.program.attends i = true ∨ x.program.handles? = some k)
  contexts : ∀ (k : ContextId) (y : TaskContext), s.contexts[k]? = some y →
    ∃ z, s'.contexts[k]? = some z ∧ z.request = y.request
  accepts : ∀ e, x.entered? = some e → ∀ i k, e.account = .accepted i k → s.contexts[k]? = none ∧
    ∃ request y, e.system.service.codec.decodeRequest e.body = .ok request ∧ s'.contexts[k]? = some y ∧
      y.request = request.id

/-- Where a process goes on after the step makes no difference. -/
lemma Records.quiet (h : Records held s x s') (contexts : s''.contexts = s'.contexts)
    (sent : s''.sentOver 0 = s'.sentOver 0) : Records held s x s'' where
  answers := sent ▸ h.answers
  marks k := by
    rw [isConcluded, contexts]
    exact h.marks k
  fresh := contexts ▸ h.fresh
  contexts := contexts ▸ h.contexts
  accepts := contexts ▸ h.accepts

/-- Nothing that is not an answer counts. -/
lemma answers_eq_nil {ms : List Sent} (dull : ∀ m ∈ ms, m.answer? = none) : Sent.answers ms = [] :=
  List.filterMap_eq_nil_iff.mpr dull

lemma answers_append (ms ns : List Sent) : Sent.answers (ms ++ ns) = Sent.answers ms ++ Sent.answers ns :=
  List.filterMap_append

lemma answers_response {r : Response} (concluding : r.concludes = true) : Sent.answers [.response r] = [r] := by
  simp [Sent.answers, Sent.answer?, concluding]

/-- A step in which nothing is handled and nobody answered. -/
lemma Records.of_dull (adds : s.Adds s') (unhandled : x.entered? = none) (unmarked : x.concluded? = none)
    (dull : ∃ ms, s'.sentOver 0 = s.sentOver 0 ++ ms ∧ ∀ m ∈ ms, m.answer? = none) : Records held s x s' := by
  have none_ : x.conclusion? 0 = none := by rw [Step.conclusion?, unmarked, Option.bind_none]
  obtain ⟨ms, sent, dull⟩ := dull
  constructor
  case answers =>
    rw [sent, answers_append, answers_eq_nil dull, Step.reply?, unhandled, none_]
    rfl
  case marks =>
    intro k
    rw [Docket.isConcluded_of_adds adds, none_, Option.any_none, Bool.or_false]
  case fresh =>
    intro k r h
    cases none_.symm.trans h
  case contexts => exact fun k y known => ⟨y, adds.context? known, rfl⟩
  case accepts =>
    intro e h
    cases unhandled.symm.trans h

/-- A step in which nothing is put into the queue. -/
lemma Records.of_silent (takes : Docket.Balanced.Takes s P s' x) (adds : s.Adds s') (unhandled : x.entered? = none)
    (same : s'.sentOver 0 = s.sentOver 0) : Records held s x s' :=
  .of_dull adds unhandled (takes.concluded? adds)
    ⟨[], same.trans (List.append_nil _).symm, fun _ hm => absurd hm List.not_mem_nil⟩

/-- A step in which a context is marked and answered. -/
lemma Records.of_answer {z : TaskContext} {response : Response} {ms : List Sent} (marks : Dossier.Marks s x)
    (same : x.after.contexts = s'.contexts) (unhandled : x.entered? = none) (marked : x.concluded? = some k)
    (before : x.before = s) (after : x.after.sentOver 0 = s'.sentOver 0) (sent : s'.sentOver 0 = s.sentOver 0 ++ ms)
    (answers : Sent.answers ms = [response])
    (known : s'.contexts[k]? = some z) (request : response.request = some z.request)
    (by_ : ∃ i, held i k ∧ (x.program.attends i = true ∨ x.program.handles? = some k)) : Records held s x s' := by
  have put : x.put 0 = ms := Docket.put_eq (by rw [after, before, sent])
  have some_ : x.conclusion? 0 = some (k, response) := by
    rw [Step.conclusion?, marked, Option.bind_some, put, answers]
    rfl
  constructor
  case answers =>
    rw [sent, answers_append, answers, Step.reply?, unhandled, some_]
    rfl
  case marks =>
    intro j
    rw [isConcluded, ← same, ← isConcluded, marks.isConcluded, marked, some_]
    rfl
  case fresh =>
    intro j r h
    cases some_.symm.trans h
    exact ⟨marks.unmarked marked, ⟨z, known, request⟩, by_⟩
  case contexts =>
    intro j w hw
    obtain ⟨w', hw', -, request⟩ := marks.context? hw
    exact ⟨w', same ▸ hw', request⟩
  case accepts =>
    intro e h
    cases unhandled.symm.trans h

namespace Tidy

/-- What was accepted may be told in other words. -/
lemma congr {held' : SessionId → ContextId → Prop} (h : Tidy held turning skip s) (same : ∀ i k, held i k ↔ held' i k) :
    Tidy held' turning skip s :=
  funext₂ (fun i k => propext (same i k)) ▸ h

/-- If a step of a process other than a connection's marks a context, then some session accepted the request, and the
process executes its tasks or is the handler for the context. -/
lemma concluded_by (h : Tidy held (some r) none s) (hr : s.processes[r]? = some y)
    (apart : ∀ n point, y.program ≠ .connection n point) (marks : Dossier.Marks s x)
    (stepped : x.after = (s.step r y.program).1) (spares : x.Spares)
    (idle : (s.step r y.program).2.program.handover? = none) (marked : x.concluded? = some k) :
    ∃ i, held i k ∧ (y.program.attends i = true ∨ y.program.handles? = some k) := by
  have unmarked := marks.unmarked marked
  have after : x.after.isConcluded k = true := by
    rw [marks.isConcluded, marked, beq_self_eq_true, Bool.or_true]
  obtain ⟨-, same | ⟨i, j, same, owned, by_⟩⟩ :=
    h.deals_step hr apart (fun z hz => (spares z (stepped ▸ hz)).1) idle
  · rw [isConcluded, stepped, same, ← isConcluded, unmarked] at after
    cases after
  · have known : s.contexts[j]?.isSome = true := by
      rw [List.getElem?_eq_getElem (h.bounds i j owned).2]
      rfl
    rw [isConcluded, stepped, same, ← isConcluded, Docket.isConcluded_conclude s j k known, unmarked, Bool.or_false,
      decide_eq_true_iff] at after
    exact after ▸ ⟨i, owned, by_⟩

/-- Every step of a process other than a connection's that delivers is recorded. -/
lemma records (h : Tidy held (some r) none s) (hr : s.processes[r]? = some y)
    (apart : ∀ n point, y.program ≠ .connection n point)
    (hx : x = ⟨s, y.program, (s.step r y.program).1, some (s.step r y.program).2⟩) (delivers : x.Delivers 0)
    (spares : x.Spares) : Records held s x (s.step r y.program).1 := by
  have known := h.known r y hr
  have unhandled : x.entered? = none := by
    rw [hx]
    exact Step.entered?_eq_none fun n frame rest => apart n _
  have idle : (s.step r y.program).2.program.handover? = none := by
    have waits := delivers.1
    rwa [hx] at waits
  have takes : Docket.Balanced.Takes s y.program (s.step r y.program).1 x := by
    rw [hx]
    exact ⟨rfl, rfl, rfl, fun _ => rfl⟩
  have conduct := (s.behaves_step r (Program.isPlain_of_idle known.idle)).conduct
  have marks := Dossier.Marks.of_conduct takes conduct
  have by_ {k : ContextId} (marked : x.concluded? = some k) :
      ∃ i, held i k ∧ (x.program.attends i = true ∨ x.program.handles? = some k) := by
    rw [takes.program]
    exact h.concluded_by hr apart marks (by rw [hx]) spares idle marked
  -- a context that is marked was known before, and is answered over the first channel
  have found {s₁ : System} {k : ContextId} {z : TaskContext} (adds : s.Adds s₁) (hz : s₁.contexts[k]? = some z)
      (marked : x.concluded? = some k) : z.channel = some 0 := by
    obtain ⟨i, owned, -⟩ := by_ marked
    obtain hz | ⟨hz, -⟩ := adds.context?_before hz
    · exact (h.contexts k z hz).1
    · exact absurd (h.bounds i k owned).2 (not_lt.mpr (List.getElem?_eq_none_iff.mp hz))
  have dull (adds : s.Adds (s.step r y.program).1)
      (nothing : ∃ ms, (s.step r y.program).1.sentOver 0 = s.sentOver 0 ++ ms ∧ ∀ m ∈ ms, m.answer? = none) :
      Records held s x (s.step r y.program).1 := .of_dull adds unhandled (takes.concluded? adds) nothing
  cases conduct with
  | calm calm => exact .of_silent takes calm.toAdds unhandled (calm.sent 0)
  | apart elsewhere gains =>
    refine .of_silent takes gains.toAdds unhandled ?_
    cases hP : y.program with
    | writer c => exact (stepWriter_mute s c).sent 0
    | connection n point => exact absurd hP (apart n point)
    | delivery c d point =>
      have expected := known.expected
      rw [hP] at expected
      exact expected.elim
    | _ => rw [hP] at elsewhere; cases elsewhere
  | @concludes s₁ k z c response _ _ calm hz unfinished channel request concluding fate =>
    have marked : x.concluded? = some k :=
      Docket.concluded?_conclude calm.toAdds hz unfinished takes.before (takes.contexts.trans fate.quiet.contexts)
    obtain rfl : c = 0 := Option.some.inj (channel.symm.trans (found calm.toAdds hz marked))
    obtain ⟨m, what, sent⟩ := fate.sent
    have sent : (s.step r y.program).1.sentOver 0 = s.sentOver 0 ++ m.toList := by
      rw [sent, if_pos rfl]
      exact congrArg (· ++ _) (calm.sent 0)
    obtain rfl | ⟨rfl, -⟩ := what
    · -- nothing was put, so the answer was not delivered
      have few := delivers.2
      have nothing_put : x.put 0 = [] := Docket.put_eq (by rw [takes.sent, takes.before, sent]; rfl)
      rw [marked, nothing_put] at few
      exact absurd few (by simp [Sent.answers])
    · have after : (s.step r y.program).1.contexts[k]? = some { z with finished := true } := by
        rw [fate.quiet.contexts, System.conclude, onContext, List.getElem?_modify_eq, hz]
        rfl
      exact .of_answer marks takes.contexts unhandled marked takes.before (takes.sent 0) sent
        (answers_response concluding) after request (by_ marked)
  | retires _ _ calm hz unfinished channel same =>
    have marked := Docket.concluded?_conclude calm.toAdds hz unfinished takes.before
      (takes.contexts.trans (congrArg System.contexts same))
    cases channel.symm.trans (found calm.toAdds hz marked)
  | streams _ _ _ _ _ _ partial_ fate =>
    obtain ⟨adds, -, nothing⟩ :=
      Docket.Balanced.dull_of_fate fate (if_neg (by rw [partial_]; exact Bool.false_ne_true))
    exact dull adds (nothing 0)
  | closes _ mute fate =>
    obtain ⟨adds, -, nothing⟩ := Docket.Balanced.dull_of_fate fate rfl
    refine dull ((Adds.of_quiet mute.toQuiet).trans adds) ?_
    rw [← mute.sent 0]
    exact nothing 0
  | carries _ waits => cases known.idle.symm.trans waits

end Tidy

end System

/-! ### What is handled -/

namespace Entry

variable {e : Entry} {i : SessionId} {k : ContextId} {r : Response} {request : Request} {s : System}
  {held : SessionId → ContextId → Prop}
  {turning : Option ProcessId}

lemma outcome_error {err : Error} (h : e.system.service.codec.decodeRequest e.body = .error err) :
    e.outcome = (e.system, .replied (unreadable err)) := by
  rw [outcome, h]

lemma outcome_some (h : e.system.service.codec.decodeRequest e.body = .ok request)
    (hr : e.system.route e.channel request = (s, some r)) : e.outcome = (s, .replied r) := by
  rw [outcome, h]
  dsimp only
  rw [hr]

lemma outcome_none (h : e.system.service.codec.decodeRequest e.body = .ok request)
    (hr : e.system.route e.channel request = (s, none)) :
    e.outcome = (s, .accepted (e.system.addressee e.channel request) e.system.contexts.length) := by
  rw [outcome, h]
  dsimp only
  rw [hr]

lemma calm_outcome (e : Entry) : e.system.Calm e.outcome.1 := by
  rw [outcome]
  split
  · exact .refl _
  next request _ =>
    have routed := Calm.route e.system e.channel request
    split <;> next heq =>
      rw [heq] at routed
      exact routed

/-- What a reply to a body is: it cannot be read, asks for the end of a session, or is refused. -/
lemma replied (h : e.account = .replied r) : match e.system.service.codec.decodeRequest e.body with
    | .error err => r = unreadable err
    | .ok request =>
      match request.closes? with
      | some name => r = closeResponse request.id name (e.system.table.find? name).isSome
      | none => ∃ err, r = refusal request.id (.rejected err) := by
  rw [account] at h
  cases hd : e.system.service.codec.decodeRequest e.body with
  | error err =>
    rw [outcome_error hd] at h
    cases h
    rfl
  | ok request =>
    dsimp only
    have routed := route_cases e.system e.channel request
    rcases hr : e.system.route e.channel request with ⟨s, _ | reply⟩
    · rw [outcome_none hd hr] at h
      cases h
    · rw [outcome_some hd hr] at h
      cases h
      rw [hr] at routed
      obtain ⟨name, closes, same⟩ | ⟨closes, ⟨err, same⟩ | ⟨none_, -⟩⟩ := routed
      · rw [closes]
        exact Option.some.inj same
      · rw [closes]
        exact ⟨err, Option.some.inj same⟩
      · cases none_

/-- Whatever is replied at once is the last response to a request. -/
lemma concludes_of_replied (h : e.account = .replied r) : r.concludes = true := by
  have what := replied h
  split at what
  · rw [what]
    exact Bool.or_true _
  · split at what
    · rw [what, closeResponse]
      split
      · rfl
      · exact Bool.or_true _
    · obtain ⟨err, rfl⟩ := what
      exact Bool.or_true _

/-- Whoever accepts a request is the session to which it is routed, and makes a context for it. -/
lemma accepted (h : e.account = .accepted i k) : ∃ request,
    e.system.service.codec.decodeRequest e.body = .ok request ∧ request.closes? = none ∧ k = e.system.contexts.length ∧
      e.outcome.1.contexts = e.system.contexts ++ [{ request := request.id, channel := some e.channel }] := by
  rw [account] at h
  cases hd : e.system.service.codec.decodeRequest e.body with
  | error err =>
    rw [outcome_error hd] at h
    cases h
  | ok request =>
    have routed := route_cases e.system e.channel request
    rcases hr : e.system.route e.channel request with ⟨s, _ | reply⟩
    · rw [outcome_none hd hr] at h ⊢
      cases h
      rw [hr] at routed
      obtain ⟨_, -, same⟩ | ⟨closes, ⟨_, same⟩ | ⟨-, contexts⟩⟩ := routed
      · cases same
      · cases same
      · exact ⟨request, rfl, closes, rfl, contexts⟩
    · rw [outcome_some hd hr] at h
      cases h

/-- Whatever is made of a body leaves all sessions tended. -/
lemma tidy (h : Tidy held turning none e.system) (channel : e.channel = 0) :
    Tidy (fun j l => held j l ∨ e.account = .accepted j l) turning none e.outcome.1 := by
  rw [account, outcome]
  split
  · exact h.congr fun j l => (or_iff_left (by rintro ⟨⟩)).symm
  next request _ =>
    have routed := h.route request
    rw [channel]
    split
    next heq =>
      rw [heq] at routed
      exact routed.congr fun j l => (or_iff_left (by rintro ⟨⟩)).symm
    next heq =>
      rw [heq] at routed
      refine routed.congr fun j l => or_congr_right ?_
      rw [Account.accepted.injEq, eq_comm (a := e.system.addressee 0 request), eq_comm (b := l)]

end Entry

namespace System

variable {held : SessionId → ContextId → Prop} {s s' : System} {p : ProcessId} {n : ConnectionId} {y : Connection}
  {frame body : Bytes} {rest : List Bytes} {handshake : HandshakeDecoder} {x : Step}

/-- How a body is handled for which a session accepts the request, or to which a reply is sent. -/
lemma handle_cases (p : ProcessId) (n : ConnectionId) (rest : List Bytes)
    (opened : openEnvelope s.service.settings y.handshake frame = (.ok body, handshake)) :
    let e : Entry := ⟨s.onConnection n fun y => { y with handshake }, y.channel, body⟩
    (∃ i k, e.account = .accepted i k ∧ s.handle p n y frame rest = (e.outcome.1, .go (.handling rest))) ∨
      ∃ r next, ∃ waiting : Handover → ConnectionPoint, e.account = .replied r ∧
        s.handle p n y frame rest = Transit.turn (e.outcome.1.sendResponse p y.channel r) next waiting ∧
        next (.ok ()) = .handling rest ∧ ∀ h, (Program.connection n (waiting h)).handover? = some h := by
  rw [handle, opened]
  dsimp only
  generalize (s.onConnection n fun y => { y with handshake }) = s₁
  cases hd : s₁.service.codec.decodeRequest body with
  | error err =>
    have outcome := Entry.outcome_error (e := ⟨s₁, y.channel, body⟩) hd
    refine .inr ⟨unreadable err, fun _ => .handling rest, (.excusing · (.handling rest)), congrArg Prod.snd outcome, ?_, rfl,
      fun _ => rfl⟩
    rw [outcome]
  | ok request =>
    dsimp only
    rcases hr : s₁.route y.channel request with ⟨s₂, _ | r⟩
    · have outcome := Entry.outcome_none (e := ⟨s₁, y.channel, body⟩) hd hr
      exact .inl ⟨_, _, congrArg Prod.snd outcome, by rw [outcome]⟩
    · have outcome := Entry.outcome_some (e := ⟨s₁, y.channel, body⟩) hd hr
      refine .inr ⟨r, afterReply rest, (.replying · rest), congrArg Prod.snd outcome, ?_, rfl, fun _ => rfl⟩
      rw [outcome]

/-- A step in which a body is handled. -/
lemma Records.of_entry {e : Entry} (adds : s.Adds s') (handled : x.entered? = some e) (unmarked : x.concluded? = none)
    (before : e.system.contexts = s.contexts) (after : s'.contexts = e.outcome.1.contexts)
    (answers : Sent.answers (s'.sentOver 0) = Sent.answers (s.sentOver 0) ++ e.account.reply?.toList) :
    Records held s x s' := by
  have none_ : x.conclusion? 0 = none := by rw [Step.conclusion?, unmarked, Option.bind_none]
  constructor
  case answers =>
    rw [answers, Step.reply?, handled, none_]
    exact congrArg _ (List.append_nil _).symm
  case marks =>
    intro k
    rw [Docket.isConcluded_of_adds adds, none_, Option.any_none, Bool.or_false]
  case fresh =>
    intro k r h
    cases none_.symm.trans h
  case contexts => exact fun k y known => ⟨y, adds.context? known, rfl⟩
  case accepts =>
    intro e' h i k account
    cases handled.symm.trans h
    obtain ⟨request, decoded, -, rfl, contexts⟩ := Entry.accepted account
    refine ⟨List.getElem?_eq_none (by rw [before]), request, { request := request.id, channel := some e.channel }, decoded,
      ?_, rfl⟩
    rw [after, contexts, List.getElem?_concat_length]

/-- The step in which a frame is handled, if it delivers. -/
lemma records_handling (hn : s.connections[n]? = some y) (channel : y.channel = 0)
    (opened : openEnvelope s.service.settings y.handshake frame = (.ok body, handshake))
    (hx : x = ⟨s, .connection n (.handling (frame :: rest)), (s.stepConnection p n (.handling (frame :: rest))).1,
      some ((s.stepConnection p n (.handling (frame :: rest))).2.map (.connection n))⟩) (delivers : x.Delivers 0) :
    let e : Entry := ⟨s.onConnection n fun y => { y with handshake }, 0, body⟩
    x.entered? = some e ∧ (s.stepConnection p n (.handling (frame :: rest))).2 = .go (.handling rest) ∧
      e.outcome.1.Rouses (s.stepConnection p n (.handling (frame :: rest))).1 ∧
      Records held s x (s.stepConnection p n (.handling (frame :: rest))).1 := by
  intro e
  have steps : s.stepConnection p n (.handling (frame :: rest)) = s.handle p n y frame rest := by
    rw [stepConnection, hn]
  have handled : x.entered? = some e := by
    rw [hx, Step.entered?]
    dsimp only
    rw [hn, Option.bind_some, opened, channel]
  have calm : s.Calm e.outcome.1 :=
    (Calm.of_mute (.of_channels (.onConnection s n fun y => { y with handshake }) rfl)).trans e.calm_outcome
  have takes : Docket.Balanced.Takes s (.connection n (.handling (frame :: rest)))
      (s.stepConnection p n (.handling (frame :: rest))).1 x := by
    rw [hx]
    exact ⟨rfl, rfl, rfl, fun _ => rfl⟩
  refine ⟨handled, ?_⟩
  obtain ⟨i, k, account, result⟩ | ⟨r, next, waiting, account, result, goesOn, waits⟩ :=
    handle_cases p n rest opened <;> rw [channel] at account result <;> rw [← steps] at result
  · rw [result] at takes ⊢
    refine ⟨rfl, .refl _, .of_entry calm.toAdds handled (takes.concluded? calm.toAdds) rfl rfl ?_⟩
    rw [calm.sent, account]
    exact (List.append_nil _).symm
  · have rouses := Rouses.sendResponse e.outcome.1 p 0 r
    have posts := Posts.sendResponse e.outcome.1 p 0 r
    rcases hsend : e.outcome.1.sendResponse p 0 r with ⟨s', transit⟩
    rw [hsend] at rouses posts
    change _ = Transit.turn (e.outcome.1.sendResponse p 0 r) next waiting at result
    rw [hsend] at result
    cases posts with
    | put quiet sent =>
      rw [result] at takes ⊢
      have adds := calm.toAdds.trans (.of_quiet quiet)
      refine ⟨congrArg Turn.go goesOn, rouses, .of_entry adds handled (takes.concluded? adds) rfl quiet.contexts ?_⟩
      change Sent.answers (s'.sentOver 0) = _
      rw [sent, calm.sent, if_pos rfl, Option.toList_some, answers_append,
        answers_response (Entry.concludes_of_replied account), account]
      rfl
    | held mute h =>
      have idle := delivers.1
      rw [hx, result] at idle
      cases (waits h).symm.trans idle
    | refused mute err =>
      -- nothing was put, so the reply was not delivered
      have few := delivers.2
      have put : x.put 0 = [] := by
        refine Docket.put_eq ?_
        rw [takes.sent, takes.before, result, List.append_nil]
        exact (mute.sent 0).trans (calm.sent 0)
      rw [put, Step.reply?, handled, Option.bind_some, account] at few
      exact absurd few (by simp [Sent.answers, Account.reply?])

end System

namespace Annals

variable {a : Annals} {p : ProcessId} {x : Step} {s' : System}

/-- The annals after a step. -/
def take (a : Annals) (p : ProcessId) (x : Step) (s' : System) : Annals :=
  { system := s', steps := a.steps ++ [(p, x)] }

/-- The books agree with the server: the answers in the queue of the first channel are the replies and the answers for
the contexts that are marked, one for each. Each of these was put by a process of the session that accepted the request,
and names it; and no two requests have one context. -/
structure Reckoned (a : Annals) : Prop where
  queued : (Sent.answers (a.system.sentOver 0)).Perm
    (a.entries.filterMap (·.account.reply?) ++ a.conclusions.map (·.2))
  once : (a.conclusions.map (·.1)).Nodup
  marked : ∀ k, a.system.isConcluded k = true ↔ k ∈ a.conclusions.map (·.1)
  named : ∀ k r, (k, r) ∈ a.conclusions → ∃ y, a.system.contexts[k]? = some y ∧ r.request = some y.request
  worked : ∀ k r, (k, r) ∈ a.conclusions → ∃ i, a.Holds i k ∧ ∃ e ∈ a.steps, e.2.conclusion? 0 = some (k, r) ∧
    (e.2.program.attends i = true ∨ e.2.program.handles? = some k)
  distinct : (a.entries.filterMap (·.account.context?)).Nodup
  requested : ∀ e ∈ a.entries, ∀ i k, e.account = .accepted i k → ∃ request y,
    e.system.service.codec.decodeRequest e.body = .ok request ∧ a.system.contexts[k]? = some y ∧ y.request = request.id

lemma entries_take (a : Annals) (p : ProcessId) (x : Step) (s' : System) :
    (a.take p x s').entries = a.entries ++ x.entered?.toList := by
  rw [entries, take, List.filterMap_append]
  cases h : x.entered? <;> simp [h, entries]

lemma conclusions_take (a : Annals) (p : ProcessId) (x : Step) (s' : System) :
    (a.take p x s').conclusions = a.conclusions ++ (x.conclusion? 0).toList := by
  rw [conclusions, take, List.filterMap_append]
  cases h : x.conclusion? 0 <;> simp [h, conclusions]

/-- Some session accepted a request before the step, or in it. -/
lemma holds_take {i : SessionId} {k : ContextId} :
    (a.take p x s').Holds i k ↔ a.Holds i k ∨ ∃ e, x.entered? = some e ∧ e.account = .accepted i k := by
  simp only [Holds, entries_take, List.mem_append, or_and_right, exists_or, Option.mem_toList]

namespace Reckoned

/-- What happens without any steps makes no difference to the books. -/
lemma quiet (h : a.Reckoned) (contexts : s'.contexts = a.system.contexts) (sent : s'.sentOver 0 = a.system.sentOver 0) :
    ({ a with system := s' } : Annals).Reckoned where
  queued := by
    rw [sent]
    exact h.queued
  once := h.once
  marked k := by
    rw [isConcluded, contexts]
    exact h.marked k
  named k r hc := by
    rw [contexts]
    exact h.named k r hc
  worked := h.worked
  distinct := h.distinct
  requested e he i k account := by
    rw [contexts]
    exact h.requested e he i k account

/-- **A step that is recorded keeps the books.** -/
lemma record (h : a.Reckoned) (p : ProcessId) (records : Records a.Holds a.system x s') : (a.take p x s').Reckoned := by
  have replied : (a.take p x s').entries.filterMap (·.account.reply?) =
      a.entries.filterMap (·.account.reply?) ++ x.reply?.toList := by
    rw [entries_take, List.filterMap_append, Step.reply?]
    cases x.entered? with
    | none => rfl
    | some e => cases h : e.account.reply? <;> simp [h]
  have accepted : (a.take p x s').entries.filterMap (·.account.context?) =
      a.entries.filterMap (·.account.context?) ++ (x.entered?.bind (·.account.context?)).toList := by
    rw [entries_take, List.filterMap_append]
    cases x.entered? with
    | none => rfl
    | some e => cases h : e.account.context? <;> simp [h]
  constructor
  case queued =>
    rw [replied, conclusions_take, List.map_append, List.append_assoc]
    refine (records.answers ▸ h.queued.append_right _).trans ?_
    rw [List.append_assoc]
    exact (List.perm_append_comm_assoc _ _ _).append_left _
  case once =>
    rw [conclusions_take, List.map_append]
    cases hc : x.conclusion? 0 with
    | none => simpa using h.once
    | some c =>
      refine List.nodup_append_comm.mp (List.nodup_cons.mpr ⟨fun before => ?_, h.once⟩)
      cases (records.fresh c.1 c.2 hc).1.symm.trans ((h.marked c.1).mpr before)
  case marked =>
    intro k
    change s'.isConcluded k = true ↔ _
    rw [records.marks, Bool.or_eq_true, h.marked, conclusions_take, List.map_append, List.mem_append]
    cases x.conclusion? 0 with
    | none => simp
    | some c =>
      rw [Option.any_some, beq_iff_eq, Option.toList_some, List.map_singleton, List.mem_singleton, eq_comm (b := k)]
  case named =>
    intro k r hc
    rw [conclusions_take, List.mem_append, Option.mem_toList] at hc
    obtain before | now := hc
    · obtain ⟨y, hy, request⟩ := h.named k r before
      obtain ⟨z, hz, same⟩ := records.contexts k y hy
      exact ⟨z, hz, request.trans (congrArg some same.symm)⟩
    · exact (records.fresh k r now).2.1
  case worked =>
    intro k r hc
    rw [conclusions_take, List.mem_append, Option.mem_toList] at hc
    obtain before | now := hc
    · obtain ⟨i, holds, e, he, rest⟩ := h.worked k r before
      exact ⟨i, holds_take.mpr (.inl holds), e, List.mem_append_left _ he, rest⟩
    · obtain ⟨-, -, i, holds, by_⟩ := records.fresh k r now
      exact ⟨i, holds_take.mpr (.inl holds), (p, x), List.mem_append_right _ List.mem_cons_self, now, by_⟩
  case distinct =>
    rw [accepted]
    cases hx : x.entered? with
    | none => simpa using h.distinct
    | some e =>
      cases he : e.account with
      | replied r => simpa [he, Account.context?] using h.distinct
      | accepted i k =>
        rw [Option.bind_some, he]
        refine List.nodup_append_comm.mp (List.nodup_cons.mpr ⟨fun before => ?_, h.distinct⟩)
        obtain ⟨e', he', same⟩ := List.mem_filterMap.mp before
        cases account : e'.account with
        | replied r => rw [account] at same; cases same
        | accepted j l =>
          rw [account] at same
          cases same
          obtain ⟨-, y, -, known, -⟩ := h.requested e' he' j k account
          cases known.symm.trans (records.accepts e hx i k he).1
  case requested =>
    intro e he i k account
    rw [entries_take, List.mem_append, Option.mem_toList] at he
    obtain before | now := he
    · obtain ⟨request, y, decoded, hy, same⟩ := h.requested e before i k account
      obtain ⟨z, hz, same'⟩ := records.contexts k y hy
      exact ⟨request, z, decoded, hz, same'.trans same⟩
    · exact (records.accepts e now i k account).2

end Reckoned

end Annals

end GraphServer
