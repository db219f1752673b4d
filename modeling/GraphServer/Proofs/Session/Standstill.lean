import GraphServer.Proofs.Session.Incident
import GraphServer.Proofs.Session.Notice
import GraphServer.Proofs.Session.Succession

/-!
A session that has come to a standstill.

* `System.AtStandstill`: no process is awake, no handler is in flight and nothing waits for a queue;
* `Session.IsDissolved`: how a session is left when it is killed, and stays;
* `System.Vigilant.standstill`: then nothing waits in the session, unless it was killed, and if it accepts nothing more
  it is terminated;
* `Opening.undergo_standstill`: **no accepted task gets stuck**, whatever happens to the session.
-/

namespace GraphServer

open Opening (session channel)

namespace System

/-- Whether a server has come to a standstill: no process is awake, no handler of a session is in flight, and no process
waits to put something into a queue. Some may wait for a time, or to be notified. -/
def AtStandstill (s : System) (i : SessionId) : Prop :=
  s.ready = [] ∧ s.aside = [] ∧ s.sessions[i]?.bind (·.inFlight) = none ∧
    ∀ x ∈ s.processes, x.program.handover?.isNone = true

instance (s : System) (i : SessionId) : Decidable (s.AtStandstill i) :=
  inferInstanceAs (Decidable (_ ∧ _ ∧ _ ∧ _))

end System

namespace Session

/-- Whether nothing is left to do in a session: nothing waits, and if it accepts nothing more it is terminated. -/
def IsDone (x : Session) : Prop :=
  x.queued? = some 0 ∧ (x.accepting = false → x.terminated = true)

instance (x : Session) : Decidable x.IsDone :=
  inferInstanceAs (Decidable (_ ∧ (_ → _)))

/-- How a session is left when it is killed. -/
structure IsDissolved (x : Session) : Prop where
  accepting : x.accepting = false
  terminated : x.terminated = true
  queued : x.queued? = some 0

/-- What nothing that is done to a session undoes. -/
structure Wanes (x x' : Session) : Prop where
  many : x.backlog.isSome = true → x'.backlog.isSome = true
  shut : x.accepting = false → x'.accepting = false
  terminated : x.terminated = true → x'.terminated = true
  /-- Nothing waits in it any more once nothing is accepted. -/
  empty : x.accepting = false → x.queued? = some 0 → x'.queued? = some 0

lemma Wanes.of_backlog {x x' : Session} (backlog : x'.backlog = x.backlog)
    (shut : x.accepting = false → x'.accepting = false) (terminated : x.terminated = true → x'.terminated = true) :
    x.Wanes x' :=
  ⟨fun h => by rwa [backlog], shut, terminated, fun _ h => by rwa [queued?, backlog]⟩

lemma Amends.wanes {x x' : Session} (amends : x.Amends x') : x.Wanes x' := by
  cases amends with
  | hooks hook p =>
    obtain ⟨future, cancelFuture, hset⟩ := x.setHook_getD hook p
    rw [hset]
    exact .of_backlog rfl id id
  | staffs p => exact .of_backlog rfl id id
  | begins begins =>
    obtain ⟨-, -, rfl⟩ := begin_eq_ok begins
    exact .of_backlog rfl id id
  | lands => exact .of_backlog rfl id id
  | expires expires =>
    obtain ⟨-, rfl⟩ := expire?_eq_some expires
    exact .of_backlog rfl (fun _ => rfl) id
  | stops => exact .of_backlog rfl (fun _ => rfl) id
  | finishes => exact .of_backlog rfl (fun _ => rfl) fun _ => rfl
  | dies =>
    refine ⟨fun h => ?_, fun _ => rfl, fun _ => rfl, fun _ h => ?_⟩
    · rwa [kill, Option.isSome_map]
    · obtain ⟨b, hb, -⟩ := Option.map_eq_some_iff.mp h
      rw [queued?, kill, hb]
      rfl
  | notifies notified =>
    refine ⟨fun h => ?_, id, id, fun _ h => ?_⟩
    · rwa [setNotified, Option.isSome_map]
    · rw [queued?, setNotified, Option.map_map]
      exact h
  | enqueues backlog accepting enqueues =>
    obtain ⟨-, rfl⟩ := enqueue_eq_ok enqueues
    refine ⟨fun _ => rfl, id, id, fun shut => ?_⟩
    cases shut.symm.trans accepting
  | dequeues dequeues =>
    obtain ⟨b, rest, hb, htasks, rfl⟩ := dequeue?_eq_some dequeues
    refine ⟨fun _ => rfl, id, id, fun _ h => ?_⟩
    rw [queued?, hb, Option.map_some, htasks] at h
    cases h
  | drains =>
    rw [drain_snd]
    refine ⟨fun h => ?_, id, id, fun _ h => ?_⟩
    · rwa [Option.isSome_map]
    · obtain ⟨b, hb, -⟩ := Option.map_eq_some_iff.mp h
      rw [queued?, hb]
      rfl

/-- A session for many tasks stays one. -/
lemma lasts_many : Lasts fun x => x.backlog.isSome = true :=
  fun _ _ amends many => amends.wanes.many many

/-- A session that was killed stays as it was left. -/
lemma lasts_dissolved : Lasts IsDissolved :=
  fun _ _ amends h =>
    ⟨amends.wanes.shut h.accepting, amends.wanes.terminated h.terminated, amends.wanes.empty h.accepting h.queued⟩

end Session

/-! ### Where nothing goes on -/

namespace Program

variable {program : Program}

lemma isPending_of_executes (executes : program.executes = true) : program.isPending = program.handover?.isSome := by
  cases program with
  | single | worker => rfl
  | _ => cases executes

/-- A process that is still to notify waits for nothing but a queue. -/
lemma isWaiting_of_owesNotice (owes : program.owesNotice = true) (idle : program.handover? = none) :
    program.isWaiting = false := by
  cases program with
  | timeout j elapsed ofSession point =>
    cases point with
    | sending y next => cases idle
    | _ => rfl
  | _ => cases owes

end Program

namespace System

open Affairs

variable {s : System} {i : SessionId} {c : ChannelId} {a : Affairs}

/-- A session for many tasks in a server that has come to a standstill has nothing left to do. -/
lemma Vigilant.standstill (vigilant : Vigilant none s) (shows : s.Shows i c a) (staffed : a.Staffed i c)
    (attention : Attention none a) (notice : a.Notice) (still : s.AtStandstill i)
    (many : a.session.backlog.isSome = true) : a.session.IsDone := by
  obtain ⟨ready, aside, idle, waits⟩ := still
  have asleep (p : ProcessId) : ¬s.isAwake p = true := by
    rw [isAwake_iff, ready, aside]
    exact not_or.mpr ⟨List.not_mem_nil, List.not_mem_nil⟩
  have landed : a.session.inFlight = none := by
    rw [shows.session] at idle
    exact idle
  have hands (p : ProcessId) (x : Process) (hx : a.processes[p]? = some x) : x.program.handover? = none :=
    Option.isNone_iff_eq_none.mp (waits x (shows.processes ▸ List.mem_of_getElem? hx))
  have heeded (p : ProcessId) (x : Process) (hx : a.processes[p]? = some x) : s.Heeded p x :=
    vigilant p x (shows.processes ▸ hx) nofun
  -- the process that executes the tasks waits where it may
  obtain ⟨b, hb⟩ := Option.isSome_iff_exists.mp many
  obtain ⟨e, he⟩ := Option.ne_none_iff_exists'.mp (attention.manned (hb ▸ Option.some_ne_none b))
  have hlt := staffed.hooks e (.inl he)
  have hx : a.processes[e]? = some a.processes[e] := List.getElem?_eq_getElem hlt
  have executor : a.executor? = some a.processes[e].program := by
    rw [executor?, he, Option.bind_some, program?_of_some hx]
  generalize a.processes[e] = x at hx executor
  have mayWait : a.MayWait x.program := by
    refine (attention.alert _ executor (he ▸ Option.some_ne_none e)).resolve_left fun awake => asleep e ?_
    exact isAwake_iff.mpr (shows.awake awake e he)
  -- and for no handler, since none is in flight
  have joins (y : ProcessId) : x.program.isJoining y = false := by
    rw [Bool.eq_false_iff]
    intro joining
    obtain ⟨other, hother, ⟨k, point, rfl⟩ | finished⟩ := attention.awaited _ y executor joining
    · obtain ⟨z, hz, hprogram⟩ := Option.map_eq_some_iff.mp hother
      cases lives : z.cancelled with
      | false => cases landed.symm.trans ((staffed.serves y z hz).handler k point hprogram lives)
      | true => exact asleep y ((heeded y z hz).stopped (hprogram ▸ rfl) lives)
    · cases other with
      | finished result => exact mayWait.unended y result joining hother
      | _ => cases finished
  have empty (queue : a.queue = []) : a.session.queued? = some 0 := by
    rw [Affairs.queue, hb] at queue
    rw [Session.queued?, hb]
    exact congrArg (some ∘ List.length) queue
  obtain executes | finished := attention.posted _ executor
  · have pending : x.program.isPending = false := by
      rw [Program.isPending_of_executes executes, hands e x hx]
      rfl
    obtain resting | ⟨y, joining⟩ := Program.joining_of_mayWait executes mayWait.waits pending
    · have unnotified := mayWait.unnotified resting
      refine ⟨empty ((attention.quiet _ executor resting).resolve_left fun notified => ?_), fun shut => ?_⟩
      · cases unnotified.symm.trans notified
      · obtain ended | notified | ⟨q, z, hz, -, owes⟩ := notice.told (hb ▸ Option.some_ne_none b) shut _ executor resting
        · exact ended
        · cases unnotified.symm.trans notified
        · exact absurd ((heeded q z hz).acts (Program.isWaiting_of_owesNotice owes (hands q z hz))) (asleep q)
    · cases (joins y).symm.trans joining
  · exact ⟨empty (attention.ended _ executor finished).1, fun _ => notice.ended _ executor finished⟩

end System

/-- A session for many tasks that is killed. -/
lemma System.Holds.kill {s : System} {i : SessionId} (h : Holds i (fun x => x.backlog.isSome = true) s) :
    Holds i Session.IsDissolved (s.kill i) := by
  obtain ⟨x, hx, many⟩ := h
  obtain ⟨b, hb⟩ := Option.isSome_iff_exists.mp many
  have killed : Holds i Session.IsDissolved (s.onSession i Session.kill) := by
    refine ⟨x.kill, ?_, rfl, rfl, ?_⟩
    · rw [System.onSession, List.getElem?_modify_eq, hx]
      rfl
    · rw [Session.queued?, Session.kill, hb]
      rfl
  rw [System.kill, hx]
  exact killed.changes Session.lasts_dissolved (.abortAll _ _)

/-! ### Whatever happens -/

namespace Opening

/-- A session for many tasks is opened as one. -/
lemma start_many (service : Service) (transport : Transport) {o : Opening} {limit : Nat} (many : o.limit? = some limit) :
    System.Holds session (fun x => x.backlog.isSome = true) (o.start service transport) := by
  have opened (name : String) (n : Nat) : System.Holds session (fun x => x.backlog.isSome = true)
      ((multi name n).start service transport) :=
    ⟨_, rfl, rfl⟩
  cases o with
  | single name => cases many
  | multi name n => exact opened name n
  | watched name n => exact (opened name n).changes Session.lasts_many (.armLifetime _ _)

/-- The session is killed at some time, or everything that happens to it is a move. -/
lemma undergo_cases (service : Service) (transport : Transport) {o : Opening} {limit : Nat}
    (many : o.limit? = some limit) (incidents : List Incident) :
    System.Holds session Session.IsDissolved (o.undergo service transport incidents).system ∨
      System.Holds session (fun x => x.backlog.isSome = true) (o.undergo service transport incidents).system ∧
        ∃ moves, o.undergo service transport incidents = o.play service transport moves := by
  induction incidents using List.reverseRecOn with
  | nil => exact .inr ⟨start_many service transport many, [], rfl⟩
  | append_singleton incidents incident ih =>
    have last : o.undergo service transport (incidents ++ [incident]) =
        (o.undergo service transport incidents).incur incident := by
      rw [undergo, Chronicle.undergo, List.foldl_append]
      rfl
    rw [last]
    have evolves := (o.undergo service transport incidents).incur_evolves incident
    obtain dissolved | ⟨lasting, moves, hmoves⟩ := ih
    · exact .inl (evolves.lasts Session.lasts_dissolved dissolved)
    · cases incident with
      | move m =>
        refine .inr ⟨evolves.lasts Session.lasts_many lasting, moves ++ [m], ?_⟩
        rw [hmoves, play, play, Chronicle.play, Chronicle.play, List.foldl_append]
        rfl
      | kill =>
        exact .inl (System.Holds.kill lasting)

/-- **No accepted task gets stuck**: whatever happens to a session for many tasks, nothing waits in it when the server has
come to a standstill, and if it accepts nothing more it is terminated. -/
theorem undergo_standstill (service : Service) (transport : Transport) (o : Opening) (incidents : List Incident)
    {limit : Nat} (many : o.limit? = some limit)
    (still : (o.undergo service transport incidents).system.AtStandstill session) :
    ∃ x, (o.undergo service transport incidents).system.sessions[session]? = some x ∧ x.IsDone := by
  obtain ⟨x, hx, dissolved⟩ | ⟨⟨x, hx, lasting⟩, moves, hmoves⟩ := undergo_cases service transport many incidents
  · exact ⟨x, hx, dissolved.queued, fun _ => dissolved.terminated⟩
  · rw [hmoves] at hx still ⊢
    obtain ⟨a, shows, course⟩ := o.course service transport moves
    refine ⟨a.session, shows.session, ?_⟩
    have same : x = a.session := Option.some.inj (hx.symm.trans shows.session)
    exact (o.vigilant service transport moves).standstill shows course.staffed course.attention course.notice still
      (same ▸ lasting)

/-- Two tasks are accepted and the first one is begun. -/
def twoNaps : List Incident :=
  [.submit ⟨.nil, "eval", "", .empty⟩, .submit ⟨.nil, "eval", "", .empty⟩, .turn 0 9 9, .turn 1 9 9].map .move

/-- The session is closed, and both tasks are executed. -/
def closedNaps : List Incident :=
  twoNaps ++ [.close, .turn 2 9 9, .ring 10, .turn 2 9 9, .turn 1 9 9, .turn 3 9 9, .ring 20, .turn 3 9 9, .turn 1 9 9,
    .turn 0 9 9].map .move

/-- The session is killed, and all its processes are stopped. -/
def killedNaps : List Incident :=
  twoNaps ++ .kill :: [.turn 2 9 9, .turn 1 9 9, .turn 0 9 9].map .move

/-- Nothing is left to do in either session. -/
theorem undergo_standstill_twoNaps :
    let closed := (multi "s" 3).undergo napping {} closedNaps
    let killed := (multi "s" 3).undergo napping {} killedNaps
    (closed.accepted.length = 2 ∧ closed.system.AtStandstill session ∧
      ∃ x, closed.system.sessions[session]? = some x ∧ x.IsDone) ∧
    (killed.accepted.length = 2 ∧ killed.system.AtStandstill session ∧
      ∃ x, killed.system.sessions[session]? = some x ∧ x.IsDone) := by
  intro closed killed
  have executed : closed.accepted.length = 2 ∧ closed.system.AtStandstill session := by decide +kernel
  have stopped : killed.accepted.length = 2 ∧ killed.system.AtStandstill session := by decide +kernel
  exact ⟨⟨executed.1, executed.2, undergo_standstill napping {} (multi "s" 3) closedNaps rfl executed.2⟩,
    stopped.1, stopped.2, undergo_standstill napping {} (multi "s" 3) killedNaps rfl stopped.2⟩

end Opening

end GraphServer
