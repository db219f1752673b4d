import GraphServer.Proofs.Session.Books
import GraphServer.Proofs.System.Requests

/-!
The affairs of a session follow what happens on its server.

* `Opening.shows`: how they stand at first;
* `System.Shows.run`: what they come to in a turn;
* `Chronicle.course`: **after any moves they stand as in their course**.
-/

namespace GraphServer

open Affairs

variable {s s' : System} {i : SessionId} {c : ChannelId} {o a a' : Affairs} {p : ProcessId} {whole : Bool}
  {accepted : List Task} {steps taken : List Step}

/-! ### Turns -/

namespace System

/-- An execution that goes on waiting for a handler has spent its allowance, or the handler has not ended. -/
lemma stepRun_waits {point : RunPoint} {t : Task} {y : ProcessId} {d : Option Deadline}
    (h : s.stepRun p i point = (s', .wait (.joining t y d))) :
    s'.allowance = 0 ∨ ∀ result, s.program? y ≠ some (.finished result) := by
  have outcome := s.stepRun_outcome p i point
  generalize s.stepRun p i point = x at outcome h
  cases outcome with
  | strays | begins | dies | stopped | leaves => cases h
  | waits rests =>
    cases h
    exact rests.imp_right fun unended => result?_eq_none.mp unended.1
  | refuses | returned | expires | resumes =>
    obtain ⟨y, hy⟩ := Transit.turn_wait (congrArg Prod.snd h)
    cases hy

lemma liftTurn_wait {α : Type} {x : System × Turn α} {f : α → Program} {next : Program}
    (h : liftTurn x f = (s', .wait next)) : ∃ point, x = (s', .wait point) ∧ next = f point := by
  obtain ⟨s₀, turn⟩ := x
  cases turn with
  | wait point =>
    cases h
    exact ⟨point, rfl, rfl⟩
  | _ => cases h

/-- A process that goes on waiting for another has spent its allowance, or the other has not ended. -/
lemma step_waits {program next : Program} {y : ProcessId} (h : s.step p program = (s', .wait next))
    (joining : next.isJoining y = true) :
    s'.allowance = 0 ∨ ∀ result, s.program? y ≠ some (.finished result) := by
  cases program with
  | single j point =>
    obtain ⟨next, hstep, rfl⟩ := liftTurn_wait h
    cases next with
    | joining t z d =>
      cases beq_iff_eq.mp joining
      have outcome := s.stepSingle_outcome p j point
      generalize s.stepSingle p j point = x at outcome hstep
      cases outcome with
      | ends => cases hstep
      | runs => exact stepRun_waits hstep
    | _ => cases joining
  | worker j point =>
    obtain ⟨next, hstep, rfl⟩ := liftTurn_wait h
    have outcome := s.stepWorker_outcome p j point
    generalize s.stepWorker p j point = x at outcome hstep
    cases outcome with
    | strays | takes | rests | ends | hears | leaves => cases hstep
    | waits =>
      cases hstep
      cases joining
    | @runs point _ =>
      have moves : (s.stepRun p j point).1 = s' := congrArg Prod.fst hstep
      obtain ⟨next, hrun, rfl⟩ := Turn.map_eq_wait (congrArg Prod.snd hstep)
      cases next with
      | joining t z d =>
        cases beq_iff_eq.mp joining
        exact stepRun_waits (Prod.ext moves hrun)
      | _ => cases joining
  | handler k point =>
    obtain ⟨next, -, rfl⟩ := liftTurn_wait h
    cases joining
  | timeout j elapsed ofSession point =>
    obtain ⟨next, -, rfl⟩ := liftTurn_wait h
    cases joining
  | writer channel =>
    obtain ⟨next, -, rfl⟩ := liftTurn_wait h
    cases joining
  | connection j point =>
    obtain ⟨next, -, rfl⟩ := liftTurn_wait h
    cases joining
  | delivery d x point =>
    obtain ⟨next, -, rfl⟩ := liftTurn_wait h
    cases joining
  | lifetime j milliseconds due =>
    have outcome := s.stepLifetime_outcome j milliseconds due
    rw [step] at h
    rw [h] at outcome
    cases outcome
    cases joining
  | finished result =>
    cases h
    cases joining

namespace Shows

/-- A process leaves those that are awake. -/
lemma drowse (h : s.Shows i c a) (p : ProcessId) :
    System.Shows { s with ready := s.ready.erase p } i c (a.drowse p) := by
  refine ⟨h.session, h.contexts, h.processes, h.channel, fun ha e he => ?_⟩
  obtain ⟨hawake, hp⟩ := Bool.and_eq_true_iff.mp ha
  have hne : e ≠ p := by
    rintro rfl
    exact of_decide_eq_true hp he
  exact (h.awake hawake e he).imp (List.mem_erase_of_ne hne).mpr id

/-- A process has to wait for its next turn. -/
lemma rouse (h : s.Shows i c a) (p : ProcessId) :
    (s.wake p).Shows i c (a.rouse (decide (a.session.future = some p))) := by
  have hwake := h.wake p
  refine ⟨hwake.session, hwake.contexts, hwake.processes, hwake.channel, fun ha e he => ?_⟩
  rcases Bool.or_eq_true_iff.mp ha with ha | ha
  · exact hwake.awake ha e he
  · cases he.symm.trans (of_decide_eq_true ha)
    exact .inl (self_mem_ready_wake s p)

/-- A process that was stopped ends. -/
lemma cancel (h : s.Shows i c a) (p : ProcessId) {program : Program}
    (handover : ∀ x, program.handover? = some x → x.channel = c) :
    (s.cancel p program).Shows i c (a.finish p none) := by
  rw [System.cancel]
  cases hx : program.handover? with
  | none => exact h.finish p none
  | some x => exact (h.giveUp p (handover x hx)).finish p none

/-- What the affairs come to when a process runs: it goes on until it waits or ends, or its turn is cut short. -/
lemma run (h : s.Shows i c a) (course : Course i c o whole (some p) a accepted (steps ++ taken))
    (process : ∃ y, a.processes[p]? = some y ∧ ∀ k point, y.program = .handler k point → y.cancelled = false)
    (n : Nat) (cut : n = 0 → taken.getLast?.any Step.goesOn = true) :
    ∃ a', (System.run p n s).Shows i c a' ∧
      Course i c o (whole && !(taken ++ stepsOf p n s).getLast?.any Step.goesOn) none a' accepted
        (steps ++ (taken ++ stepsOf p n s)) := by
  induction n generalizing s a taken with
  | zero =>
    refine ⟨_, h.rouse p, ?_⟩
    rw [stepsOf, List.append_nil, cut rfl, Bool.not_true, Bool.and_false]
    exact course.cut
  | succ n ih =>
    obtain ⟨y, hy, hgoes⟩ := process
    have hserves := course.staffed.serves p y hy
    have hprogram : s.program? p = some y.program := by
      rw [h.program?, Affairs.program?, hy, Option.map_some]
    obtain ⟨a', hshows, heffect⟩ := h.step (p := p) course.staffed.bound course.staffed.alive course.staffed.home
      course.staffed.flight_lt hserves.concerns hserves.known hserves.handover
    have hshort (x : Step) (hx : x.goesOn = false) : (taken ++ [x]).getLast?.any Step.goesOn = false := by
      rw [List.getLast?_concat, Option.any_some, hx]
    rw [System.run, stepsOf, hprogram]
    dsimp only
    generalize hstep : s.step p y.program = result at hshows heffect ⊢
    obtain ⟨s', turn⟩ := result
    have hperforms : a.Performs i c p ⟨s, y.program, s', some turn⟩ a' turn :=
      ⟨⟨y, hy, rfl, hgoes⟩, h, hshows, rfl, heffect⟩
    cases turn with
    | go next =>
      have hcourse := course.goes hperforms
      rw [List.append_assoc] at hcourse
      have hprocess : ∃ y, (a'.setProgram p next).processes[p]? = some y ∧
          ∀ k point, y.program = .handler k point → y.cancelled = false := by
        obtain ⟨z, hz, -⟩ := Option.map_eq_some_iff.mp (heffect.crew.place (h.program? p ▸ hprogram))
        refine ⟨_, setProgram_self hz, fun k point hnext => ?_⟩
        obtain ⟨hprocesses, before, hbefore⟩ := heffect.handles hnext
        rw [hprocesses] at hz
        cases hy.symm.trans hz
        exact hgoes k before hbefore
      obtain ⟨b, hb, hcourse⟩ := ih (hshows.setProgram p next) hcourse hprocess fun _ => by
        rw [List.getLast?_concat]
        rfl
      rw [List.append_assoc] at hcourse
      exact ⟨b, hb, hcourse⟩
    | wait next =>
      have hsuspend := hshows.suspend p next
      have hwaits : decide (s'.allowance = 0 ∧ a'.session.future = some p) =
          (decide (s'.allowance = 0) && decide (a'.session.future = some p)) := by
        rw [Bool.decide_and]
      rw [hwaits] at hsuspend
      refine ⟨_, hsuspend, ?_⟩
      rw [hshort _ rfl, Bool.not_false, Bool.and_true, ← List.append_assoc]
      refine course.waits _ hperforms ?_
      by_cases hspent : s'.allowance = 0
      · exact .inl (decide_eq_true hspent)
      · refine .inr fun z result hjoining => ?_
        rw [← h.program?]
        exact (step_waits hstep hjoining).resolve_left hspent result
    | done result =>
      refine ⟨_, hshows.finish p (some result), ?_⟩
      rw [hshort _ rfl, Bool.not_false, Bool.and_true, ← List.append_assoc]
      exact course.ends hperforms

/-- What the affairs come to in a turn. -/
lemma turn (h : s.Shows i c (a.drowse p)) (course : Course i c o whole none a accepted steps) (allowance n : Nat) :
    ∃ a', (s.turn p allowance (n + 1)).1.Shows i c a' ∧
      Course i c o (whole && !(s.turn p allowance (n + 1)).2.getLast?.any Step.goesOn) none a' accepted
        (steps ++ (s.turn p allowance (n + 1)).2) := by
  have hmisses (ended : ∀ x, a.processes[p]? = some x → x.program.isFinished = true) :
      Course i c o (whole && !([] : List Step).getLast?.any Step.goesOn) none (a.drowse p) accepted (steps ++ []) := by
    rw [List.append_nil, List.getLast?_nil, Option.any_none, Bool.not_false, Bool.and_true]
    exact course.misses p ended
  rw [System.turn]
  cases hx : s.processes[p]? with
  | none =>
    refine ⟨_, h, hmisses fun x hx' => ?_⟩
    cases (h.processes ▸ hx).symm.trans hx'
  | some x =>
    rw [h.processes] at hx
    dsimp only
    cases hfinished : x.program.isFinished with
    | true =>
      refine ⟨_, h, hmisses fun x' hx' => ?_⟩
      cases hx.symm.trans hx'
      exact hfinished
    | false =>
      cases hcancelled : x.cancelled with
      | true =>
        have hcancel := h.cancel p (course.staffed.serves p x hx).handover
        refine ⟨_, hcancel, ?_⟩
        rw [if_neg Bool.false_ne_true, if_pos rfl, List.getLast?_singleton, Option.any_some,
          show Step.goesOn ⟨s, x.program, s.cancel p x.program, none⟩ = false from rfl, Bool.not_false, Bool.and_true]
        exact course.stops p ⟨x, hx, rfl, hcancelled⟩ h hcancel rfl
      | false =>
        have hallowed : System.Shows { s with allowance } i c (a.drowse p) := h.frame rfl rfl rfl rfl fun _ => id
        have hbegins : Course i c o whole (some p) (a.drowse p) accepted (steps ++ []) := by
          rw [List.append_nil]
          exact course.begins p
        exact hallowed.run hbegins ⟨x, hx, fun _ _ _ => hcancelled⟩ (n + 1) fun h => by cases h

end Shows

end System

/-! ### Moves -/

open Opening (session channel)

/-- How the affairs of the session stand at first. -/
def Opening.affairs (service : Service) : Opening → Affairs
  | single name =>
    { session := { name, channel }
      contexts := [], processes := [{ program := .writer channel }], closed := false, sent := [], awake := false }
  | multi name limit =>
    { session := { name, channel, backlog := some { limit := max limit 1 }, future := some 1 }
      contexts := [], processes := [{ program := .writer channel }, { program := .worker session .choosing }]
      closed := false, sent := [], awake := true }
  | watched name limit =>
    if service.settings.sessionLifetime = 0 then
      { session := { name, channel, backlog := some { limit := max limit 1 }, future := some 1 }
        contexts := [], processes := [{ program := .writer channel }, { program := .worker session .choosing }]
        closed := false, sent := [], awake := true }
    else
      { session :=
          { name, channel, backlog := some { limit := max limit 1 }, future := some 1, cancelFuture := some 2 }
        contexts := []
        processes := [{ program := .writer channel }, { program := .worker session .choosing },
          { program := .lifetime session service.settings.sessionLifetime none }]
        closed := false, sent := [], awake := true }

namespace Opening

lemma opened (service : Service) (o : Opening) : (o.affairs service).Opened session channel := by
  cases o with
  | single name => exact .single name
  | multi name limit => exact .multi name (max limit 1)
  | watched name limit =>
    rw [affairs]
    split
    · exact .multi name (max limit 1)
    · exact .watched name (max limit 1) _

lemma shows (service : Service) (transport : Transport) (o : Opening) :
    (o.start service transport).Shows session channel (o.affairs service) := by
  have hmulti (name : String) (limit : Nat) : ((multi name limit).start service transport).Shows session channel
      ((multi name limit).affairs service) := by
    refine ⟨rfl, rfl, rfl, ⟨_, rfl, rfl, rfl⟩, fun _ e he => ?_⟩
    cases he
    exact .inl (List.mem_cons_of_mem _ (List.mem_singleton_self 1))
  cases o with
  | single name => exact ⟨rfl, rfl, rfl, ⟨_, rfl, rfl, rfl⟩, fun h => (by cases h)⟩
  | multi name limit => exact hmulti name limit
  | watched name limit =>
    change (((multi name limit).start service transport).armLifetime session).Shows session channel _
    have hservice : ((multi name limit).start service transport).service = service := rfl
    rw [System.armLifetime, hservice, affairs]
    by_cases hlifetime : service.settings.sessionLifetime = 0
    · rw [if_pos hlifetime, if_pos hlifetime]
      exact hmulti name limit
    · rw [if_neg hlifetime, if_neg hlifetime]
      refine ⟨rfl, rfl, rfl, ⟨_, rfl, rfl, rfl⟩, fun _ e he => ?_⟩
      cases he
      exact .inl (List.mem_cons_of_mem _ (List.mem_cons_self ..))

end Opening

namespace System.Shows

/-- A task is made of the next request. -/
lemma makeTask (h : s.Shows i c a) (r : Request) :
    (s.makeTask r c).1.Shows i c (a.addContext c r) ∧ (s.makeTask r c).2 = a.nextTask r := by
  refine ⟨⟨h.session, ?_, h.processes, h.channel, h.awake⟩, ?_⟩
  · rw [Affairs.addContext, ← h.contexts]
    rfl
  · rw [nextTask, ← h.contexts]
    rfl

/-- The process that executes the only task is started. -/
lemma engage (h : s.Shows i c a) (vacant : a.session.future = none) (t : Task) {s' : System} {p : ProcessId}
    (hs : (s.onSession i Session.stopAccepting).spawn (.single i (.start t)) = (s', p)) :
    (s'.onSession i fun x => (x.setHook .future p).toOption.getD x).Shows i c (a.engage i t) := by
  obtain ⟨hspawn, hp⟩ := (h.onSession Session.stopAccepting rfl).spawn (.single i (.start t))
  have hawake : p ∈ s'.ready := by
    rw [show p = ((s.onSession i Session.stopAccepting).spawn (.single i (.start t))).2 by rw [hs],
      show s' = ((s.onSession i Session.stopAccepting).spawn (.single i (.start t))).1 by rw [hs]]
    exact self_mem_ready_wake _ _
  rw [hs] at hspawn hp
  have hp : p = a.processes.length := hp
  refine ⟨?_, hspawn.contexts, hspawn.processes, hspawn.channel, fun _ e he => .inl ?_⟩
  · rw [System.onSession, List.getElem?_modify_eq, hspawn.session]
    have hhook : Session.setHook (Session.stopAccepting a.session) .future p =
        .ok { a.session with accepting := false, future := some p } := by
      have hvacant : (Session.stopAccepting a.session).hook? .future = none := vacant
      rw [Session.setHook, hvacant]
      rfl
    change some ((Session.setHook (Session.stopAccepting a.session) .future p).toOption.getD _) = _
    rw [hhook, hp]
    rfl
  · cases he
    exact hp ▸ hawake

/-- A task is submitted: it is accepted, or nothing becomes of it. -/
lemma submitTask (h : s.Shows i c a) (accepted : List Task) (staffed : a.Staffed i c) (r : Request) :
    (∃ s' b, (s.makeTask r c).1.submitTask i (a.nextTask r) = (s', .ok true) ∧ s'.Shows i c b ∧
      a.Outside i c accepted b (accepted ++ [a.nextTask r])) ∨
    ∃ answer, (s.makeTask r c).1.submitTask i (a.nextTask r) = ((s.makeTask r c).1, answer) ∧ answer ≠ .ok true := by
  obtain ⟨hmake, -⟩ := h.makeTask r
  generalize (s.makeTask r c).1 = s₀ at hmake ⊢
  have hsession : s₀.sessions[i]? = some a.session := hmake.session
  have outcome := s₀.submitTask_outcome i (a.nextTask r)
  generalize s₀.submitTask i (a.nextTask r) = z at outcome ⊢
  cases outcome with
  | strays | closed | full => exact .inr ⟨_, rfl, fun h => by cases h⟩
  | @engages x known accepting lone =>
    obtain rfl : x = a.session := Option.some.inj (known.symm.trans hsession)
    have vacant := staffed.vacant lone accepting
    exact .inl ⟨_, _, rfl, hmake.engage vacant (a.nextTask r) rfl, .engages r lone accepting vacant⟩
  | @enqueues x x' b known accepting many queued =>
    obtain rfl : x = a.session := Option.some.inj (known.symm.trans hsession)
    obtain ⟨room, rfl⟩ := Session.enqueue_eq_ok queued
    refine .inl ⟨_, (a.addContext c r).enqueue b (a.nextTask r), rfl, ?_, .enqueues r many accepting room⟩
    exact (hmake.onSession (fun _ =>
      { a.session with backlog := some { b with tasks := b.tasks ++ [a.nextTask r] } }) rfl).notify

/-- The processes that were set aside come back. -/
lemma bringBack (h : s.Shows i c a) : s.bringBack.Shows i c a := by
  have hasleep : System.Shows { s with aside := [] } i c { a with awake := false } :=
    ⟨h.session, h.contexts, h.processes, h.channel, fun h => (by cases h)⟩
  have hback := hasleep.wakeAll s.aside
  refine ⟨hback.session, hback.contexts, hback.processes, hback.channel, fun ha e he => .inl ?_⟩
  exact mem_ready_wakeAll _ (h.awake ha e he).symm

/-- The timers reach a time. -/
lemma ring (h : s.Shows i c a) (now : Nat) : (s.ring now).Shows i c a := by
  rw [System.ring]
  refine wakeAll ?_ _
  exact h.frame rfl rfl rfl rfl fun _ => id

/-- The transport changes. -/
lemma onTransport (h : s.Shows i c a) (f : Transport → Transport) : (s.onTransport c f).Shows i c a := by
  have hchange := h.onOutbound
    (fun x => { x with outbound := { x.outbound with transport := f x.outbound.transport } }) fun x => ⟨rfl, rfl⟩
  exact hchange.wakeAll _

/-- The session is to accept nothing more. -/
lemma closeMulti (h : s.Shows i c a) : (s.closeMulti i).Shows i c (a.onSession Session.stopAccepting).notify :=
  (h.onSession Session.stopAccepting rfl).notify

end System.Shows

namespace Chronicle

variable {h : Chronicle} {r : Request} {s' : System}

lemma next_accepted
    (hs : (h.system.makeTask r channel).1.submitTask session (h.system.makeTask r channel).2 = (s', .ok true)) :
    h.next (.submit r) = { h with
      system := s', accepted := h.accepted ++ [(h.system.makeTask r channel).2] } := by
  rw [next]
  generalize h.system.makeTask r channel = made at hs ⊢
  obtain ⟨s, t⟩ := made
  dsimp only at hs ⊢
  rw [hs]

lemma next_refused {answer : Except Error Bool} (refused : answer ≠ .ok true)
    (hs : (h.system.makeTask r channel).1.submitTask session (h.system.makeTask r channel).2 = (s', answer)) :
    h.next (.submit r) = { h with system := s' } := by
  rw [next]
  generalize h.system.makeTask r channel = made at hs ⊢
  obtain ⟨s, t⟩ := made
  dsimp only at hs ⊢
  rw [hs]
  cases answer with
  | error e => rfl
  | ok accepts =>
    cases accepts with
    | true => exact absurd rfl refused
    | false => rfl

/-- A move is something that happens from outside, or a turn. -/
lemma next_course (move : Move) (shows : h.system.Shows session channel a)
    (course : Course session channel o h.isWhole none a h.accepted h.steps) :
    ∃ b, (h.next move).system.Shows session channel b ∧
      Course session channel o (h.next move).isWhole none b (h.next move).accepted (h.next move).steps := by
  cases move with
  | submit r =>
    obtain ⟨hmake, htask⟩ := shows.makeTask r
    rcases shows.submitTask h.accepted course.staffed r with
      ⟨s', b, hsubmit, hshows, houtside⟩ | ⟨answer, hsubmit, hrefused⟩
    · rw [next_accepted (htask.symm ▸ hsubmit), htask]
      exact ⟨b, hshows, course.outside houtside⟩
    · rw [next_refused hrefused (htask.symm ▸ hsubmit)]
      exact ⟨_, hmake, course.outside (.declines r)⟩
  | timeout elapsed ofSession =>
    exact ⟨_, (shows.spawn (.timeout session elapsed ofSession .start)).1, course.outside (.timeout elapsed ofSession)⟩
  | close => exact ⟨_, shows.closeMulti, course.outside .closes⟩
  | turn p allowance more => exact (shows.drowse p).turn course allowance more
  | bringBack => exact ⟨a, shows.bringBack, course⟩
  | ring now => exact ⟨a, shows.ring now, course⟩
  | wait wall => exact ⟨a, shows.frame rfl rfl rfl rfl fun _ => id, course⟩
  | traffic f => exact ⟨_, (shows.spawn (.delivery channel (.parcel (.raw f)) .start)).1, course.outside (.traffic f)⟩
  | transport f => exact ⟨a, shows.onTransport f, course⟩

lemma play_course (moves : List Move) (shows : h.system.Shows session channel a)
    (course : Course session channel o h.isWhole none a h.accepted h.steps) :
    ∃ b, (h.play moves).system.Shows session channel b ∧
      Course session channel o (h.play moves).isWhole none b (h.play moves).accepted (h.play moves).steps := by
  induction moves generalizing h a with
  | nil => exact ⟨a, shows, course⟩
  | cons move moves ih =>
    obtain ⟨b, hshows, hcourse⟩ := next_course move shows course
    exact ih hshows hcourse

end Chronicle

/-- The history of a session that is opened on a server of its own. -/
def Opening.play (service : Service) (transport : Transport) (o : Opening) (moves : List Move) : Chronicle :=
  Chronicle.play { system := o.start service transport } moves

/-- After any moves the affairs of the session stand as in their course. -/
theorem Opening.course (service : Service) (transport : Transport) (o : Opening) (moves : List Move) :
    ∃ a, (o.play service transport moves).system.Shows session channel a ∧
      Course session channel (o.affairs service) (o.play service transport moves).isWhole none a
        (o.play service transport moves).accepted (o.play service transport moves).steps :=
  Chronicle.play_course moves (o.shows service transport) (.opens (o.opened service))

end GraphServer
