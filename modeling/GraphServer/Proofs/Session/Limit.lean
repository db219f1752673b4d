import GraphServer.Proofs.Server.Dossier
import GraphServer.Proofs.Session.Parting

/-!
The time limit of a task cuts the task, and nothing else.

* `Affairs.Parted.discharged`: a task that was parted from its handler is in nobody's hands any more;
* `System.stepsOf_next`: the worker begins the next task of its session in the same turn;
* `Step.Settles`: what the time limit of a task brings about;
* `Opening.undergo_limit`: **whatever happens after its time, a task under a time limit is settled in time**.
-/

namespace GraphServer

open Opening (session channel)

variable {i : SessionId} {c : ChannelId} {a : Affairs} {p : ProcessId} {k : ContextId} {t : Task} {d : Deadline} {s : System}
  {x y z : Step} {earlier later : List Step}

/-! ### Nobody's hands -/

/-- Whoever is to answer tasks brings the session to its end. -/
lemma TimeoutPoint.inCharge_of_tasks {point : TimeoutPoint} (busy : point.tasks ≠ []) : point.inCharge = true := by
  induction point with
  | answering rest => rfl
  | sending y next ih => exact ih busy
  | _ => exact absurd rfl busy

/-- A task that was parted from its handler is in nobody's hands any more. -/
lemma Affairs.Parted.discharged (parted : a.Parted Opening.session c t) (shows : s.Shows Opening.session c a) :
    s.Discharged t.context := by
  have staffed := parted.staffed
  refine ⟨shows.contexts ▸ parted.known, fun y hy => ?_, fun x hx => ?_⟩
  · rw [shows.processes] at hy
    obtain ⟨q, hq⟩ := List.mem_iff_getElem?.mp hy
    have serves := staffed.serves q y hq
    have concerns := serves.concerns
    have own := staffed.point?_eq hq
    have stands (executes : y.program.executes = true) : y.program.runPoint? = some .over :=
      (own executes).symm.trans parted.point
    have handles := serves.handler
    have charge := serves.charge
    generalize y.program = P at concerns stands handles charge ⊢
    cases P with
    | handler k point =>
      by_cases same : k = t.context
      · subst same
        refine .inr ⟨?_, point, rfl⟩
        by_contra goes
        cases parted.idle.symm.trans (handles _ point rfl (Bool.eq_false_iff.mpr goes))
      · exact .inl ⟨rfl, fun hk => same (List.mem_singleton.mp hk).symm⟩
    | single j point =>
      cases stands rfl
      exact .inl ⟨beq_iff_eq.mpr concerns, List.not_mem_nil⟩
    | worker j point =>
      cases point with
      | running point =>
        cases stands rfl
        exact .inl ⟨beq_iff_eq.mpr concerns, List.not_mem_nil⟩
      | _ => exact .inl ⟨beq_iff_eq.mpr concerns, List.not_mem_nil⟩
    | timeout j elapsed ofSession point =>
      refine .inl ⟨beq_iff_eq.mpr concerns, fun hk => ?_⟩
      have inCharge : point.inCharge = true := by
        refine TimeoutPoint.inCharge_of_tasks fun none_ => ?_
        rw [Program.contexts, none_] at hk
        exact List.not_mem_nil hk
      cases parted.inTime.symm.trans (charge j elapsed ofSession point rfl inCharge).2
    | lifetime j milliseconds due => exact .inl ⟨beq_iff_eq.mpr concerns, List.not_mem_nil⟩
    | connection n point => exact absurd concerns id
    | _ => exact .inl ⟨rfl, List.not_mem_nil⟩
  · cases hx.symm.trans shows.session
    rw [Session.contexts, parted.idle]
    exact parted.unqueued

/-- The only task of a session leaves no others behind. -/
lemma Affairs.Parted.backlog (parted : a.Parted i c t) {point : RunPoint} (place : a.program? p = some (.single i point)) :
    a.session.backlog = none := by
  obtain ⟨y, hy, program⟩ := Option.map_eq_some_iff.mp place
  exact (parted.staffed.serves p y hy).solo _ _ program

/-- Nothing is put into the queue for a task when nobody has to do with it any more. -/
lemma Step.IsPast.silent (past : z.IsPast k) (acts : z.context? = some k) (c : ChannelId) : z.put c = [] := by
  cases hturn : z.turn with
  | none => exact past.stops hturn c
  | some turn =>
    obtain ⟨home, spared⟩ := past.acts (by rw [hturn]; rfl)
    have tasks := past.before.tasks
    exfalso
    rw [Step.context?] at acts
    generalize z.program = P at home spared acts
    cases P with
    | handler j point =>
      cases acts
      exact spared (List.mem_singleton_self _)
    | timeout j elapsed ofSession point =>
      cases point with
      | start =>
        cases eq_of_beq home
        obtain ⟨f, hf, rfl⟩ := Option.map_eq_some_iff.mp acts
        obtain ⟨x, hx, hf⟩ := Option.bind_eq_some_iff.mp hf
        refine tasks x hx (List.mem_append_left _ ?_)
        rw [hf]
        exact List.mem_singleton_self _
      | answering rest =>
        cases rest with
        | nil => cases acts
        | cons u rest =>
          cases acts
          exact spared List.mem_cons_self
      | _ => cases acts
    | single j point =>
      obtain ⟨u, hu, rfl⟩ := Option.map_eq_some_iff.mp acts
      have stands : (Program.single j point).runPoint? = some point := rfl
      exact spared (Program.context_mem stands hu)
    | worker j point =>
      obtain ⟨u, hu, rfl⟩ := Option.map_eq_some_iff.mp acts
      obtain ⟨point', stands, hu⟩ := Option.bind_eq_some_iff.mp hu
      exact spared (Program.context_mem stands hu)
    | _ => cases acts

/-! ### The next task -/

namespace System

variable {s' : System} {P N : Program} {n : Nat}

lemma program?_goes (place : s.program? p = some P) (kept : s'.processes = s.processes) :
    (s'.setProgram p N).program? p = some N := by
  rw [program?_setProgram, if_pos rfl, program?, kept, ← program?, place]
  rfl

/-- In a turn that is not cut short, whoever goes on takes another step. -/
lemma stepsOf_goes (place : s.program? p = some P) (step : s.step p P = (s', .go N)) (goes : z.goesOn = true)
    (whole : (z :: stepsOf p n s).getLast?.any Step.goesOn = false) :
    ∃ m, stepsOf p n s = ⟨s, P, s', some (.go N)⟩ :: stepsOf p m (s'.setProgram p N) ∧
      (⟨s, P, s', some (.go N)⟩ :: stepsOf p m (s'.setProgram p N)).getLast?.any Step.goesOn = false := by
  cases n with
  | zero =>
    rw [stepsOf, List.getLast?_singleton, Option.any_some, goes] at whole
    cases whole
  | succ n =>
    rw [stepsOf, place] at whole ⊢
    dsimp only at whole ⊢
    rw [step] at whole ⊢
    rw [List.getLast?_cons_cons] at whole
    exact ⟨n, rfl, whole⟩

/-- The worker takes the first task that waits. -/
lemma step_choosing {x x' : Session} (known : s.sessions[i]? = some x) (dequeue : x.dequeue? = some (t, x')) :
    s.step p (.worker i .choosing) = (s.onSession i fun _ => x', .go (.worker i (.running (.start t)))) := by
  change liftTurn (s.stepWorker p i .choosing) (.worker i) = _
  rw [stepWorker, known]
  dsimp only
  rw [dequeue]
  rfl

/-- The worker begins the task that it took, unless the session was killed or its time is up. -/
lemma step_start {x : Session} (known : s.sessions[i]? = some x) (alive : x.killed = false) (inTime : x.timedOut = none) :
    ∃ s' h deadline, s.step p (.worker i (.running (.start t))) =
      (s', .go (.worker i (.running (.joining t h deadline)))) := by
  rw [step_eq_stepRun (w := fun point => .worker i (.running point)) (.inr rfl) (fun h => by cases h), stepRun, known]
  dsimp only
  rw [Session.begin_of_inTime alive inTime]
  exact ⟨_, _, _, rfl⟩

/-- The worker that is done with a task begins the next one in the same turn, unless that is cut short. -/
lemma stepsOf_next {x x' : Session} (place : s.program? p = some (.worker i (.running .over)))
    (known : s.sessions[i]? = some x) (alive : x.killed = false) (inTime : x.timedOut = none)
    (dequeue : x.dequeue? = some (t, x')) (goes : z.goesOn = true)
    (whole : (z :: stepsOf p n s).getLast?.any Step.goesOn = false) :
    ∃ u v w others, stepsOf p n s = u :: v :: w :: others ∧ w.begun? = some t ∧ w.before.now = s.now ∧
      w.before.sessions[i]? = some x' := by
  have leaves : s.step p (.worker i (.running .over)) = (s, .go (.worker i .choosing)) := rfl
  obtain ⟨n, hu, whole⟩ := stepsOf_goes place leaves goes whole
  have place := program?_goes (N := .worker i .choosing) place rfl
  generalize hs₁ : s.setProgram p (.worker i .choosing) = s₁ at hu whole place
  have known₁ : s₁.sessions[i]? = some x := by
    subst hs₁
    exact known
  obtain ⟨n, hv, whole⟩ := stepsOf_goes place (step_choosing known₁ dequeue) rfl whole
  have place : ((s₁.onSession i fun _ => x').setProgram p (.worker i (.running (.start t)))).program? p =
      some (.worker i (.running (.start t))) := program?_goes place rfl
  generalize hs₂ : (s₁.onSession i fun _ => x').setProgram p (.worker i (.running (.start t))) = s₂ at hv whole place
  have known₂ : s₂.sessions[i]? = some x' := by
    subst hs₂
    change (s₁.sessions.modify i _)[i]? = _
    rw [List.getElem?_modify_eq, known₁]
    rfl
  have now : s₂.now = s.now := by
    subst hs₂ hs₁
    rfl
  obtain ⟨b, rest, -, -, rfl⟩ := Session.dequeue?_eq_some dequeue
  obtain ⟨s₃, h, deadline, begins⟩ := step_start (p := p) (t := t) known₂ alive inTime
  obtain ⟨n, hw, -⟩ := stepsOf_goes place begins rfl whole
  exact ⟨_, _, _, _, by rw [hu, hv, hw], rfl, now, known₂⟩

end System

/-! ### Moves as incidents -/

lemma Chronicle.undergo_moves (h : Chronicle) (moves : List Move) : h.undergo (moves.map .move) = h.play moves :=
  List.foldl_map ..

lemma Chronicle.undergo_undergo (h : Chronicle) (incidents more : List Incident) :
    (h.undergo incidents).undergo more = h.undergo (incidents ++ more) :=
  (List.foldl_append ..).symm

/-! ### The time limit -/

/-- What becomes of a task under a time limit: its execution goes on from the handler with the step `y`, after the steps
`earlier` since it was begun, and `later` are the steps after that. -/
structure Step.Settles (i : SessionId) (c : ChannelId) (t : Task) (d : Deadline) (earlier : List Step) (y : Step)
    (later : List Step) : Prop where
  /-- Before, only what the handler asks for is put into the queue for the task. -/
  asked : ∀ x ∈ earlier, x.context? = some t.context → x.Asks c t.context t.request.id
  inTime : ∀ x ∈ earlier, x.before.now ≤ d.due
  context : y.context? = some t.context
  /-- The last response is put into the queue unless one is there. -/
  answers : ∃ last, Verdict t d earlier y.before.now last ∧
    y.put c = if Sent.answers (Step.frames c t.context earlier) = [] then [.response last] else []
  /-- The session only has the task no longer in flight. -/
  lands : ∃ s, y.before.sessions[i]? = some s ∧ y.after.sessions[i]? = some { s with inFlight := none }
  /-- Afterwards nothing is put into the queue for the task, and its handler takes no step. -/
  silent : Step.frames c t.context later = []
  unpolled : ∀ x ∈ later, ∀ point, x.program = .handler t.context point → x.turn = none
  /-- The next task that waits is begun at once. -/
  goesOn : ∀ s b next rest, y.after.sessions[i]? = some s → s.backlog = some b → b.tasks = next :: rest →
    ∃ u v w others, later = u :: v :: w :: others ∧ w.begun? = some next ∧ w.before.now = y.before.now ∧
      w.before.sessions[i]? = some { s with backlog := some { b with tasks := rest } }

namespace Chronicle

variable {h : Chronicle} {before first : List Step} {incidents : List Incident}

/-- Whatever happens after its execution went on from the handler, the task is settled. -/
lemma undergo_settles (steps : (h.undergo incidents).steps = h.steps ++ (first ++ y :: later))
    (parts : y.Parts session channel t d earlier) (whole : (h.undergo incidents).isWhole = true) (more : List Incident) :
    ∃ later, ((h.undergo incidents).undergo more).steps = h.steps ++ (first ++ y :: later) ∧
      y.Settles session channel t d earlier later := by
  obtain ⟨w, q, hw, program, turn⟩ := parts.leaves
  obtain ⟨x, b, known, lands, parted, stands⟩ := parts.stands
  obtain ⟨h', rest, p, m, same, taken, steps', ran, last⟩ := undergo_append steps turn
  have goes : y.goesOn = true := by rw [Step.goesOn, turn]
  have next : y.next = w .over := by rw [Step.next, turn]; rfl
  obtain ⟨shows, place⟩ := stands p taken
  rw [next] at shows place
  rw [← shows.program?] at place
  have discharged := parted.discharged shows
  have spares (P : Program) (hP : (y.after.setProgram p (w .over)).program? p = some P) : P.Spares t.context := by
    cases place.symm.trans hP
    rcases hw with rfl | rfl <;> exact ⟨beq_self_eq_true session, List.not_mem_nil⟩
  have settled : h'.system.Discharged t.context := ran ▸ discharged.run spares m
  obtain ⟨after, hafter, past⟩ := undergo_discharged settled (rest ++ more)
  have all (z : Step) (hz : z ∈ System.stepsOf p m (y.after.setProgram p (w .over)) ++ after) : z.IsPast t.context :=
    (List.mem_append.mp hz).elim (fun hz => discharged.mem_stepsOf spares hz) (past z)
  have landed : y.after.sessions[session]? = some { x with inFlight := none } := lands ▸ shows.session
  refine ⟨System.stepsOf p m (y.after.setProgram p (w .over)) ++ after, ?_, parts.asked, parts.inTime, ?_, parts.answers,
    ⟨x, known, landed⟩, Step.frames_eq_nil fun z hz acts => (all z hz).silent acts channel, ?_, ?_⟩
  · rw [same, undergo_undergo, hafter, steps']
    simp only [List.append_assoc, List.cons_append]
  · rw [Step.context?, program]
    rcases hw with rfl | rfl <;> rfl
  · intro z hz point handles
    by_contra acts
    have spared := ((all z hz).acts (Option.isSome_iff_ne_none.mpr acts)).2
    rw [handles] at spared
    exact spared (List.mem_singleton_self _)
  · intro s queue u others hs backlog tasks
    cases landed.symm.trans hs
    have dequeue : Session.dequeue? { x with inFlight := none } = some (u, { x with
        inFlight := none, backlog := some { queue with tasks := others } }) := by
      rw [Session.dequeue?, backlog]
      dsimp only
      rw [tasks]
    obtain rfl | rfl := hw
    · have solo := parted.backlog (shows.program? p ▸ place)
      rw [lands] at solo
      cases solo.symm.trans backlog
    · rw [same] at whole
      obtain ⟨-, -, wholes⟩ := h'.undergo_grows rest
      obtain ⟨z₁, z₂, z₃, others', hsteps, begins, now, queued⟩ :=
        System.stepsOf_next place landed (lands ▸ parted.staffed.alive) (lands ▸ parted.inTime) dequeue goes
          (last (wholes whole))
      refine ⟨z₁, z₂, z₃, others' ++ after, by rw [hsteps]; rfl, begins, now.trans ?_, queued⟩
      obtain ⟨-, turn', -, hstep⟩ := taken
      have changes := System.Changes.step y.before p y.program
      rw [hstep] at changes
      exact changes.now

/-- What has become of a task under a time limit, given the steps since it was begun. -/
inductive Limits (h : Chronicle) (t : Task) (d : Deadline) (after : List Step) : Prop
  /-- It is in flight. The time limit is not passed, and when it is reached somebody has still to take a turn. -/
  | runs (inFlight : ∃ s q, h.system.sessions[session]? = some s ∧ s.inFlight = some ⟨t.context, q⟩)
    (asked : ∀ x ∈ after, x.context? = some t.context → x.Asks channel t.context t.request.id)
    (inTime : h.system.now ≤ d.due)
    (early : h.system.isIdle = true → h.system.now < d.due)
  | settles (earlier : List Step) (y : Step) (later : List Step) (steps : after = earlier ++ y :: later)
    (settles : y.Settles session channel t d earlier later)

end Chronicle

/-- **A time limit cuts its own task and nothing else.** A task is begun with the step `x` under a time limit, no turn is cut
short, nothing waits for a queue or is refused there, no time passes over an alarm, and nobody else declares a time to be up
before the time limit is over. Then responses are put into the queue for the requests of the tasks acted for alone, and the
task is settled when its time limit is reached, unless the moves end before; whatever happens later, the end of the session
by force included, does not matter to it. -/
theorem Opening.undergo_limit (service : Service) (transport : Transport) (o : Opening) (moves : List Move)
    (rest : List Incident) {before after : List Step} {budget : Nat}
    (timely : Chronicle.IsTimely { system := o.start service transport } moves)
    (whole : (o.play service transport moves).isWhole = true)
    (smooth : ∀ z ∈ (o.play service transport moves).steps, z.IsSmooth channel)
    (steps : (o.play service transport moves).steps = before ++ x :: after) (begins : x.begun? = some t)
    (limit : t.request.budget x.before.service.settings.evaluationTimeout = some budget)
    (calm : ∀ z ∈ after, z.declares = true → x.before.now + budget < z.before.now)
    (ripe : rest = [] ∨ x.before.now + budget < (o.play service transport moves).system.now) :
    (∀ z ∈ (o.play service transport moves).steps, z.IsAttributed channel) ∧
      ∃ later, ((o.play service transport moves).undergo rest).steps = before ++ x :: later ∧
        ((o.play service transport moves).undergo rest).Limits t ⟨budget, x.before.now + budget⟩ later := by
  obtain ⟨a, shows, course⟩ := o.course service transport moves
  have punctual := o.play_punctual service transport moves timely
  have undergone : o.play service transport moves =
      Chronicle.undergo { system := o.start service transport } (moves.map .move) := (Chronicle.undergo_moves _ moves).symm
  have taken : ∀ z ∈ (o.play service transport moves).steps, z.turn = none ∨ ∃ p, z.IsTaken p := by
    rw [undergone]
    exact Chronicle.undergo_taken (fun z hz => absurd hz List.not_mem_nil) _
  have regular (z : Step) (hz : z ∈ (o.play service transport moves).steps) : z.IsRegular channel :=
    ⟨smooth z hz, taken z hz, punctual.steps z hz⟩
  refine ⟨fun z hz => course.attributed taken z hz (Option.isNone_iff_eq_none.mp (smooth z hz).1), ?_⟩
  cases course.fares regular rfl begins limit steps calm with
  | engaged h engaged =>
    have inTime := engaged.now_le shows punctual.now
    obtain rfl : rest = [] := ripe.resolve_right (Nat.not_lt.mpr inTime)
    refine ⟨after, steps, .runs ⟨a.session, h, shows.session, engaged.inFlight⟩ engaged.asked inTime fun idle => ?_⟩
    obtain ⟨e, P, -, hP, hpoint⟩ := engaged.executor
    obtain ⟨y, hy, rfl⟩ := Option.map_eq_some_iff.mp hP
    refine punctual.now.early idle (shows.processes ▸ hy) ?_
    rw [Program.deadline?, hpoint]
    rfl
  | parted earlier y later hafter parts =>
    subst hafter
    rw [undergone] at steps whole ⊢
    have around : (Chronicle.undergo { system := o.start service transport } (moves.map .move)).steps =
        [] ++ ((before ++ x :: earlier) ++ y :: later) := by
      rw [steps, List.nil_append, List.append_assoc, List.cons_append]
    obtain ⟨later', steps', settles⟩ := Chronicle.undergo_settles around parts whole rest
    refine ⟨earlier ++ y :: later', ?_, .settles earlier y later' rfl settles⟩
    rw [steps', List.nil_append, List.append_assoc, List.cons_append]

namespace Opening

/-- A service whose handlers sleep beyond the time limit of their tasks. -/
def oversleeping : Service where
  settings := { evaluationTimeout := 20 }
  ops := OpRegistry.register {} ⟨"", "eval"⟩ fun _ => .sleep 30 (.once (.complete (.int 1)))

/-- The first of two tasks is begun, its time limit is reached, and the worker goes on with the second one. -/
def twoOverslept : List Move :=
  [.submit ⟨.nil, "eval", "", .empty⟩, .submit ⟨.nil, "eval", "", .empty⟩, .turn 0 9 9, .turn 1 9 9, .turn 2 9 9, .ring 20,
    .turn 1 9 9, .turn 2 9 9, .turn 3 9 9, .turn 0 9 9, .ring 25]

/-- The first of them is settled, although the session is killed afterwards. -/
theorem undergo_limit_twoOverslept :
    let h := (multi "s" 2).play oversleeping {} twoOverslept
    ∃ before x after t, h.steps = before ++ x :: after ∧ x.begun? = some t ∧ x.before.now = 0 ∧
      ∃ earlier y later, (h.undergo [.kill]).steps = before ++ x :: (earlier ++ y :: later) ∧
        y.Settles session channel t ⟨20, 20⟩ earlier later := by
  intro h
  have facts : Chronicle.IsTimely { system := (multi "s" 2).start oversleeping {} } twoOverslept ∧ h.isWhole = true ∧
      (∀ z ∈ h.steps, z.IsSmooth channel) ∧ (∀ z ∈ h.steps.drop 3, z.declares = false) ∧ h.system.now = 25 := by
    decide +kernel
  obtain ⟨timely, whole, smooth, calm, now⟩ := facts
  have begun : (h.steps[2]?.any fun x => x.before.now == 0 &&
      (x.begun?.bind fun t => t.request.budget x.before.service.settings.evaluationTimeout) == some 20) = true := by
    decide +kernel
  obtain ⟨x, hx, begun⟩ := (Option.any_eq_true _ _).mp begun
  rw [Bool.and_eq_true, beq_iff_eq, beq_iff_eq] at begun
  obtain ⟨starts, begun⟩ := begun
  obtain ⟨t, begins, limit⟩ := Option.bind_eq_some_iff.mp begun
  have steps : h.steps = h.steps.take 2 ++ x :: h.steps.drop 3 := Step.eq_take_append_drop hx
  have ripe : x.before.now + 20 < h.system.now := by omega
  obtain ⟨-, later, steps', limits⟩ := undergo_limit oversleeping {} (multi "s" 2) twoOverslept [.kill] timely whole smooth
    steps begins limit (fun z hz declares => by cases (calm z hz).symm.trans declares) (.inr ripe)
  refine ⟨_, x, _, t, steps, begins, starts, ?_⟩
  rw [starts, Nat.zero_add] at limits
  cases limits with
  | runs inFlight asked inTime early =>
    have now' : (h.undergo [.kill]).system.now = 25 := by decide +kernel
    rw [now'] at inTime
    exact absurd inTime (by decide)
  | settles earlier y later steps settles =>
    exact ⟨earlier, y, later, steps ▸ steps', settles⟩

/-- A service whose handlers give up at once under the status of a time limit, and return. -/
def quitting : Service where
  settings := { evaluationTimeout := 50 }
  ops := OpRegistry.register {} ⟨"", "eval"⟩ fun _ => .once (.fail .requestTimeout "x")

/-- A task is begun, and its handler gives up and returns. -/
def oneQuit : List Move :=
  [.submit ⟨.nil, "eval", "", .empty⟩, .turn 0 9 9, .turn 1 9 9, .turn 2 9 9, .turn 1 9 9]

/-- A handler that returns before the time limit can ask for a response with the status of a time limit itself. -/
theorem play_limit_oneQuit :
    let h := (single "s").play quitting {} oneQuit
    Chronicle.IsTimely { system := (single "s").start quitting {} } oneQuit ∧ h.isWhole = true ∧
      (∀ z ∈ h.steps, z.IsSmooth channel) ∧ (∀ z ∈ h.steps, z.declares = false) ∧
      ∃ before x after t, h.steps = before ++ x :: after ∧ x.begun? = some t ∧ x.before.now = 0 ∧
        t.request.budget x.before.service.settings.evaluationTimeout = some 50 ∧
        (∃ z ∈ after, ∃ result, z.Returns t.context result ∧ z.before.now = 0) ∧
        ∃ r, .response r ∈ Step.frames channel t.context after ∧ r.request = some t.request.id ∧
          r.status = .requestTimeout := by
  intro h
  have facts : Chronicle.IsTimely { system := (single "s").start quitting {} } oneQuit ∧ h.isWhole = true ∧
      (∀ z ∈ h.steps, z.IsSmooth channel) ∧ (∀ z ∈ h.steps, z.declares = false) := by decide +kernel
  have begun : (h.steps[1]?.any fun x => x.before.now == 0 && x.begun?.any fun t => t.context == 0 && t.request.id == .nil &&
      t.request.budget x.before.service.settings.evaluationTimeout == some 50) = true := by decide +kernel
  have returned : ((h.steps.drop 2).any fun z => z.before.now == 0 && z.program.handles? == some 0 &&
      z.turn.any (·.point?.isNone)) = true := by decide +kernel
  have asked : ((Step.frames channel 0 (h.steps.drop 2)).any fun m => m.answer?.any fun r =>
      r.request == some .nil && r.status == .requestTimeout) = true := by decide +kernel
  obtain ⟨timely, whole, smooth, calm⟩ := facts
  obtain ⟨x, hx, begun⟩ := (Option.any_eq_true _ _).mp begun
  obtain ⟨starts, begun⟩ := Bool.and_eq_true_iff.mp begun
  obtain ⟨t, begins, begun⟩ := (Option.any_eq_true _ _).mp begun
  rw [Bool.and_eq_true, Bool.and_eq_true, beq_iff_eq, beq_iff_eq, beq_iff_eq] at begun
  obtain ⟨⟨context, request⟩, limit⟩ := begun
  have steps : h.steps = h.steps.take 1 ++ x :: h.steps.drop 2 := Step.eq_take_append_drop hx
  refine ⟨timely, whole, smooth, calm, h.steps.take 1, x, h.steps.drop 2, t, steps, begins, beq_iff_eq.mp starts, limit,
    ?_, ?_⟩
  · obtain ⟨z, hz, returned⟩ := List.any_eq_true.mp returned
    rw [Bool.and_eq_true, Bool.and_eq_true, beq_iff_eq, beq_iff_eq] at returned
    obtain ⟨⟨now, handles⟩, returned⟩ := returned
    obtain ⟨point, program⟩ : ∃ point, z.program = .handler 0 point := by
      generalize z.program = P at handles
      cases P with
      | handler k point =>
        cases handles
        exact ⟨point, rfl⟩
      | _ => cases handles
    obtain ⟨turn, hturn, ends⟩ := (Option.any_eq_true _ _).mp returned
    cases turn with
    | done result => exact ⟨z, hz, result, ⟨hturn, point, context ▸ program⟩, now⟩
    | _ => cases ends
  · obtain ⟨m, hm, answers⟩ := List.any_eq_true.mp asked
    obtain ⟨r, hr, asked⟩ := (Option.any_eq_true _ _).mp answers
    rw [Bool.and_eq_true, beq_iff_eq, beq_iff_eq] at asked
    obtain ⟨rfl, -⟩ := Sent.eq_response_of_answer? hr
    exact ⟨r, context ▸ hm, request ▸ asked.1, asked.2⟩

end Opening

end GraphServer
