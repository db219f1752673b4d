import GraphServer.Proofs.Session.Shift

/-!
The steps in which a handler is started, and all others.

* `Affairs.Calm`: a step in which no handler is started;
* `Affairs.Launches`: a step in which one is, before the time of the session is up;
* `Affairs.Effect.calm_or_launches`: **every step is one of the two**, unless a task is begun too late;
* `Affairs.Calm.started`, `Affairs.Launches.started`: which handlers are started in it.
-/

namespace GraphServer

/-- Whether the tasks that wait are to be taken because the time is up. -/
def Program.drains : Program → Bool
  | timeout _ _ _ .draining => true
  | _ => false

namespace Affairs

variable {i : SessionId} {c : ChannelId} {a a' b : Affairs} {p : ProcessId} {program : Program} {turn : Turn Program}
  {x : Process}

/-- A step in which no handler is started. -/
structure Calm (a : Affairs) (program : Program) (a' : Affairs) (turn : Turn Program) : Prop where
  programs : a'.programs = a.programs
  inFlight : ∀ f, a'.session.inFlight = some f → a.session.inFlight = some f
  limit : a'.session.backlog.map (·.limit) = a.session.backlog.map (·.limit)
  suffix : a'.queue <:+ a.queue
  /-- While the time is not up, no task leaves the hands of the process and of the session. -/
  hands : a.session.timedOut = none → a'.session.timedOut = none →
    program.tasks ++ a.queue = turn.program.tasks ++ a'.queue
  /-- A task is only taken from those that wait, by the process that executes them. -/
  takes : turn.program.executes = true → program.executes = true ∧ (turn.program.tasks = [] ∨ a.queue ≠ [])
  drains : program.drains = true → a'.queue = [] ∧ ∃ next, turn = .go next
  expires : a.session.timedOut = none → a'.session.timedOut.isSome = true → turn.program.answer? = none →
    turn.program.drains = true

/-- A step in which the handler of a task is started. -/
structure Launches (t : Task) (a : Affairs) (program : Program) (a' : Affairs) (turn : Turn Program) : Prop where
  tasks : program.tasks = [t]
  inTime : a.session.timedOut = none
  processes : ∃ handler, a'.processes = a.processes ++ [{ program := .handler t.context (.ready handler) }]
  session : a'.session = { a.session with inFlight := some ⟨t.context, a.processes.length⟩ }
  empty : turn.program.tasks = []

/-! ### Calm steps -/

namespace Calm

/-- A step in which all tasks stay where they are. -/
lemma steady (programs : ∀ q, a'.program? q = a.program? q)
    (inFlight : a'.session.inFlight = a.session.inFlight ∨ a'.session.inFlight = none)
    (limit : a'.session.backlog.map (·.limit) = a.session.backlog.map (·.limit)) (queue : a'.queue = a.queue)
    (timedOut : a'.session.timedOut = a.session.timedOut)
    (tasks : a.session.timedOut = none → program.tasks = turn.program.tasks)
    (empty : turn.program.executes = true → program.executes = true ∧ turn.program.tasks = []) (drains : program.drains = false) :
    Calm a program a' turn where
  programs := programs_congr programs
  inFlight f hf := by
    rcases inFlight with h | h
    · exact h.symm.trans hf
    · cases h.symm.trans hf
  limit := limit
  suffix := queue ▸ List.suffix_rfl
  hands hbefore _ := by rw [tasks hbefore, queue]
  takes hexecutes := (empty hexecutes).imp id .inl
  drains h := by cases drains.symm.trans h
  expires hbefore hafter := by
    rw [timedOut, hbefore] at hafter
    cases hafter

/-- The same, when the session is as it was or its task has landed. -/
lemma of_session (programs : ∀ q, a'.program? q = a.program? q)
    (session : a'.session = a.session ∨ a'.session = a.land.session)
    (tasks : a.session.timedOut = none → program.tasks = turn.program.tasks)
    (empty : turn.program.executes = true → program.executes = true ∧ turn.program.tasks = []) (drains : program.drains = false) :
    Calm a program a' turn := by
  have hqueue : a'.queue = a.queue := by rcases session with h | h <;> (rw [Affairs.queue, Affairs.queue, h]; try rfl)
  refine steady programs ?_ ?_ hqueue ?_ tasks empty drains
  · rcases session with h | h
    · exact .inl (by rw [h])
    · exact .inr (by rw [h]; rfl)
  · rcases session with h | h <;> (rw [h]; try rfl)
  · rcases session with h | h <;> (rw [h]; try rfl)

end Calm

/-! ### The execution of tasks -/

/-- A step of the execution of a task that was begun. -/
lemma RunStep.calm {w : RunPoint → Program} (hw : Executes i w) {point : RunPoint} {turn : Turn RunPoint}
    (step : a.RunStep c point a' turn) (begun : ∀ t, point ≠ .start t) :
    Calm a (w point) a' (turn.map w) := by
  have hdrains (point : RunPoint) : (w point).drains = false := by
    rcases hw with rfl | rfl <;> rfl
  have hlast (t : Transit) : (w point).tasks = (t.lastWords.map w).program.tasks := by
    rw [hw.tasks point begun, (hw.lastWords t).1]
  cases step with
  | begins t handler deadline inTime => exact absurd rfl (begun t)
  | refuses t handler late answers => exact absurd rfl (begun t)
  | stopped t deadline ended =>
    exact .of_session (fun _ => rfl) (.inr rfl) (fun _ => hlast (.done (.ok ())))
      (fun _ => ⟨hw.executes _, (hw.lastWords (.done (.ok ()))).1⟩) (hdrains _)
  | returned t deadline ended answers =>
    obtain ⟨hsession, hprocesses⟩ := answers.frame
    exact .of_session (program?_congr hprocesses) (.inr hsession) (fun _ => hlast _)
      (fun _ => ⟨hw.executes _, (hw.lastWords _).1⟩) (hdrains _)
  | expires t h deadline budget interrupts =>
    obtain ⟨hsession, hprograms⟩ := interrupts.frame
    exact .of_session hprograms (.inr hsession) (fun _ => hlast _) (fun _ => ⟨hw.executes _, (hw.lastWords _).1⟩) (hdrains _)
  | waits t h deadline =>
    exact .of_session (fun _ => rfl) (.inl rfl) (fun _ => rfl) (fun _ => ⟨hw.executes _, hw.tasks _ begun⟩) (hdrains _)
  | mails h mails =>
    obtain ⟨hsession, hprocesses, -⟩ := mails.frame
    exact .of_session (program?_congr hprocesses) (.inl hsession) (fun _ => hlast _)
      (fun _ => ⟨hw.executes _, (hw.lastWords _).1⟩) (hdrains _)

/-- A task is begun while the time of the session is not up. -/
lemma RunStep.launches {w : RunPoint → Program} (hw : Executes i w) {t : Task} {turn : Turn RunPoint}
    (step : a.RunStep c (.start t) a' turn) (inTime : a.session.timedOut = none) :
    Launches t a (w (.start t)) a' (turn.map w) := by
  cases step with
  | begins t handler deadline inTime =>
    exact ⟨hw.tasks_start t, inTime, ⟨handler, rfl⟩, rfl, hw.tasks _ fun _ h => by cases h⟩
  | refuses t handler late answers => cases inTime.symm.trans late

/-- The end of the process that executes the tasks. -/
lemma Calm.ends (a : Affairs) (tasks : program.tasks = []) (drains : program.drains = false)
    (result : Except Error Unit) : Calm a program (a.onSession Session.finish).disarm (.done result) := by
  have hsession := Staffed.disarm_session (a.onSession Session.finish)
  refine .steady (fun q => ?_) ?_ ?_ ?_ ?_ (fun _ => tasks) (fun h => by cases h) drains
  · exact Staffed.program?_disarm ..
  · rw [hsession]
    exact .inl rfl
  · rw [hsession]
    rfl
  · rw [queue, hsession]
    rfl
  · rw [hsession]
    rfl

/-- A step of the worker, unless it begins a task. -/
lemma WorkerStep.calm {point : WorkerPoint} {turn : Turn WorkerPoint} (step : a.WorkerStep c point a' turn)
    (begun : ∀ t, point ≠ .running (.start t)) : Calm a (.worker i point) a' (turn.map (.worker i)) := by
  cases step with
  | @takes t _ some =>
    have hqueue := queue_of_dequeue? some
    obtain ⟨b, rest, hbacklog, -, rfl⟩ := Session.dequeue?_eq_some some
    refine ⟨rfl, fun f => id, ?_, ?_, fun _ _ => hqueue, fun _ => ⟨rfl, .inr ?_⟩, fun h => (by cases h), fun h h' => ?_⟩
    · rw [hbacklog]
      rfl
    · rw [hqueue]
      exact List.suffix_cons ..
    · rw [hqueue]
      exact List.cons_ne_nil _ _
    · change a.session.timedOut.isSome = true at h'
      rw [h] at h'
      cases h'
  | rests none accepting =>
    exact .of_session (fun _ => rfl) (.inl rfl) (fun _ => rfl) (fun _ => ⟨rfl, rfl⟩) rfl
  | ends none closed => exact .ends a rfl rfl _
  | hears notified =>
    refine .steady (fun _ => rfl) (.inl rfl) ?_ (queue_setNotified a false) rfl (fun _ => rfl) (fun _ => ⟨rfl, rfl⟩) rfl
    change (a.session.backlog.map _).map _ = _
    rw [Option.map_map]
    rfl
  | waits unnotified => exact .of_session (fun _ => rfl) (.inl rfl) (fun _ => rfl) (fun _ => ⟨rfl, rfl⟩) rfl
  | leaves => exact .of_session (fun _ => rfl) (.inl rfl) (fun _ => rfl) (fun _ => ⟨rfl, rfl⟩) rfl
  | runs step =>
    have hcalm := step.calm (i := i) (w := fun point => .worker i (.running point)) (.inr rfl) fun t h => begun t (h ▸ rfl)
    rename_i turn
    cases turn <;> exact hcalm

/-! ### Time -/

/-- A step of the end of the time of the session or of a task. -/
lemma TimeoutStep.calm {elapsed : Nat} {ofSession : Bool} {point : TimeoutPoint} {turn : Turn TimeoutPoint}
    (step : a.TimeoutStep c elapsed ofSession point a' turn)
    (charge : point.inCharge = true → a.session.timedOut = some elapsed) :
    Calm a (.timeout i elapsed ofSession point) a' (turn.map (.timeout i elapsed ofSession)) := by
  have haside {next : TimeoutPoint} {P : Prop} (h : (Program.timeout i elapsed ofSession next).executes = true) : P := by
    cases h
  have hcharged (hpoint : point.inCharge = true) (hbefore : a.session.timedOut = none) : False := by
    cases (charge hpoint).symm.trans hbefore
  cases step with
  | late kind late => exact .of_session (fun _ => rfl) (.inl rfl) (fun _ => rfl) haside rfl
  | @expires kind inTime _ t interrupts =>
    obtain ⟨hsession, hprograms⟩ := interrupts.frame
    obtain ⟨r, hconcludes, hcarries⟩ := interrupts.carries
    refine ⟨programs_congr hprograms, fun f hf => ?_, ?_, ?_, fun _ h => ?_, fun h => ?_, fun h => (by cases h),
      fun _ _ hsilent => ?_⟩
    · rw [hsession] at hf
      cases hf
    · rw [hsession]
      rfl
    · rw [queue, hsession]
      exact List.suffix_rfl
    · rw [hsession] at h
      cases h
    · cases t <;> cases h
    · cases t with
      | done result => rfl
      | waiting y =>
        -- it would wait with the last response of the task in flight
        change (y.parcel.meaning.bind Sent.answer?) = none at hsilent
        rw [(hcarries y rfl).2, Option.bind_some, Sent.answer?, if_pos hconcludes] at hsilent
        cases hsilent
  | @interrupts kind _ t interrupts =>
    obtain ⟨hsession, hprograms⟩ := interrupts.frame
    refine .of_session hprograms (.inr hsession) (fun _ => ?_) (fun h => ?_) rfl
    · cases t <;> rfl
    · cases t <;> cases h
  | drains =>
    obtain ⟨backlog, hdrain, -, hempty⟩ := drain_snd a.session
    have hflight : a.session.drain.2.inFlight = a.session.inFlight := by rw [hdrain]
    have hqueue : Affairs.queue { a with session := a.session.drain.2 } = [] := by
      rw [queue, hdrain]
      exact hempty
    have hlimit : a.session.drain.2.backlog.map (·.limit) = a.session.backlog.map (·.limit) := by
      rw [Session.drain_snd, Option.map_map]
      rfl
    refine ⟨rfl, fun f hf => hflight.symm.trans hf, hlimit, ?_, fun h _ => (hcharged rfl h).elim, fun h => (by cases h),
      fun _ => ⟨hqueue, _, rfl⟩, fun h _ => (hcharged rfl h).elim⟩
    rw [hqueue]
    exact List.nil_suffix
  | @answers t rest _ x answers =>
    obtain ⟨hsession, hprocesses⟩ := answers.frame
    refine .of_session (program?_congr hprocesses) (.inl hsession) (fun h => (hcharged rfl h).elim) (fun h => ?_) rfl
    · cases x <;> cases h
  | notifies =>
    refine .steady (fun _ => rfl) (.inl rfl) ?_ (queue_setNotified a true) rfl (fun _ => rfl) haside rfl
    change (a.session.backlog.map _).map _ = _
    rw [Option.map_map]
    rfl
  | @closes _ x closes =>
    obtain ⟨hsession, hprocesses, -⟩ := closes.frame
    refine .of_session (program?_congr hprocesses) (.inl hsession) (fun h => (hcharged rfl h).elim) (fun h => ?_) rfl
    · cases x <;> cases h
  | disarms =>
    exact .of_session (fun q => Staffed.program?_disarm ..) (.inl (Staffed.disarm_session a)) (fun _ => rfl) haside rfl
  | @mails y next _ x mails =>
    obtain ⟨hsession, hprocesses, -⟩ := mails.frame
    refine .of_session (program?_congr hprocesses) (.inl hsession) (fun _ => ?_) (fun h => ?_) rfl
    · cases x <;> rfl
    · cases x <;> cases h
  | leaves => exact .of_session (fun _ => rfl) (.inl rfl) (fun _ => rfl) (fun h => by cases h) rfl

/-! ### Handlers -/

/-- A step of a handler. -/
lemma HandlerStep.calm {k : ContextId} {point : HandlerPoint} {turn : Turn HandlerPoint}
    (step : a.HandlerStep c k point a' turn) : Calm a (.handler k point) a' (turn.map (.handler k)) := by
  refine .of_session (program?_congr step.processes) (.inl step.session) (fun _ => ?_) (fun h => ?_) rfl
  · cases turn <;> rfl
  · cases turn <;> cases h

/-! ### Every step -/

/-- Every step of a process is calm, unless it begins a task. -/
lemma Effect.calm (effect : a.Effect c i program a' turn)
    (begun : ∀ t, program ≠ .worker i (.running (.start t)) ∧ program ≠ .single i (.start t))
    (charge : ∀ elapsed ofSession point, program = .timeout i elapsed ofSession point → point.inCharge = true →
      a.session.timedOut = some elapsed) : Calm a program a' turn := by
  cases effect with
  | handler k step =>
    have hcalm := step.calm
    rename_i turn
    cases turn <;> exact hcalm
  | single step =>
    cases step with
    | ends => exact .ends a rfl rfl _
    | runs step =>
      have hcalm := step.calm (w := .single i) (.inl rfl) fun t h => (begun t).2 (h ▸ rfl)
      rename_i turn
      cases turn <;> exact hcalm
  | worker step => exact step.calm fun t h => (begun t).1 (h ▸ rfl)
  | timeout elapsed ofSession step => exact step.calm (charge elapsed ofSession _ rfl)
  | writes channel turn => cases turn <;> exact .of_session (fun _ => rfl) (.inl rfl) (fun _ => rfl) (fun h => by cases h) rfl
  | delivers d point mails =>
    rename_i t
    obtain ⟨hsession, hprocesses, -⟩ := mails.frame
    refine .of_session (program?_congr hprocesses) (.inl hsession) (fun _ => ?_) (fun h => ?_) rfl
    · cases t <;> rfl
    · cases t <;> cases h
  | _ => exact .of_session (fun _ => rfl) (.inl rfl) (fun _ => rfl) (fun h => by cases h) rfl

/-- Every step is calm or starts the handler of a task, if none is begun once the time is up. -/
lemma Effect.calm_or_launches (effect : a.Effect c i program a' turn)
    (charge : ∀ elapsed ofSession point, program = .timeout i elapsed ofSession point → point.inCharge = true →
      a.session.timedOut = some elapsed)
    (inTime : program.executes = true → program.tasks ≠ [] → a.session.timedOut = none) :
    Calm a program a' turn ∨ ∃ t, Launches t a program a' turn := by
  by_cases begun : ∃ t, program = .worker i (.running (.start t)) ∨ program = .single i (.start t)
  · obtain ⟨t, rfl | rfl⟩ := begun
    · cases effect with
      | worker step =>
        cases step with
        | runs step =>
          have hlaunches := step.launches (i := i) (w := fun point => .worker i (.running point)) (.inr rfl)
            (inTime rfl (List.cons_ne_nil _ _))
          rename_i turn
          refine .inr ⟨t, ?_⟩
          cases turn <;> exact hlaunches
    · cases effect with
      | single step =>
        cases step with
        | runs step =>
          have hlaunches := step.launches (i := i) (w := .single i) (.inl rfl) (inTime rfl (List.cons_ne_nil _ _))
          rename_i turn
          refine .inr ⟨t, ?_⟩
          cases turn <;> exact hlaunches
  · refine .inl (effect.calm (fun t => ⟨fun h => begun ⟨t, .inl h⟩, fun h => begun ⟨t, .inr h⟩⟩) charge)

/-! ### The handlers that are started -/

lemma Calm.started {y : Step} (calm : Calm a program a' turn) (before : y.before.Shows i c a)
    (after : y.after.Shows i c a') : y.started = [] := by
  have hlength : a'.processes.length = a.processes.length := by
    have h := congrArg List.length calm.programs
    rwa [Affairs.programs, Affairs.programs, List.length_map, List.length_map] at h
  rw [Step.started, before.processes, after.processes, List.drop_eq_nil_of_le (by simp [hlength]), List.filterMap_nil]

lemma Launches.started {t : Task} {y : Step} (launches : Launches t a program a' turn) (before : y.before.Shows i c a)
    (after : y.after.Shows i c a') : y.started = [(a.processes.length, t.context)] := by
  obtain ⟨handler, hprocesses⟩ := launches.processes
  rw [Step.started, before.processes, after.processes, hprocesses, List.zipIdx_append,
    List.drop_left' List.length_zipIdx]
  simp

end Affairs

end GraphServer
