import GraphServer.Proofs.Session.Staff

/-!
Every step leaves the staff of a session in order.

* `Affairs.Answers.regroup`, `Affairs.Interrupts.of_expire`: sending off a last response does not depend on
  what else is done in the step;
* `Process.Serves.execute`, `Process.Serves.handle`, `Process.Serves.time`: a process goes on with what it is about;
* `Affairs.Staffed.effect`: **a step of a process**.
-/

namespace GraphServer

open Affairs

variable {i : SessionId} {c : ChannelId} {a a' b : Affairs} {p q : ProcessId} {k : ContextId} {t : Transit}

/-! ### What is sent -/

/-- What waits for the queue, if anything does, is bound for a channel and stands for something. -/
def Transit.Carries (t : Transit) (c : ChannelId) (m : Option Sent) : Prop :=
  ∀ h, t = .waiting h → h.channel = c ∧ h.parcel.meaning = m

namespace Affairs

lemma Mails.carries {m : Option Sent} (hm : a.Mails c m b t) : t.Carries c m := by
  intro h ht
  cases hm with
  | held x hc hmeaning =>
    cases ht
    exact ⟨hc, hmeaning⟩
  | _ => cases ht

lemma Mails.frame {m : Option Sent} (hm : a.Mails c m b t) :
    b.session = a.session ∧ b.processes = a.processes ∧ b.contexts = a.contexts := by
  cases hm <;> exact ⟨rfl, rfl, rfl⟩

namespace Answers

variable {r : Uuid → Response}

lemma carries (ha : a.Answers c k r b t) (concludes : ∀ u, (r u).concludes = true) :
    ∃ r', r'.concludes = true ∧ t.Carries c (some (.response r')) := by
  cases ha with
  | already known finished => exact ⟨r .nil, concludes _, fun h ht => by cases ht⟩
  | first known open_ mails => exact ⟨_, concludes _, mails.carries⟩

/-- Sending off a last response does not depend on what becomes of the session and the processes. -/
lemma regroup {session : Session} (processes : List Process)
    (ha : Answers c { a with session, processes } k r b t) :
    ∃ a', a.Answers c k r a' t ∧ b = { a' with session, processes } := by
  cases ha with
  | already known finished => exact ⟨a, .already known finished, rfl⟩
  | first known open_ mails =>
    cases mails with
    | put => exact ⟨_, .first known open_ .put, rfl⟩
    | held x hc hm => exact ⟨_, .first known open_ (.held x hc hm), rfl⟩
    | refused e => exact ⟨_, .first known open_ (.refused e), rfl⟩

lemma frame (ha : a.Answers c k r b t) : b.session = a.session ∧ b.processes = a.processes := by
  cases ha with
  | already known finished => exact ⟨rfl, rfl⟩
  | first known open_ mails => exact ⟨mails.frame.1, mails.frame.2.1⟩

/-- The last response for a context was sent off. -/
lemma staffed (ha : a.Answers c k r b t) (h : a.Staffed i c) :
    b.Staffed i c ∧ b.isOpen k = false ∧ b.session = a.session ∧ b.processes = a.processes := by
  cases ha with
  | already known finished =>
    refine ⟨h, ?_, rfl, rfl⟩
    rw [isOpen, known, Option.any_some, finished]
    rfl
  | first known open_ mails =>
    obtain ⟨hsession, hprocesses, hcontexts⟩ := mails.frame
    refine ⟨(h.conclude k).mails mails, ?_, hsession, hprocesses⟩
    rw [isOpen, hcontexts]
    exact isOpen_conclude_self a k

lemma contexts_le (ha : a.Answers c k r b t) : a.contexts.length ≤ b.contexts.length := by
  cases ha with
  | already known finished => exact le_rfl
  | first known open_ mails =>
    rw [mails.frame.2.2, conclude, List.length_modify]

end Answers

/-- Stopping a process changes nothing but the processes. -/
lemma stop_eq (a : Affairs) (q : ProcessId) : a.stop q = { a with processes := (a.stop q).processes } := by
  rw [stop]
  split <;> rfl

namespace Interrupts

variable {elapsed : Nat} {ofSession : Bool}

lemma carries (hi : a.Interrupts c elapsed ofSession b t) :
    ∃ r, r.concludes = true ∧ t.Carries c (some (.response r)) := by
  cases hi with
  | nobody idle =>
    exact ⟨System.timeoutResponse elapsed ofSession .nil, System.concludes_timeoutResponse .., fun h ht => by cases ht⟩
  | somebody busy answers => exact answers.carries fun _ => System.concludes_timeoutResponse ..

lemma frame (hi : a.Interrupts c elapsed ofSession b t) :
    b.session = a.land.session ∧ ∀ q, b.program? q = a.program? q := by
  cases hi with
  | nobody idle =>
    refine ⟨?_, fun q => rfl⟩
    rw [land, onSession, ← idle]
  | @somebody f _ _ busy answers =>
    obtain ⟨hsession, hprocesses⟩ := answers.frame
    refine ⟨?_, fun q => ?_⟩
    · rw [hsession, stop_session]
    · exact (program?_congr hprocesses q).trans (program?_stop a.land f.handler q)

/-- Whether the time of the session is up does not matter to the task in flight. -/
lemma of_expire {late : Nat} (hi : (a.expire late).Interrupts c elapsed ofSession b t) :
    ∃ a', a.Interrupts c elapsed ofSession a' t ∧ b = a'.expire late := by
  cases hi with
  | nobody idle => exact ⟨a, .nobody idle, rfl⟩
  | @somebody f _ _ busy answers =>
    have hstop : (a.expire late).land.stop f.handler = (a.land.stop f.handler).expire late := by
      rw [stop, stop, show (a.expire late).land.program? f.handler = a.land.program? f.handler from rfl]
      cases a.land.program? f.handler with
      | none => rfl
      | some program => cases program <;> rfl
    rw [hstop] at answers
    obtain ⟨a', ha, rfl⟩ := answers.regroup (a := a.land.stop f.handler)
    refine ⟨a', .somebody busy ha, ?_⟩
    obtain ⟨hsession, hprocesses⟩ := ha.frame
    cases a'
    cases hsession
    cases hprocesses
    rfl

/-- The task in flight, if there was one, is answered and taken out of it. -/
lemma staffed (hi : a.Interrupts c elapsed ofSession b t) (h : a.Staffed i c) :
    b.Staffed i c ∧ ∀ f, a.session.inFlight = some f → b.isOpen f.context = false := by
  cases hi with
  | nobody idle =>
    refine ⟨h, fun f hf => ?_⟩
    cases idle.symm.trans hf
  | @somebody f _ _ busy answers =>
    rw [stop_eq] at answers
    obtain ⟨a', ha, rfl⟩ := answers.regroup (a := a)
    obtain ⟨hstaffed, hclosed, hsession, hprocesses⟩ := ha.staffed h
    have hstop : (a.land.stop f.handler).processes = (a'.land.stop f.handler).processes := by
      rw [stop, stop, show a.land.program? f.handler = a'.land.program? f.handler from (program?_congr hprocesses _).symm]
      cases a'.land.program? f.handler with
      | none => exact hprocesses.symm
      | some program =>
        cases program with
        | finished result => exact hprocesses.symm
        | _ => exact congrArg (List.modify · _ _) hprocesses.symm
    have hsession' : a.land.session = (a'.land.stop f.handler).session := by
      rw [stop_session, land, land, onSession, onSession, hsession]
    refine ⟨?_, ?_⟩
    · exact (hstaffed.interrupt (hsession ▸ busy) hclosed).congr hsession' (stop_contexts a'.land f.handler).symm hstop
    · intro g hg
      cases busy.symm.trans hg
      exact hclosed

end Interrupts

lemma Closes.carries (hc : a.Closes c b t) : t.Carries c (some .close) := by
  cases hc with
  | already closed => intro h ht; cases ht
  | first notClosed mails => exact mails.carries

lemma Closes.frame (hc : a.Closes c b t) :
    b.session = a.session ∧ b.processes = a.processes ∧ b.contexts = a.contexts := by
  cases hc with
  | already closed => exact ⟨rfl, rfl, rfl⟩
  | first notClosed mails => exact mails.frame

end Affairs

/-! ### Going on -/

namespace Process.Serves

variable {n : Nat} {s : Session} {x : Process} {program : Program}

/-- A process that executes tasks goes on with that. -/
lemma execute (h : x.Serves i c n s p) (executes : x.program.executes = true) (executes' : program.executes = true)
    (concerns : program.Concerns i c) (known : ∀ k ∈ program.contexts, k < n)
    (handover : ∀ h, program.handover? = some h → h.channel = c ∧ h.parcel.meaning ≠ some .close)
    (solo : ∀ j point, program = .single j point → s.backlog = none) :
    Process.Serves i c n s p { x with program } where
  concerns := concerns
  known := known
  handover y hy := (handover y hy).1
  follows y hy hclose := absurd hclose (handover y hy).2
  resumes j elapsed ofSession y next hp := by
    cases hp
    cases executes'
  executor _ := h.executor executes
  solo := solo
  handler k point hp := by
    cases hp
    cases executes'
  watcher hwatch := by
    have hwatches := h.watcher hwatch
    cases hx : x.program with
    | single j point => rw [hx] at hwatches; cases hwatches
    | worker j point => rw [hx] at hwatches; cases hwatches
    | _ => rw [hx] at executes; cases executes
  charge j elapsed ofSession point hp := by
    cases hp
    cases executes'

/-- A handler goes on. -/
lemma handle {point next : HandlerPoint} (h : x.Serves i c n s p) (program : x.program = .handler k point)
    (handover : ∀ h after, next = .calling h after → h.channel = c ∧ h.parcel.meaning ≠ some .close) :
    Process.Serves i c n s p { x with program := .handler k next } where
  concerns := trivial
  known := by
    have hknown := h.known
    rw [program] at hknown
    exact hknown
  handover y hy := by
    cases next with
    | calling z after =>
      cases hy
      exact (handover y after rfl).1
    | _ => cases hy
  follows y hy hclose := by
    cases next with
    | calling z after =>
      cases hy
      exact absurd hclose (handover y after rfl).2
    | _ => cases hy
  resumes j elapsed ofSession y next hp := by cases hp
  executor hexecutes := by cases hexecutes
  solo j point hp := by cases hp
  handler k' point' hp hgoes := by
    cases hp
    exact h.handler k point program hgoes
  watcher hwatch := by
    have hwatches := h.watcher hwatch
    rw [program] at hwatches
    cases hwatches
  charge j elapsed ofSession point hp := by cases hp

/-- The end of the time of the session or of a task goes on. -/
lemma time {elapsed : Nat} {ofSession : Bool} {point next : TimeoutPoint} (h : x.Serves i c n s p)
    (program : x.program = .timeout i elapsed ofSession point) (known : ∀ t ∈ next.tasks, t.context < n)
    (handover : ∀ y after, next = .sending y after →
      y.channel = c ∧ ∃ m, y.parcel.meaning = some m ∧ TimeoutPoint.Follows m after)
    (charge : next.inCharge = true → ofSession = true ∧ s.timedOut = some elapsed) :
    Process.Serves i c n s p { x with program := .timeout i elapsed ofSession next } where
  concerns := rfl
  known k hk := by
    obtain ⟨t, ht, rfl⟩ := List.mem_map.mp hk
    exact known t ht
  handover y hy := by
    cases next with
    | sending z after =>
      cases hy
      exact (handover y after rfl).1
    | _ => cases hy
  follows y hy hclose := by
    cases next with
    | sending z after =>
      cases hy
      change (y.parcel.meaning.any (·.isClose) || after.owesClose) = true
      rw [hclose]
      rfl
    | _ => cases hy
  resumes j elapsed' ofSession' y after hp := by
    cases hp
    exact (handover y after rfl).2
  executor hexecutes := by cases hexecutes
  solo j point hp := by cases hp
  handler k' point' hp := by cases hp
  watcher hwatch := by
    have hwatches := h.watcher hwatch
    rw [program] at hwatches
    cases ofSession with
    | true => rfl
    | false => cases hwatches
  charge j elapsed' ofSession' point hp hcharge := by
    cases hp
    exact charge hcharge

/-- A process that has no part in what becomes of the tasks. -/
lemma bystander (standsBy : x.program.standsBy = true) (concerns : x.program.Concerns i c)
    (handover : ∀ h, x.program.handover? = some h → h.channel = c)
    (watcher : s.cancelFuture = some p → x.program.watches = true) : x.Serves i c n s p where
  concerns := concerns
  known k hk := by
    rw [(Program.standsBy_aside standsBy).1] at hk
    cases hk
  handover := handover
  follows y hy hclose := by cases (Program.meaning_of_standsBy standsBy concerns hy).symm.trans hclose
  resumes j elapsed ofSession y next hp := by
    rw [hp] at standsBy
    cases standsBy
  executor hexecutes := by cases (Program.standsBy_aside standsBy).2.2.1.symm.trans hexecutes
  solo j point hp := by
    rw [hp] at standsBy
    cases standsBy
  handler k point hp := by
    rw [hp] at standsBy
    cases standsBy
  watcher := watcher
  charge j elapsed ofSession point hp hcharge := by
    have haside := (Program.standsBy_aside standsBy).2.2.2
    rw [hp] at haside
    cases haside.symm.trans hcharge

/-- A process that has ended. -/
lemma finished (x : Process) (result : Option (Except Error Unit)) :
    Process.Serves i c n s p { x with program := .finished result } :=
  bystander rfl trivial (fun y hy => by cases hy) fun _ => rfl

end Process.Serves

/-! ### The execution of tasks -/

/-- The programs that execute a task at some point. -/
def Executes (i : SessionId) (w : RunPoint → Program) : Prop :=
  w = .single i ∨ w = fun point => .worker i (.running point)

namespace Executes

/-- Where the execution of a task stands tells the program. -/
lemma exists_of_runPoint {P : Program} {point : RunPoint} (stands : P.runPoint? = some point) :
    ∃ i w, Executes i w ∧ P = w point := by
  cases P with
  | single i _ =>
    cases stands
    exact ⟨i, _, .inl rfl, rfl⟩
  | worker i stand =>
    cases stand with
    | running _ =>
      cases stands
      exact ⟨i, _, .inr rfl, rfl⟩
    | _ => cases stands
  | _ => cases stands

variable {w : RunPoint → Program} (hw : Executes i w) (point : RunPoint)

include hw

lemma executes : (w point).executes = true := by
  rcases hw with rfl | rfl <;> rfl

lemma runPoint : (w point).runPoint? = some point := by
  rcases hw with rfl | rfl <;> rfl

lemma inCharge : (w point).inCharge = false := by
  rcases hw with rfl | rfl <;> rfl

lemma handover (y : Handover) : (w (.sending y)).handover? = some y := by
  rcases hw with rfl | rfl <;> rfl

lemma not_handler (next : HandlerPoint) : w point ≠ .handler k next := by
  rcases hw with rfl | rfl <;> exact fun h => by cases h

lemma not_finished (result : Option (Except Error Unit)) : w point ≠ .finished result := by
  rcases hw with rfl | rfl <;> exact fun h => by cases h

/-- The process goes on at another point. -/
lemma serves {n : Nat} {s : Session} {x : Process} (h : x.Serves i c n s p) (program : x.program = w point)
    (next : RunPoint) (known : ∀ t, next.task? = some t → t.context < n)
    (handover : ∀ y, next = .sending y → y.channel = c ∧ y.parcel.meaning ≠ some .close) :
    Process.Serves i c n s p { x with program := w next } := by
  refine h.execute (program ▸ hw.executes point) (hw.executes next) ?_ ?_ ?_ ?_
  · rcases hw with rfl | rfl <;> exact rfl
  · intro k hk
    have hcontexts : (w next).contexts = next.task?.toList.map (·.context) := by
      rcases hw with rfl | rfl <;> rfl
    rw [hcontexts] at hk
    obtain ⟨t, ht, rfl⟩ := List.mem_map.mp hk
    exact known t (Option.mem_toList.mp ht)
  · intro y hy
    refine handover y ?_
    rcases hw with rfl | rfl
    · cases next <;> cases hy
      rfl
    · cases next <;> cases hy
      rfl
  · intro j point' hp
    rcases hw with rfl | rfl
    · exact h.solo i point program
    · cases hp

end Executes

namespace Affairs.Staffed

variable {w : RunPoint → Program} {x : Process} {point : RunPoint}

/-- A process that executes tasks is the one in the hook of the session. -/
lemma point?_eq (h : a.Staffed i c) (hx : a.processes[p]? = some x) (executes : x.program.executes = true) :
    a.point? = x.program.runPoint? := by
  rw [point?, ((h.serves p x hx).executor executes).1, Option.bind_some, program?, hx, Option.map_some,
    Option.bind_some]

/-- No task is in flight unless the execution waits for its handler. -/
lemma idle (h : a.Staffed i c) (hx : a.processes[p]? = some x) (executes : x.program.executes = true)
    (not_joining : ∀ t h d, x.program.runPoint? ≠ some (.joining t h d)) : a.session.inFlight = none := by
  cases hf : a.session.inFlight with
  | none => rfl
  | some f =>
    obtain ⟨t, d, hpoint, -⟩ := h.joining f hf
    exact absurd ((h.point?_eq hx executes).symm.trans hpoint) (not_joining t f.handler d)

/-- The context of the task in flight is a context. -/
lemma flight_lt (h : a.Staffed i c) (f : InFlight) (busy : a.session.inFlight = some f) :
    f.context < a.contexts.length := by
  obtain ⟨u, d, hpoint, hcontext⟩ := h.joining f busy
  obtain ⟨program, hprogram, hpoint⟩ := Option.bind_eq_some_iff.mp hpoint
  obtain ⟨q, -, hq⟩ := Option.bind_eq_some_iff.mp hprogram
  obtain ⟨y, hy, rfl⟩ := Option.map_eq_some_iff.mp hq
  rw [← hcontext]
  exact (h.serves q y hy).known _ (Program.context_mem hpoint rfl)

/-- No task is in flight if the handler for which the execution waits was stopped. -/
lemma idle_of_stopped (h : a.Staffed i c) {u : Task} {d : Option Deadline} (hpoint : a.point? = some (.joining u q d))
    (ended : a.program? q = some (.finished none)) : a.session.inFlight = none := by
  cases hf : a.session.inFlight with
  | none => rfl
  | some f =>
    obtain ⟨y, hy, -, hprogram⟩ := h.handled f hf
    obtain ⟨t', d, hjoining, -⟩ := h.joining f hf
    cases hpoint.symm.trans hjoining
    rw [program?_of_some hy] at ended
    rcases hprogram with ⟨point, hprogram⟩ | ⟨result, hprogram⟩
    · rw [hprogram] at ended
      cases ended
    · rw [hprogram] at ended
      cases ended

/-- The execution of a task comes to its end. -/
lemma leave (h : a.Staffed i c) (hw : Executes i w) (hp : a.program? p = some (w point))
    (idle : a.session.inFlight = none) {m : Option Sent} (carries : t.Carries c m) (open_ : m ≠ some .close) :
    (a.setProgram p (t.lastWords.map w).program).Staffed i c := by
  obtain ⟨x, hx, hprogram⟩ := Option.map_eq_some_iff.mp hp
  have hnext (next : RunPoint) (hnext : next = .over ∨ ∃ y, next = .sending y ∧ t = .waiting y) :
      (a.setProgram p (w next)).Staffed i c := by
    refine h.setProgram hx (hw.serves point (h.serves p x hx) hprogram next ?_ ?_) ?_ ?_ ?_ ?_
    · intro t' ht'
      rcases hnext with rfl | ⟨y, rfl, -⟩ <;> cases ht'
    · intro y hy
      rcases hnext with rfl | ⟨z, rfl, hz⟩
      · cases hy
      · cases hy
        obtain ⟨hc, hm⟩ := carries _ hz
        exact ⟨hc, hm ▸ open_⟩
    · intro k next' hk
      exact absurd (hprogram.symm.trans hk) (hw.not_handler point next')
    · intro result hresult _
      exact absurd (hprogram.symm.trans hresult) (hw.not_finished point result)
    · refine .inr ⟨idle, fun t' y d hy => ?_⟩
      rw [hw.runPoint] at hy
      rcases hnext with rfl | ⟨z, rfl, -⟩ <;> cases hy
    · intro hcharge
      rw [hw.inCharge] at hcharge
      cases hcharge
  cases t with
  | done r => exact hnext .over (.inl rfl)
  | waiting y => exact hnext (.sending y) (.inr ⟨y, rfl, rfl⟩)

/-- A handler that was stopped before its first step does nothing. -/
lemma addStopped (h : a.Staffed i c) (handler : Handler) (known : k < a.contexts.length) :
    Affairs.Staffed i c { a with processes := a.processes ++ [⟨.handler k (.ready handler), true⟩] } :=
  h.add (.beginning known h.unwatched nofun) rfl

/-- A task has landed once its handler has ended and it is answered. -/
lemma landAnswered (h : a.Staffed i c) {u : Task} {d : Option Deadline} {result : Except Error Unit}
    (hpoint : a.point? = some (.joining u q d)) (ended : a.program? q = some (.finished (some result)))
    (staffed : b.Staffed i c) (session : b.session = a.session) (processes : b.processes = a.processes)
    (closed : b.isOpen u.context = false) : b.land.Staffed i c := by
  refine staffed.land (fun f hf => ?_) fun f hf => ?_
  · obtain ⟨u', d', hjoining, hcontext⟩ := h.joining f (session ▸ hf)
    cases hpoint.symm.trans hjoining
    rw [← hcontext]
    exact closed
  · obtain ⟨u', d', hjoining, -⟩ := h.joining f (session ▸ hf)
    cases hpoint.symm.trans hjoining
    exact ⟨_, (program?_congr processes _).trans ended⟩

/-- A step of the execution of a task. -/
lemma run (h : a.Staffed i c) (hw : Executes i w) (hx : a.processes[p]? = some x)
    (program : x.program = w point) {turn : Turn RunPoint} (step : a.RunStep c point a' turn) :
    (a'.setProgram p (turn.map w).program).Staffed i c := by
  have hexecutes : x.program.executes = true := program ▸ hw.executes point
  have hpoint : a.point? = some point := (h.point?_eq hx hexecutes).trans (program ▸ hw.runPoint point)
  have hp : a.program? p = some (w point) := program ▸ program?_of_some hx
  have hserves := h.serves p x hx
  cases step with
  | begins t handler deadline inTime =>
    have hknown : t.context < a.contexts.length :=
      hserves.known _ (Program.context_mem (program ▸ hw.runPoint (.start t)) rfl)
    have hidle : a.session.inFlight = none :=
      h.idle hx hexecutes fun t' y d hy => by
        rw [program, hw.runPoint] at hy
        cases hy
    refine h.begin handler hx inTime hidle hknown (hw.executes _) (hw.runPoint _) ?_
    refine hw.serves _ hserves program _ ?_ ?_
    · intro t' ht'
      cases ht'
      exact hknown
    · intro y hy
      cases hy
  | refuses t handler late answers =>
    rw [launch_stop] at answers
    obtain ⟨a₀, ha, rfl⟩ := answers.regroup (a := a)
    obtain ⟨hstaffed, -, hsession, hprocesses⟩ := ha.staffed h
    obtain ⟨r, -, hcarries⟩ := ha.carries fun _ => System.concludes_timeoutResponse ..
    have hidle : a₀.session.inFlight = none := by
      rw [hsession]
      exact h.landed (late ▸ rfl)
    have hknown : t.context < a₀.contexts.length := by
      refine Nat.lt_of_lt_of_le
        (hserves.known _ (Program.context_mem (program ▸ hw.runPoint (.start t)) rfl)) ha.contexts_le
    have hadd := hstaffed.addStopped handler hknown
    rw [hprocesses, hsession] at hadd
    refine hadd.leave hw (show _ = some (w (.start t)) from ?_) (hsession ▸ hidle) hcarries (fun h => by cases h)
    rw [program?, List.getElem?_append_left (List.getElem?_eq_some_iff.mp hx).1]
    exact hp
  | stopped t deadline ended =>
    have hidle := h.idle_of_stopped hpoint ended
    have hland : a.land.Staffed i c := h.congr (by rw [Affairs.land, onSession, ← hidle]) rfl rfl
    exact hland.leave (t := .done (.ok ())) (m := none) hw hp rfl (fun y hy => by cases hy) (fun h => by cases h)
  | @returned t y deadline result ended _ t' answers =>
    obtain ⟨a₀, ha, rfl⟩ := answers.regroup (a := a) a.processes
    obtain ⟨hstaffed, hclosed, hsession, hprocesses⟩ := ha.staffed h
    obtain ⟨r, -, hcarries⟩ := ha.carries (System.concludes_concluding result)
    have hland := h.landAnswered hpoint ended hstaffed hsession hprocesses hclosed
    have hgroup : a₀.land = { a₀ with session := a.land.session, processes := a.processes } := by
      rw [Affairs.land, Affairs.land, onSession, onSession, hsession, ← hprocesses]
    change Affairs.Staffed i c (Affairs.setProgram { a₀ with session := a.land.session, processes := a.processes } p _)
    rw [← hgroup]
    exact hland.leave hw ((program?_congr (b := a₀.land) hprocesses p).trans hp) rfl hcarries (fun h => by cases h)
  | expires t y deadline budget interrupts =>
    obtain ⟨hstaffed, -⟩ := interrupts.staffed h
    obtain ⟨hsession, hprograms⟩ := interrupts.frame
    obtain ⟨r, -, hcarries⟩ := interrupts.carries
    refine hstaffed.leave hw ((hprograms p).trans hp) ?_ hcarries (fun h => by cases h)
    rw [hsession]
    rfl
  | waits t y deadline =>
    have hsame : ({ x with program := w (.joining t y deadline) } : Process) = x := by rw [← program]
    refine h.setProgram hx ?_ ?_ ?_ (.inl ?_) ?_
    · exact hsame.symm ▸ hserves
    · exact fun k next hk => absurd (program.symm.trans hk) (hw.not_handler _ next)
    · exact fun result hresult _ => absurd (program.symm.trans hresult) (hw.not_finished _ result)
    · rw [program]
      rfl
    · intro hcharge
      exact .inl (program ▸ hcharge)
  | mails y mails =>
    have hidle : a.session.inFlight = none :=
      h.idle hx hexecutes fun t' z d hz => by
        rw [program, hw.runPoint] at hz
        cases hz
    obtain ⟨hsession, hprocesses, -⟩ := mails.frame
    refine (h.mails mails).leave hw ((program?_congr hprocesses p).trans hp) ?_ mails.carries ?_
    · rw [hsession]
      exact hidle
    · intro hclose
      have howes := hserves.follows y (by rw [program]; exact hw.handover y) hclose
      rw [program] at howes
      rcases hw with rfl | rfl <;> cases howes

end Affairs.Staffed

end GraphServer
