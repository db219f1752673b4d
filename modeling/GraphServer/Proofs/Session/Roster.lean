import GraphServer.Proofs.Session.Duty

/-!
The staff of a session is in order all along.

* `Affairs.Staffed.effect`: **every step of a process leaves it in order**;
* `Affairs.Outside.staffed`: so does everything that is done from outside;
* `Course.staffed`: so it is in order in the whole course of the affairs.
-/

namespace GraphServer

open Affairs

variable {i : SessionId} {c : ChannelId} {o a a' b : Affairs} {p q : ProcessId} {k : ContextId} {t : Transit}

namespace Affairs.Staffed

variable {x : Process} {program : Program}

/-! ### The worker -/

/-- A process that executes tasks goes on or ends between two tasks. -/
lemma pass (h : a.Staffed i c) (hx : a.processes[p]? = some x) (executes : x.program.executes = true)
    (serves : Process.Serves i c a.contexts.length a.session p { x with program })
    (idle : a.session.inFlight = none) (not_joining : ∀ t h d, program.runPoint? ≠ some (.joining t h d))
    (aside : program.inCharge = false) : (a.setProgram p program).Staffed i c := by
  refine h.setProgram hx serves ?_ ?_ (.inr ⟨idle, not_joining⟩) ?_
  · intro k point hp
    rw [hp] at executes
    cases executes
  · intro result hp _
    rw [hp] at executes
    cases executes
  · intro hcharge
    cases aside.symm.trans hcharge

/-- The process that watches the time of the session is stopped. -/
lemma disarm (h : a.Staffed i c) : a.disarm.Staffed i c := by
  rw [Affairs.disarm]
  cases hq : a.session.cancelFuture with
  | none => exact h
  | some q =>
    refine h.stop q (fun x hx => ?_) fun f hf hfq => ?_
    · have hwatches := (h.serves q x hx).watcher hq
      cases hp : x.program with
      | single j point => rw [hp] at hwatches; cases hwatches
      | worker j point => rw [hp] at hwatches; cases hwatches
      | _ => rfl
    · obtain ⟨x, hx, -, hprogram⟩ := h.handled f hf
      rw [hfq] at hx
      have hwatches := (h.serves q x hx).watcher hq
      rcases hprogram with ⟨point, hp⟩ | ⟨result, hp⟩
      · rw [hp] at hwatches
        cases hwatches
      · rw [program?_of_some hx, hp]
        exact ⟨_, rfl⟩

lemma program?_disarm (a : Affairs) (q : ProcessId) : a.disarm.program? q = a.program? q := by
  rw [Affairs.disarm]
  cases a.session.cancelFuture with
  | none => rfl
  | some e => exact program?_stop a e q

lemma disarm_session (a : Affairs) : a.disarm.session = a.session := by
  rw [Affairs.disarm]
  cases a.session.cancelFuture with
  | none => rfl
  | some e => exact stop_session a e

lemma disarm_contexts (a : Affairs) : a.disarm.contexts = a.contexts := by
  rw [Affairs.disarm]
  cases a.session.cancelFuture with
  | none => rfl
  | some e => exact stop_contexts a e

/-- The session is over. -/
lemma finishSession (h : a.Staffed i c) : (a.onSession Session.finish).disarm.Staffed i c := by
  refine Staffed.disarm (h.change h.bound le_rfl h.queued (fun _ _ => id) Iff.rfl fun haccepting => ?_)
  cases haccepting

/-- The end of the process that executes tasks. -/
lemma retire (h : a.Staffed i c) (hx : a.processes[p]? = some x) (executes : x.program.executes = true)
    (idle : a.session.inFlight = none) (result : Option (Except Error Unit)) :
    ((a.onSession Session.finish).disarm.setProgram p (.finished result)).Staffed i c := by
  have hp : (a.onSession Session.finish).disarm.program? p = some x.program := by
    rw [program?_disarm, program?, show (a.onSession Session.finish).processes[p]? = some x from hx, Option.map_some]
  obtain ⟨y, hy, hprogram⟩ := Option.map_eq_some_iff.mp hp
  refine h.finishSession.pass hy (hprogram ▸ executes) (.finished y result) ?_ ?_ rfl
  · rw [disarm_session]
    exact idle
  · intro t h d hpoint
    cases hpoint

/-- A step of the worker. -/
lemma worker (h : a.Staffed i c) {point : WorkerPoint} (hx : a.processes[p]? = some x)
    (program : x.program = .worker i point) {turn : Turn WorkerPoint} (step : a.WorkerStep c point a' turn) :
    (a'.setProgram p (turn.map (.worker i)).program).Staffed i c := by
  have hexecutes : x.program.executes = true := by rw [program]; rfl
  have hserves := h.serves p x hx
  have hidle (hpoint : x.program.runPoint? = none) : a.session.inFlight = none := by
    refine h.idle hx hexecutes fun t y d hy => ?_
    cases hpoint.symm.trans hy
  have hgo {b : Affairs} {next : WorkerPoint} (hb : b.Staffed i c) (hx : b.processes[p]? = some x)
      (idle : b.session.inFlight = none)
      (hnext : next = .choosing ∨ next = .resting ∨ ∃ t, next = .running (.start t) ∧ t.context < b.contexts.length) :
      (b.setProgram p (.worker i next)).Staffed i c := by
    refine hb.pass hx hexecutes ((hb.serves p x hx).execute hexecutes rfl rfl ?_ ?_ ?_) idle ?_ rfl
    · rcases hnext with rfl | rfl | ⟨t, rfl, ht⟩ <;> intro k hk
      · cases hk
      · cases hk
      · cases List.mem_singleton.mp hk
        exact ht
    · rcases hnext with rfl | rfl | ⟨t, rfl, -⟩ <;> intro y hy <;> cases hy
    · intro j point hp
      cases hp
    · rcases hnext with rfl | rfl | ⟨t, rfl, -⟩ <;> intro t' y d hy <;> cases hy
  cases step with
  | takes some =>
    have hqueue := queue_of_dequeue? some
    obtain ⟨b, rest, hbacklog, -, rfl⟩ := Session.dequeue?_eq_some some
    refine hgo (h.change h.bound le_rfl ?_ (fun _ _ => id) ?_ id) hx (hidle (by rw [program]; rfl)) ?_
    · exact fun t ht => h.queued t (hqueue ▸ List.mem_cons_of_mem _ ht)
    · rw [hbacklog]
      constructor <;> (intro h; cases h)
    · exact .inr (.inr ⟨_, rfl, h.queued _ (hqueue ▸ List.mem_cons_self ..)⟩)
  | rests none accepting => exact hgo h hx (hidle (by rw [program]; rfl)) (.inr (.inl rfl))
  | ends none closed => exact h.retire hx hexecutes (hidle (by rw [program]; rfl)) _
  | hears notified =>
    refine hgo (h.change h.bound le_rfl ?_ (fun _ _ => id) ?_ id) hx (hidle (by rw [program]; rfl)) (.inl rfl)
    · rw [queue_setNotified]
      exact h.queued
    · change (a.session.backlog.map _) = none ↔ _
      rw [Option.map_eq_none_iff]
  | waits unnotified => exact hgo h hx (hidle (by rw [program]; rfl)) (.inr (.inl rfl))
  | leaves =>
    refine hgo h hx (h.idle hx hexecutes fun t y d hy => ?_) (.inl rfl)
    rw [program] at hy
    cases hy
  | @runs point _ turn step =>
    have hrun := h.run (w := fun point => .worker i (.running point)) (.inr rfl) hx program step
    cases turn <;> exact hrun

/-! ### Handlers -/

/-- A handler goes on. -/
lemma proceed (h : b.Staffed i c) {point next : HandlerPoint} (hx : b.processes[p]? = some x)
    (program : x.program = .handler k point)
    (handover : ∀ h after, next = .calling h after → h.channel = c ∧ h.parcel.meaning ≠ some .close) :
    (b.setProgram p (.handler k next)).Staffed i c := by
  refine h.setProgram hx ((h.serves p x hx).handle program handover) ?_ ?_ (.inl ?_) ?_
  · intro k' point' hp _
    rw [program] at hp
    cases hp
    exact .inl ⟨next, rfl⟩
  · intro result hp _
    rw [program] at hp
    cases hp
  · rw [program]
    rfl
  · intro hcharge
    cases hcharge

/-- A step of a handler. -/
lemma handler (h : a.Staffed i c) {point : HandlerPoint} (hx : a.processes[p]? = some x)
    (program : x.program = .handler k point) {turn : Turn HandlerPoint} (step : a.HandlerStep c k point a' turn) :
    (a'.setProgram p (turn.map (.handler k)).program).Staffed i c := by
  have hready {b : Affairs} (hb : b.Staffed i c) (hx : b.processes[p]? = some x) (next : Handler) :
      (b.setProgram p (.handler k (.ready next))).Staffed i c :=
    hb.proceed hx program fun y after hy => by cases hy
  have hsleep (due : Nat) (next : Handler) : (a.setProgram p (.handler k (.sleeping due next))).Staffed i c :=
    h.proceed hx program fun y after hy => by cases hy
  have hsend {b : Affairs} {t : Transit} (hb : b.Staffed i c) (hx : b.processes[p]? = some x) {m : Option Sent}
      (hcarries : t.Carries c m) (hm : m ≠ some .close) (next : Except Error Unit → Handler) :
      (b.setProgram p ((handlerTurn t next).map (.handler k)).program).Staffed i c := by
    cases t with
    | done r => exact hready hb hx (next r)
    | waiting y =>
      refine hb.proceed hx program fun z after hz => ?_
      cases hz
      obtain ⟨hc, hmeaning⟩ := hcarries y rfl
      exact ⟨hc, hmeaning ▸ hm⟩
  cases step with
  | returns result =>
    refine h.setProgram hx (.finished x _) (fun _ _ _ _ => .inr ⟨result, rfl⟩) ?_ (.inl ?_) ?_
    · intro r hp _
      rw [program] at hp
      cases hp
    · rw [program]
      rfl
    · intro hcharge
      cases hcharge
  | late call next e => exact hready h hx _
  | streams data next request mails =>
    obtain ⟨-, hprocesses, -⟩ := mails.frame
    exact hsend (h.mails mails) (hprocesses ▸ hx) mails.carries (fun h => by cases h) next
  | answers terminal next known open_ mails =>
    obtain ⟨-, hprocesses, -⟩ := mails.frame
    exact hsend ((h.conclude k).mails mails) (hprocesses ▸ hx) mails.carries (fun h => by cases h) next
  | mails y next mails =>
    obtain ⟨-, hprocesses, -⟩ := mails.frame
    refine hsend (h.mails mails) (hprocesses ▸ hx) mails.carries (fun hclose => ?_) next
    have howes := (h.serves p x hx).follows y (by rw [program]; rfl) hclose
    rw [program] at howes
    cases howes
  | sleeps milliseconds due next => exact hsleep due next
  | wakes due next => exact hready h hx next
  | waits due next => exact hsleep due next

/-! ### Time -/

/-- A process with no part in the execution of tasks goes on. -/
lemma elsewhere (h : b.Staffed i c) (hx : b.processes[p]? = some x)
    (serves : Process.Serves i c b.contexts.length b.session p { x with program })
    (not_handler : ∀ k point, x.program ≠ .handler k point) (not_finished : ∀ result, x.program ≠ .finished result)
    (aside : x.program.runPoint? = none) (aside' : program.runPoint? = none)
    (charge : program.inCharge = true → x.program.inCharge = true ∨
      ∀ (q : ProcessId) (y : Process), b.processes[q]? = some y → y.program.inCharge = false) :
    (b.setProgram p program).Staffed i c := by
  refine h.setProgram hx serves ?_ ?_ (.inl (aside'.trans aside.symm)) charge
  · exact fun k point hp => absurd hp (not_handler k point)
  · exact fun result hp _ => absurd hp (not_finished result)

/-- A process that has no part in what becomes of the tasks goes on, and still has none. -/
lemma standBy {was : Program} (h : b.Staffed i c) (hx : b.processes[p]? = some x) (hprogram : x.program = was)
    (before : was.standsBy = true) (unfinished : was.isFinished = false) (after : program.standsBy = true)
    (concerns : program.Concerns i c) (handover : ∀ y, program.handover? = some y → y.channel = c)
    (watches : was.watches = true → program.watches = true) : (b.setProgram p program).Staffed i c := by
  obtain ⟨-, hpoint, -, hcharge⟩ := Program.standsBy_aside after
  subst hprogram
  refine h.elsewhere hx (.bystander after concerns handover fun hwatch => ?_) ?_ ?_ ?_ hpoint fun h => ?_
  · exact watches ((h.serves p x hx).watcher hwatch)
  · intro k point hp
    rw [hp] at before
    cases before
  · intro result hp
    rw [hp] at unfinished
    cases unfinished
  · exact (Program.standsBy_aside before).2.1
  · cases hcharge.symm.trans h

/-- Nobody brings the session to its end before its time is up. -/
lemma nobody (h : a.Staffed i c) (inTime : a.session.timedOut = none) (q : ProcessId) (program : Program)
    (hq : a.program? q = some program) : program.inCharge = false := by
  obtain ⟨x, hx, rfl⟩ := Option.map_eq_some_iff.mp hq
  rw [Bool.eq_false_iff]
  intro hcharge
  cases hprogram : x.program with
  | timeout j elapsed ofSession point =>
    rw [hprogram] at hcharge
    obtain ⟨-, hlate⟩ := (h.serves q x hx).charge j elapsed ofSession point hprogram hcharge
    cases inTime.symm.trans hlate
  | _ =>
    rw [hprogram] at hcharge
    cases hcharge

section Timeout

variable {elapsed : Nat} {ofSession : Bool} {point next : TimeoutPoint}

/-- The end of the time of the session or of a task goes on. -/
lemma tick (h : b.Staffed i c) (hp : b.program? p = some (.timeout i elapsed ofSession point))
    (known : ∀ t ∈ next.tasks, t.context < b.contexts.length)
    (handover : ∀ y after, next = .sending y after →
      y.channel = c ∧ ∃ m, y.parcel.meaning = some m ∧ TimeoutPoint.Follows m after)
    (charge : next.inCharge = true → ofSession = true ∧ b.session.timedOut = some elapsed)
    (alone : next.inCharge = true → point.inCharge = true ∨
      ∀ q program, b.program? q = some program → program.inCharge = false) :
    (b.setProgram p (.timeout i elapsed ofSession next)).Staffed i c := by
  obtain ⟨x, hx, program⟩ := Option.map_eq_some_iff.mp hp
  refine h.elsewhere hx ((h.serves p x hx).time program known handover charge) ?_ ?_ ?_ rfl ?_
  · intro k point hk
    cases program.symm.trans hk
  · intro result hresult
    cases program.symm.trans hresult
  · rw [program]
    rfl
  · intro hcharge
    rw [program]
    refine (alone hcharge).imp id fun hnobody q y hy => hnobody q y.program ?_
    exact program?_of_some hy

/-- It sends something and goes on. -/
lemma tick_send (h : b.Staffed i c) (hp : b.program? p = some (.timeout i elapsed ofSession point))
    (known : ∀ t ∈ next.tasks, t.context < b.contexts.length) {m : Sent} (carries : t.Carries c (some m))
    (follows : TimeoutPoint.Follows m next)
    (charge : next.inCharge = true → ofSession = true ∧ b.session.timedOut = some elapsed)
    (alone : next.inCharge = true → point.inCharge = true ∨
      ∀ q program, b.program? q = some program → program.inCharge = false) :
    (b.setProgram p ((t.lead (fun _ => next) (.sending · next)).map (.timeout i elapsed ofSession)).program).Staffed
      i c := by
  cases t with
  | done r =>
    refine h.tick hp known (fun y after hy => ?_) charge alone
    subst hy
    cases follows
  | waiting y =>
    refine h.tick hp known (fun z after hz => ?_) charge alone
    cases hz
    obtain ⟨hc, hm⟩ := carries y rfl
    exact ⟨hc, m, hm, follows⟩

/-- A step of the end of the time of the session or of a task. -/
lemma timeout (h : a.Staffed i c) (hx : a.processes[p]? = some x)
    (program : x.program = .timeout i elapsed ofSession point) {turn : Turn TimeoutPoint}
    (step : a.TimeoutStep c elapsed ofSession point a' turn) :
    (a'.setProgram p (turn.map (.timeout i elapsed ofSession)).program).Staffed i c := by
  have hp : a.program? p = some (.timeout i elapsed ofSession point) := program ▸ program?_of_some hx
  have hserves := h.serves p x hx
  have hcharge (hpoint : point.inCharge = true) : ofSession = true ∧ a.session.timedOut = some elapsed :=
    hserves.charge i elapsed ofSession point program hpoint
  have hknown (t : Task) (ht : t ∈ point.tasks) : t.context < a.contexts.length := by
    refine hserves.known _ ?_
    rw [program]
    exact List.mem_map_of_mem ht
  cases step with
  | late kind late =>
    refine h.tick hp (fun t ht => ?_) (fun y after hy => ?_) (fun h => ?_) (fun h => ?_)
    · cases ht
    · cases hy
    · cases h
    · cases h
  | expires kind inTime interrupts =>
    obtain ⟨a₀, hi, rfl⟩ := interrupts.of_expire
    obtain ⟨hstaffed, -⟩ := hi.staffed h
    obtain ⟨hsession, hprograms⟩ := hi.frame
    obtain ⟨r, hconcludes, hcarries⟩ := hi.carries
    have hexpire : (a₀.expire elapsed).Staffed i c := by
      refine hstaffed.expire elapsed ?_ ?_
      · rw [hsession]
        exact inTime
      · rw [hsession]
        rfl
    refine hexpire.tick_send ((hprograms p).trans hp) (fun t ht => ?_) hcarries (.draining r hconcludes) (fun _ => ⟨kind, rfl⟩) ?_
    · cases ht
    · exact fun _ => .inr fun q program hq => h.nobody inTime q program ((hprograms q).symm.trans hq)
  | interrupts kind interrupts =>
    obtain ⟨hstaffed, -⟩ := interrupts.staffed h
    obtain ⟨-, hprograms⟩ := interrupts.frame
    obtain ⟨r, hconcludes, hcarries⟩ := interrupts.carries
    refine hstaffed.tick_send ((hprograms p).trans hp) (fun t ht => ?_) hcarries (.over r hconcludes) (fun h => ?_) (fun h => ?_)
    · cases ht
    · cases h
    · cases h
  | drains =>
    have hqueue : a.session.drain.1 = a.queue := drain_fst a
    refine Staffed.tick ?_ hp (fun t ht => ?_) (fun y after hy => ?_) (fun _ => ?_) (fun _ => .inl rfl)
    · exact h.drain
    · exact h.queued t (hqueue ▸ ht)
    · cases hy
    · obtain ⟨backlog, hdrain, -, -⟩ := drain_snd a.session
      rw [hdrain]
      exact hcharge rfl
  | answers u rest answers =>
    obtain ⟨hstaffed, -, hsession, hprocesses⟩ := answers.staffed h
    obtain ⟨r, hconcludes, hcarries⟩ := answers.carries fun _ => System.concludes_timeoutResponse ..
    refine hstaffed.tick_send ((program?_congr hprocesses p).trans hp) (fun t ht => ?_) hcarries
      (.answering r hconcludes rest) (fun _ => ?_) (fun _ => .inl rfl)
    · exact (hknown t (List.mem_cons_of_mem _ ht)).trans_le answers.contexts_le
    · rw [hsession]
      exact hcharge rfl
  | notifies =>
    refine h.notify.tick hp (fun t ht => ?_) (fun y after hy => ?_) (fun _ => hcharge rfl)
      (fun _ => .inl rfl)
    · cases ht
    · cases hy
  | closes closes =>
    obtain ⟨hsession, hprocesses, hcontexts⟩ := closes.frame
    refine (h.congr hsession hcontexts hprocesses).tick_send ((program?_congr hprocesses p).trans hp) (fun t ht => ?_)
      closes.carries .disarming (fun _ => ?_) (fun _ => .inl rfl)
    · cases ht
    · rw [hsession]
      exact hcharge rfl
  | disarms =>
    refine h.disarm.tick ((program?_disarm a p).trans hp) (fun t ht => ?_) (fun y after hy => ?_) (fun h => ?_)
      (fun h => ?_)
    · cases ht
    · cases hy
    · cases h
    · cases h
  | mails y next mails =>
    obtain ⟨hsession, hprocesses, hcontexts⟩ := mails.frame
    obtain ⟨m, hm, hfollows⟩ := hserves.resumes i elapsed ofSession y next program
    refine (h.mails mails).tick_send ((program?_congr hprocesses p).trans hp) (fun t ht => ?_) (hm ▸ mails.carries)
      hfollows (fun hin => ?_) (fun hin => .inl hin)
    · rw [hcontexts]
      exact hknown t ht
    · rw [hsession]
      exact hcharge hin
  | leaves =>
    refine h.elsewhere hx (.finished x _) ?_ ?_ ?_ rfl (fun hcharge => ?_)
    · intro k point hk
      cases program.symm.trans hk
    · intro result hresult
      cases program.symm.trans hresult
    · rw [program]
      rfl
    · cases hcharge

end Timeout

/-! ### Every step -/

/-- A process that stays where it is. -/
lemma same (h : a.Staffed i c) (hx : a.processes[p]? = some x) : (a.setProgram p x.program).Staffed i c := by
  refine h.congr rfl rfl ?_
  rw [Affairs.setProgram, onProcess]
  refine List.ext_getElem? fun q => ?_
  by_cases hq : q = p
  · subst hq
    rw [List.getElem?_modify_eq, hx]
    rfl
  · rw [List.getElem?_modify_ne _ _ (Ne.symm hq)]

/-- Every step of a process leaves the staff in order. -/
lemma effect (h : a.Staffed i c) (hx : a.processes[p]? = some x) {turn : Turn Program}
    (effect : a.Effect c i x.program a' turn) : (a'.setProgram p turn.program).Staffed i c := by
  have hserves := h.serves p x hx
  generalize hprogram : x.program = program at effect
  cases effect with
  | handler k step =>
    have hstep := h.handler hx hprogram step
    rename_i turn
    cases turn <;> exact hstep
  | @single point _ turn step =>
    have hstep : (a'.setProgram p (turn.map (.single i)).program).Staffed i c := by
      cases step with
      | runs step => exact h.run (.inl rfl) hx hprogram step
      | ends =>
        refine h.retire hx (by rw [hprogram]; rfl) (h.idle hx (by rw [hprogram]; rfl) fun t y d hy => ?_) _
        rw [hprogram] at hy
        cases hy
    cases turn <;> exact hstep
  | worker step => exact h.worker hx hprogram step
  | timeout elapsed ofSession step => exact h.timeout hx hprogram step
  | watches milliseconds due => exact h.standBy hx hprogram rfl rfl rfl rfl (fun y hy => by cases hy) fun _ => rfl
  | rings milliseconds due => exact h.standBy hx hprogram rfl rfl rfl rfl (fun y hy => by cases hy) fun _ => rfl
  | sleeps milliseconds due =>
    have hsame := h.same hx
    rw [hprogram] at hsame
    exact hsame
  | writes channel turn =>
    cases turn <;> exact h.standBy hx hprogram rfl rfl rfl trivial (fun y hy => by cases hy) fun h => by cases h
  | delivers d point mails =>
    rename_i transit
    have hconcerns := hserves.concerns
    rw [hprogram] at hconcerns
    obtain ⟨-, hd, -⟩ := hconcerns
    obtain ⟨-, hprocesses, -⟩ := mails.frame
    have hx' : a'.processes[p]? = some x := hprocesses ▸ hx
    cases transit with
    | done r =>
      exact (h.mails mails).standBy hx' hprogram rfl rfl rfl trivial (fun y hy => by cases hy) fun h => by cases h
    | waiting y =>
      obtain ⟨hc, hm⟩ := mails.carries y rfl
      refine (h.mails mails).standBy hx' hprogram rfl rfl rfl ⟨rfl, hd, fun z hz => ?_⟩ (fun z hz => ?_) fun h => ?_
      · cases hz
        exact hm
      · cases hz
        exact hc
      · cases h
  | idles result =>
    have hsame := h.same hx
    rw [hprogram] at hsame
    exact hsame

/-- A process that was stopped ends. -/
lemma cancel (h : a.Staffed i c) (hx : a.processes[p]? = some x) (cancelled : x.cancelled = true) :
    (a.setProgram p (.finished none)).Staffed i c := by
  have hexecutes : x.program.executes = false := by
    rw [Bool.eq_false_iff]
    intro hexecutes
    cases cancelled.symm.trans ((h.serves p x hx).executor hexecutes).2
  have hpoint : x.program.runPoint? = none := by
    cases hx : x.program with
    | single j point => rw [hx] at hexecutes; cases hexecutes
    | worker j point => rw [hx] at hexecutes; cases hexecutes
    | _ => rfl
  refine h.setProgram hx (.finished x _) (fun _ _ _ hgoes => ?_) (fun _ _ hgoes => ?_) (.inl hpoint.symm) ?_
  · cases cancelled.symm.trans hgoes
  · cases cancelled.symm.trans hgoes
  · intro hcharge
    cases hcharge

end Affairs.Staffed

/-! ### From outside -/

namespace Affairs

variable {accepted accepted' : List Task}

lemma length_addContext (a : Affairs) (c : ChannelId) (r : Request) :
    (a.addContext c r).contexts.length = a.contexts.length + 1 :=
  List.length_append

lemma isOpen_addContext_lt (c : ChannelId) (r : Request) (hk : k < a.contexts.length) :
    (a.addContext c r).isOpen k = a.isOpen k := by
  rw [isOpen, isOpen, addContext, List.getElem?_append_left hk]

lemma isOpen_addContext_self (a : Affairs) (c : ChannelId) (r : Request) :
    (a.addContext c r).isOpen a.contexts.length = true := by
  rw [isOpen, addContext, List.getElem?_concat_length]
  rfl

lemma bound_addContext (h : a.Bound c) (r : Request) : (a.addContext c r).Bound c := by
  intro k x hx
  rcases Nat.lt_or_ge k a.contexts.length with hk | hk
  · exact h k x ((List.getElem?_append_left hk).symm.trans hx)
  · rw [addContext, List.getElem?_append_right hk] at hx
    cases List.mem_singleton.mp (List.mem_of_getElem? hx)
    rfl

namespace Staffed

/-- A context more. -/
lemma addContext (h : a.Staffed i c) (r : Request) : (a.addContext c r).Staffed i c := by
  refine h.change (bound_addContext h.bound r) ?_ (fun t ht => ?_) (fun k hk hopen => ?_) Iff.rfl id
  · rw [length_addContext]
    exact Nat.le_succ _
  · rw [length_addContext]
    exact Nat.lt_succ_of_lt (h.queued t ht)
  · exact (isOpen_addContext_lt c r hk).symm.trans hopen

/-- A task is put at the end of those that wait. -/
lemma enqueue (h : a.Staffed i c) {b : Backlog} (backlog : a.session.backlog = some b) (t : Task)
    (known : t.context < a.contexts.length) : (a.enqueue b t).Staffed i c := by
  refine notify (h.change h.bound le_rfl (fun u hu => ?_) (fun _ _ => id) ?_ id)
  · rcases List.mem_append.mp hu with hu | hu
    · refine h.queued u ?_
      rw [queue, backlog]
      exact hu
    · cases List.mem_singleton.mp hu
      exact known
  · rw [backlog]
    constructor <;> (intro h; cases h)

/-- The process that executes the only task is started. -/
lemma engage (h : a.Staffed i c) (backlog : a.session.backlog = none) (vacant : a.session.future = none) (t : Task)
    (known : t.context < a.contexts.length) : (a.engage i t).Staffed i c := by
  have hidle : a.session.inFlight = none := by
    cases hf : a.session.inFlight with
    | none => rfl
    | some f =>
      obtain ⟨u, d, hpoint, -⟩ := h.joining f hf
      rw [point?, vacant] at hpoint
      cases hpoint
  have hnobody {q : ProcessId} {y : Process} (hy : a.processes[q]? = some y) : y.program.executes = false := by
    rw [Bool.eq_false_iff]
    intro hexecutes
    cases vacant.symm.trans ((h.serves q y hy).executor hexecutes).1
  have hpoint : (a.engage i t).point? = some (.start t) := by
    rw [point?]
    change (Option.bind ((a.engage i t).program? a.processes.length) _) = _
    rw [program?]
    change (Option.bind (Option.map _ (a.processes ++ [_])[a.processes.length]?) _) = _
    rw [List.getElem?_concat_length]
    rfl
  refine ⟨h.alive, h.home, h.bound, fun _ haccepting => (by cases haccepting), fun _ => rfl, ?hooks, ?serves, h.queued,
    ?handled, ?joining, ?joined, h.landed, ?unique⟩
  case hooks =>
    intro q hq
    change q < (a.processes ++ [_]).length
    rw [List.length_append]
    rcases hq with hq | hq
    · cases hq
      exact Nat.lt_succ_self _
    · exact Nat.lt_succ_of_lt (h.hooks q (.inr hq))
  case serves =>
    intro q y hy
    rcases mem_add hy with hy | ⟨rfl, rfl⟩
    · have hserves := h.serves q y hy
      exact { hserves with
        executor := fun hexecutes => by cases (hnobody hy).symm.trans hexecutes }
    · exact .appointed rfl rfl (List.forall_mem_singleton.mpr known) rfl (fun _ _ _ => backlog) rfl h.unwatched
  case handled =>
    intro f hf
    cases hidle.symm.trans hf
  case joining =>
    intro f hf
    cases hidle.symm.trans hf
  case joined =>
    intro u y d hu
    cases hpoint.symm.trans hu
  case unique =>
    intro q r y z hy hz hq hr
    rcases mem_add hy with hy | ⟨rfl, rfl⟩
    · rcases mem_add hz with hz | ⟨rfl, rfl⟩
      · exact h.unique q r y z hy hz hq hr
      · cases hr
    · cases hq

/-- Nothing was done yet. -/
lemma fresh (alive : a.session.killed = false) (home : a.session.channel = c) (contexts : a.contexts = [])
    (vacant : a.session.backlog = none → a.session.accepting = true → a.session.future = none)
    (inTime : a.session.timedOut = none) (idle : a.session.inFlight = none) (queue : a.queue = []) (point : a.point? = none)
    (hooks : ∀ p, a.session.future = some p ∨ a.session.cancelFuture = some p → p < a.processes.length)
    (serves : ∀ (p : ProcessId) (x : Process), a.processes[p]? = some x →
      x.Serves i c 0 a.session p ∧ x.program.inCharge = false) : a.Staffed i c where
  alive := alive
  home := home
  bound k x hx := by
    rw [contexts] at hx
    cases hx
  vacant := vacant
  shut late := by
    rw [inTime] at late
    cases late
  hooks := hooks
  serves p x hx := by
    rw [contexts]
    exact (serves p x hx).1
  queued t ht := by
    rw [queue] at ht
    cases ht
  handled f hf := by cases idle.symm.trans hf
  joining f hf := by cases idle.symm.trans hf
  joined t h d ht := by cases point.symm.trans ht
  landed _ := idle
  unique p q x y hx _ hp := by cases (serves p x hx).2.symm.trans hp

end Staffed

/-- What is done from outside leaves the staff in order. -/
lemma Outside.staffed (outside : a.Outside i c accepted b accepted') (h : a.Staffed i c) : b.Staffed i c := by
  cases outside with
  | timeout elapsed ofSession =>
    exact h.add (.bystander rfl rfl (fun y hy => by cases hy) fun hwatch => absurd hwatch h.unwatched) rfl
  | traffic f =>
    exact h.add (.bystander rfl ⟨rfl, ⟨f, rfl⟩, fun y hy => by cases hy⟩ (fun y hy => by cases hy) fun hwatch =>
      absurd hwatch h.unwatched) rfl
  | declines r => exact h.addContext r
  | enqueues r backlog accepting room =>
    exact (h.addContext r).enqueue backlog _ ((length_addContext a c r).symm ▸ Nat.lt_succ_self _)
  | engages r backlog accepting vacant =>
    exact (h.addContext r).engage backlog vacant _ ((length_addContext a c r).symm ▸ Nat.lt_succ_self _)
  | closes =>
    refine Staffed.notify (h.change h.bound le_rfl h.queued (fun _ _ => id) Iff.rfl fun haccepting => ?_)
    cases haccepting

/-- The staff is in order when the session is opened. -/
lemma Opened.staffed (opened : a.Opened i c) : a.Staffed i c := by
  have hwriter {s : Session} (p : ProcessId) (hs : s.cancelFuture ≠ some p) :
      Process.Serves i c 0 s p { program := .writer c } :=
    .bystander rfl trivial (fun y hy => by cases hy) fun hwatch => absurd hwatch hs
  have hworker {s : Session} (p : ProcessId) (hfuture : s.future = some p) (hs : s.cancelFuture ≠ some p) :
      Process.Serves i c 0 s p { program := .worker i .choosing } :=
    .appointed rfl rfl (List.forall_mem_nil _) rfl (fun _ _ hp => by cases hp) hfuture hs
  have hlifetime {s : Session} (p : ProcessId) (milliseconds : Nat) :
      Process.Serves i c 0 s p { program := .lifetime i milliseconds none } :=
    .bystander rfl rfl (fun y hy => by cases hy) fun _ => rfl
  cases opened with
  | single name =>
    refine .fresh rfl rfl rfl (fun _ _ => rfl) rfl rfl rfl rfl (fun p hp => ?_) fun p x hx => ?_
    · rcases hp with hp | hp <;> cases hp
    · rcases p with _ | p <;> cases hx
      exact ⟨hwriter 0 fun h => (by cases h), rfl⟩
  | multi name limit =>
    refine .fresh rfl rfl rfl (fun h => (by cases h)) rfl rfl rfl rfl (fun p hp => ?_) fun p x hx => ?_
    · rcases hp with hp | hp <;> cases hp
      exact Nat.lt_succ_self 1
    · rcases p with _ | _ | p <;> cases hx
      · exact ⟨hwriter 0 fun h => (by cases h), rfl⟩
      · exact ⟨hworker 1 rfl fun h => (by cases h), rfl⟩
  | watched name limit milliseconds =>
    refine .fresh rfl rfl rfl (fun h => (by cases h)) rfl rfl rfl rfl (fun p hp => ?_) fun p x hx => ?_
    · rcases hp with hp | hp <;> cases hp
      · exact Nat.lt_succ_of_lt (Nat.lt_succ_self 1)
      · exact Nat.lt_succ_self 2
    · rcases p with _ | _ | _ | p <;> cases hx
      · exact ⟨hwriter 0 fun h => (by cases h), rfl⟩
      · exact ⟨hworker 1 rfl fun h => (by cases h), rfl⟩
      · exact ⟨hlifetime 2 milliseconds, rfl⟩

end Affairs

/-! ### The whole course -/

/-- The staff of a session is in order in the whole course of its affairs. -/
lemma Course.staffed {whole : Bool} {turning : Option ProcessId} {accepted : List Task} {steps : List Step}
    (h : Course i c o whole turning a accepted steps) : a.Staffed i c := by
  induction h with
  | opens opened => exact opened.staffed
  | outside _ outside ih => exact outside.staffed ih
  | misses p _ ended ih => exact ih.congr rfl rfl rfl
  | begins p _ ih => exact ih.congr rfl rfl rfl
  | goes _ performs ih =>
    obtain ⟨y, hy, hprogram, -⟩ := performs.process
    exact ih.effect hy (hprogram ▸ performs.effect)
  | cut _ ih => exact ih.congr rfl rfl rfl
  | waits spent _ performs idle ih =>
    obtain ⟨y, hy, hprogram, -⟩ := performs.process
    have heffect := ih.effect hy (hprogram ▸ performs.effect)
    exact heffect.congr rfl rfl rfl
  | ends _ performs ih =>
    obtain ⟨y, hy, hprogram, -⟩ := performs.process
    have heffect := ih.effect hy (hprogram ▸ performs.effect)
    exact heffect.congr rfl rfl rfl
  | stops p _ process before after turn ih =>
    obtain ⟨y, hy, hprogram, hcancelled⟩ := process
    exact (ih.cancel hy hcancelled).congr rfl rfl rfl

end GraphServer
