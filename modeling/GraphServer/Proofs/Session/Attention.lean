import GraphServer.Proofs.Session.Closing

/-!
The process that executes the tasks of a session does not sleep while there is something for it to do.

* `Affairs.MayWait`: the points at which it may wait, and until when;
* `Affairs.Attention`: it waits at such a point, or is sure to get a turn;
* `Affairs.Beside`: what others do in the meantime;
* `Course.attention`: **it is attentive in the whole course of the affairs**;
* `Affairs.Attention.rest`: **when nothing goes on any more, nothing is left in anybody's hands**.
-/

namespace GraphServer

/-- Whether a process that executes tasks may wait at a point at all. -/
def Program.mayWait : Program → Bool
  | single _ (.joining ..) | single _ (.sending _) => true
  | worker _ .resting | worker _ (.running (.joining ..)) | worker _ (.running (.sending _)) => true
  | finished _ => true
  | _ => false

namespace Affairs

variable {i : SessionId} {c : ChannelId} {o a a' b : Affairs} {p q : ProcessId} {program next : Program}
  {turning : Option ProcessId} {x : Process} {accepted accepted' : List Task} {steps : List Step}

/-- The program of the process that executes the tasks. -/
def executor? (a : Affairs) : Option Program :=
  a.session.future.bind a.program?

/-- That process may wait at a point until somebody wakes it. -/
structure MayWait (a : Affairs) (program : Program) : Prop where
  waits : program.mayWait = true
  unnotified : program.isResting = true → a.session.isNotified = false
  unended : ∀ h result, program.isJoining h = true → a.program? h ≠ some (.finished result)

/-- A process that has ended may wait for ever. -/
lemma MayWait.of_finished (a : Affairs) (finished : program.isFinished = true) : a.MayWait program := by
  cases program with
  | finished result => exact ⟨rfl, fun h => (by cases h), fun y r h => (by cases h)⟩
  | _ => cases finished

/-- That process does not sleep while there is something for it to do. -/
structure Attention (turning : Option ProcessId) (a : Affairs) : Prop where
  manned : a.session.backlog ≠ none → a.session.future ≠ none
  posted : ∀ program, a.executor? = some program → program.executes = true ∨ program.isFinished = true
  /-- It rests only if it is notified or nothing waits. -/
  quiet : ∀ program, a.executor? = some program → program.isResting = true →
    a.session.isNotified = true ∨ a.queue = []
  /-- It ends only if nothing waits and nothing is accepted any more. -/
  ended : ∀ program, a.executor? = some program → program.isFinished = true →
    a.queue = [] ∧ a.session.accepting = false
  /-- It waits for a handler. -/
  awaited : ∀ program h, a.executor? = some program → program.isJoining h = true →
    ∃ other, a.program? h = some other ∧ ((∃ k point, other = .handler k point) ∨ other.isFinished = true)
  alert : ∀ program, a.executor? = some program → a.session.future ≠ turning →
    a.awake = true ∨ a.MayWait program

/-! ### Others -/

/-- What others than that process do, apart from their own programs. -/
structure Beside (a b : Affairs) : Prop where
  future : b.session.future = a.session.future
  backlog : b.session.backlog ≠ none → a.session.backlog ≠ none
  accepting : b.session.accepting = true → a.session.accepting = true
  queue : a.queue = [] → b.queue = [] ∨ a.session.accepting = true ∧ b.session.isNotified = true
  heard : a.session.isNotified = true → b.session.isNotified = true
  notified : b.session.isNotified = true →
    a.session.isNotified = true ∨ (a.executing (·.isResting) = true → b.awake = true)
  awake : a.awake = true → b.awake = true
  programs : ∀ q program, a.program? q = some program → b.program? q = some program

/-- What leaves the session as it is. -/
lemma Beside.of_session (session : b.session = a.session) (awake : a.awake = true → b.awake = true)
    (programs : ∀ q program, a.program? q = some program → b.program? q = some program) : a.Beside b := by
  refine ⟨?future, ?backlog, ?accepting, ?queue, ?heard, ?notified, awake, programs⟩
  case future => rw [session]
  case backlog =>
    rw [session]
    exact id
  case accepting =>
    rw [session]
    exact id
  case queue =>
    rw [Affairs.queue, Affairs.queue, session]
    exact .inl
  case heard =>
    rw [session]
    exact id
  case notified =>
    rw [session]
    exact .inl

/-- What takes place in the session apart from its queue and its notification. -/
lemma Beside.of_parts (future : b.session.future = a.session.future) (backlog : b.session.backlog = a.session.backlog)
    (accepting : b.session.accepting = true → a.session.accepting = true) (awake : a.awake = true → b.awake = true)
    (programs : ∀ q program, a.program? q = some program → b.program? q = some program) : a.Beside b := by
  have hnotified : b.session.isNotified = a.session.isNotified := by
    rw [Session.isNotified, Session.isNotified, backlog]
  refine ⟨future, ?backlog, accepting, ?queue, ?heard, ?notified, awake, programs⟩
  case backlog =>
    rw [backlog]
    exact id
  case queue =>
    rw [Affairs.queue, Affairs.queue, backlog]
    exact .inl
  case heard =>
    rw [hnotified]
    exact id
  case notified =>
    rw [hnotified]
    exact .inl

namespace Beside

variable {d : Affairs}

lemma executing (h : a.Beside b) {test : Program → Bool} (ha : a.executing test = true) : b.executing test = true := by
  rw [Affairs.executing] at ha ⊢
  rw [h.future]
  cases he : a.session.future with
  | none =>
    rw [he] at ha
    cases ha
  | some e =>
    rw [he, Option.bind_some] at ha
    rw [Option.bind_some]
    cases hprogram : a.program? e with
    | none =>
      rw [hprogram] at ha
      cases ha
    | some program =>
      rw [hprogram] at ha
      rw [h.programs e program hprogram]
      exact ha

lemma trans (h : a.Beside b) (h' : b.Beside d) : a.Beside d where
  future := h'.future.trans h.future
  backlog := h.backlog ∘ h'.backlog
  accepting := h.accepting ∘ h'.accepting
  queue hqueue := by
    rcases h.queue hqueue with hempty | ⟨haccepting, hnotified⟩
    · exact (h'.queue hempty).imp id fun hopen => ⟨h.accepting hopen.1, hopen.2⟩
    · exact .inr ⟨haccepting, h'.heard hnotified⟩
  heard := h'.heard ∘ h.heard
  notified hnotified := by
    rcases h'.notified hnotified with hbefore | hwakes
    · exact (h.notified hbefore).imp id fun hwakes hresting => h'.awake (hwakes hresting)
    · exact .inr fun hresting => hwakes (h.executing hresting)
  awake := h'.awake ∘ h.awake
  programs q program hq := h'.programs q program (h.programs q program hq)

end Beside

/-- The process that executes the tasks is notified. -/
lemma Beside.notify (a : Affairs) : a.Beside a.notify := by
  refine ⟨rfl, fun h hnone => ?_, id, fun hqueue => .inl ?_, fun h => ?_, fun _ => .inr fun hresting => ?_, fun h => ?_,
    fun _ _ => id⟩
  · refine h ?_
    change a.session.backlog.map _ = none
    rw [hnone]
    rfl
  · exact (queue_setNotified a true).trans hqueue
  · change (Session.setNotified a.session true).isNotified = true
    rw [Session.isNotified] at h ⊢
    rw [Session.setNotified]
    cases hb : a.session.backlog with
    | none =>
      rw [hb] at h
      cases h
    | some backlog => rfl
  · exact Bool.or_eq_true_iff.mpr (.inr hresting)
  · exact Bool.or_eq_true_iff.mpr (.inl h)

lemma executor?_congr (staffed : a.Staffed i c) (future : b.session.future = a.session.future)
    (programs : ∀ q program, a.program? q = some program → b.program? q = some program) :
    b.executor? = a.executor? := by
  rw [executor?, executor?, future]
  cases he : a.session.future with
  | none => rfl
  | some e =>
    have hlt := staffed.hooks e (.inl he)
    have hprogram : a.program? e = some a.processes[e].program := by
      rw [program?, List.getElem?_eq_getElem hlt]
      rfl
    rw [Option.bind_some, Option.bind_some, hprogram]
    exact programs e _ hprogram

namespace Attention

/-- What others do leaves the process attentive. -/
lemma beside (h : Attention turning a) (staffed : a.Staffed i c) (beside : a.Beside b) : Attention turning b := by
  have hexecutor := executor?_congr staffed beside.future beside.programs
  refine ⟨fun hb => ?manned, ?posted, ?quiet, ?ended, ?awaited, ?alert⟩
  case manned =>
    rw [beside.future]
    exact h.manned (beside.backlog hb)
  case posted =>
    rw [hexecutor]
    exact h.posted
  case quiet =>
    rw [hexecutor]
    intro program hprogram hresting
    rcases h.quiet program hprogram hresting with hnotified | hqueue
    · exact .inl (beside.heard hnotified)
    · exact (beside.queue hqueue).symm.imp And.right id
  case ended =>
    rw [hexecutor]
    intro program hprogram hfinished
    obtain ⟨hqueue, haccepting⟩ := h.ended program hprogram hfinished
    refine ⟨(beside.queue hqueue).resolve_right fun hopen => ?_, Bool.eq_false_iff.mpr fun hopen => ?_⟩
    · cases haccepting.symm.trans hopen.1
    · cases haccepting.symm.trans (beside.accepting hopen)
  case awaited =>
    rw [hexecutor]
    intro program y hprogram hjoining
    obtain ⟨other, hother, hkind⟩ := h.awaited program y hprogram hjoining
    exact ⟨other, beside.programs y other hother, hkind⟩
  case alert =>
    rw [hexecutor, beside.future]
    intro program hprogram hturn
    rcases h.alert program hprogram hturn with hawake | hwait
    · exact .inl (beside.awake hawake)
    · -- it is woken if it rests and is notified
      by_cases hnotified : program.isResting = true ∧ b.session.isNotified = true
      · obtain ⟨hresting, hnotified⟩ := hnotified
        rcases beside.notified hnotified with hbefore | hwakes
        · cases (hwait.unnotified hresting).symm.trans hbefore
        · refine .inl (hwakes ?_)
          rw [executing, show a.session.future.bind a.program? = some program from hprogram, Option.any_some]
          exact hresting
      · refine .inr ⟨hwait.waits, fun hresting => ?_, fun y result hjoining hended => ?_⟩
        · exact Bool.eq_false_iff.mpr fun hb => hnotified ⟨hresting, hb⟩
        · obtain ⟨other, hother, -⟩ := h.awaited program y hprogram hjoining
          refine hwait.unended y result hjoining ?_
          rw [hother]
          exact (beside.programs y other hother).symm.trans hended

/-- Another process moves on. -/
lemma setProgram (h : Attention turning a) (other : a.session.future ≠ some p) (place : a.program? p = some program)
    (handler : ∀ k point, program = .handler k point → (∃ point, next = .handler k point) ∨ next.isFinished = true)
    (ended : program.isFinished = true → next.isFinished = true)
    (wakes : next.isFinished = true → program.isFinished = true ∨ (a.executing (·.isJoining p) = true → a.awake = true)) :
    Attention turning (a.setProgram p next) := by
  obtain ⟨x, hx, hprogram⟩ := Option.map_eq_some_iff.mp place
  have hexecutor : (a.setProgram p next).executor? = a.executor? := by
    rw [executor?, executor?]
    change a.session.future.bind _ = _
    cases he : a.session.future with
    | none => rfl
    | some e =>
      rw [Option.bind_some, Option.bind_some, program?_setProgram_ne]
      rintro rfl
      exact other he
  refine ⟨h.manned, ?posted, ?quiet, ?ended, ?awaited, ?alert⟩
  case posted =>
    rw [hexecutor]
    exact h.posted
  case quiet =>
    rw [hexecutor]
    exact h.quiet
  case ended =>
    rw [hexecutor]
    exact h.ended
  case awaited =>
    rw [hexecutor]
    intro executor y hexecutor hjoining
    obtain ⟨awaited, hawaited, hkind⟩ := h.awaited executor y hexecutor hjoining
    by_cases hy : y = p
    · subst hy
      cases place.symm.trans hawaited
      refine ⟨next, program?_setProgram_self hx, ?_⟩
      rcases hkind with ⟨k, point, hk⟩ | hfinished
      · exact (handler k point hk).imp (fun hpoint => ⟨k, hpoint⟩) id
      · exact .inr (ended hfinished)
    · exact ⟨awaited, (program?_setProgram_ne hy).trans hawaited, hkind⟩
  case alert =>
    rw [hexecutor]
    intro executor hexecutor hturn
    rcases h.alert executor hexecutor hturn with hawake | hwait
    · exact .inl hawake
    · have hexecuting (y : ProcessId) (hjoining : executor.isJoining y = true) :
          a.executing (·.isJoining y) = true := by
        rw [executing, show a.session.future.bind a.program? = some executor from hexecutor, Option.any_some]
        exact hjoining
      by_cases hwakes : executor.isJoining p = true ∧ next.isFinished = true
      · rcases wakes hwakes.2 with hfinished | hawake
        · cases program with
          | finished result => exact absurd place (hwait.unended p result hwakes.1)
          | _ => cases hfinished
        · exact .inl (hawake (hexecuting p hwakes.1))
      · refine .inr ⟨hwait.waits, hwait.unnotified, fun y result hjoining hended => ?_⟩
        by_cases hy : y = p
        · subst hy
          rw [program?_setProgram_self hx] at hended
          refine hwakes ⟨hjoining, ?_⟩
          rw [Option.some.inj hended]
          rfl
        · exact hwait.unended y result hjoining ((program?_setProgram_ne hy).symm.trans hended)

end Attention

/-! ### The steps of others -/

lemma Mails.beside {m : Option Sent} {t : Transit} (hm : a.Mails c m b t) : a.Beside b := by
  cases hm <;> exact .of_session rfl id fun _ _ => id

lemma Answers.beside {k : ContextId} {r : Uuid → Response} {t : Transit} (ha : a.Answers c k r b t) : a.Beside b := by
  cases ha with
  | already known finished => exact .of_session rfl id fun _ _ => id
  | first known open_ mails =>
    have hconclude : a.Beside (a.conclude k) := .of_session rfl id fun _ _ => id
    exact hconclude.trans mails.beside

lemma stop_awake (a : Affairs) (p : ProcessId) : (a.stop p).awake = a.awake := by
  rw [stop]
  split <;> rfl

lemma Beside.stop (a : Affairs) (p : ProcessId) : a.Beside (a.stop p) := by
  refine .of_session (stop_session a p) ?_ fun q program hq => (program?_stop a p q).trans hq
  rw [stop_awake]
  exact id

lemma Beside.disarm (a : Affairs) : a.Beside a.disarm := by
  rw [Affairs.disarm]
  cases a.session.cancelFuture with
  | none => exact .of_session rfl id fun _ _ => id
  | some e => exact .stop a e

lemma Beside.land (a : Affairs) : a.Beside a.land :=
  .of_parts rfl rfl id id fun _ _ => id

lemma Interrupts.beside {elapsed : Nat} {ofSession : Bool} {t : Transit}
    (hi : a.Interrupts c elapsed ofSession b t) : a.Beside b := by
  cases hi with
  | nobody idle => exact .of_session rfl id fun _ _ => id
  | somebody busy answers => exact ((Beside.land a).trans (.stop _ _)).trans answers.beside

lemma Closes.beside {t : Transit} (hc : a.Closes c b t) : a.Beside b := by
  cases hc with
  | already closed => exact .of_session rfl id fun _ _ => id
  | first notClosed mails =>
    have hclosed : a.Beside { a with closed := true } := .of_session rfl id fun _ _ => id
    exact hclosed.trans mails.beside

lemma TimeoutStep.beside {elapsed : Nat} {ofSession : Bool} {point : TimeoutPoint} {turn : Turn TimeoutPoint}
    (step : a.TimeoutStep c elapsed ofSession point a' turn) : a.Beside a' := by
  cases step with
  | expires kind inTime interrupts =>
    have hexpire : a.Beside (a.expire elapsed) := .of_parts rfl rfl (fun h => (by cases h)) id fun _ _ => id
    exact hexpire.trans interrupts.beside
  | interrupts kind interrupts => exact interrupts.beside
  | drains =>
    obtain ⟨backlog, hdrain, hnone, hempty⟩ := drain_snd a.session
    have hnotified := isNotified_drain a.session
    refine ⟨?future, ?backlog, ?accepting, fun _ => .inl ?queue, ?heard, ?notified, id, fun _ _ => id⟩
    case future => rw [hdrain]
    case backlog =>
      rw [hdrain]
      exact fun h hnot => h (hnone.mpr hnot)
    case accepting =>
      rw [hdrain]
      exact id
    case queue =>
      rw [queue, hdrain]
      exact hempty
    case heard => exact hnotified.trans
    case notified => exact fun h => .inl (hnotified.symm.trans h)
  | answers t rest answers => exact answers.beside
  | notifies => exact .notify a
  | closes closes => exact closes.beside
  | disarms => exact .disarm a
  | mails h next mails => exact mails.beside
  | _ => exact .of_session rfl id fun _ _ => id

lemma HandlerStep.beside {k : ContextId} {point : HandlerPoint} {turn : Turn HandlerPoint}
    (step : a.HandlerStep c k point a' turn) : a.Beside a' := by
  cases step with
  | streams data next request mails => exact mails.beside
  | answers terminal next known open_ mails =>
    have hconclude : a.Beside (a.conclude k) := .of_session rfl id fun _ _ => id
    exact hconclude.trans mails.beside
  | mails h next mails => exact mails.beside
  | _ => exact .of_session rfl id fun _ _ => id

/-- What a process does that executes no tasks. -/
lemma Effect.beside {turn : Turn Program} (effect : a.Effect c i program a' turn) (aside : program.executes = false) :
    a.Beside a' := by
  cases effect with
  | handler k step => exact step.beside
  | single step => cases aside
  | worker step => cases aside
  | timeout elapsed ofSession step => exact step.beside
  | delivers d point mails => exact mails.beside
  | _ => exact .of_session rfl id fun _ _ => id

/-- Only the process in the hook of the session executes tasks. -/
lemma Staffed.aside (h : a.Staffed i c) (other : a.session.future ≠ some p) (place : a.program? p = some program) :
    program.executes = false := by
  obtain ⟨x, hx, rfl⟩ := Option.map_eq_some_iff.mp place
  rw [Bool.eq_false_iff]
  intro hexecutes
  exact other ((h.serves p x hx).executor hexecutes).1

/-- Where a process goes on that executes no tasks. -/
lemma Effect.leads {turn : Turn Program} (effect : a.Effect c i program a' turn) :
    (∀ k point, program = .handler k point → (∃ point, turn.program = .handler k point) ∨ turn.program.isFinished = true) ∧
      (program.isFinished = true → turn.program.isFinished = true) ∧
      (turn.program.isFinished = true → program.isFinished = true ∨ ∃ result, turn = .done result) := by
  cases effect with
  | handler k step =>
    rename_i turn
    refine ⟨fun j point hp => ?_, fun h => (by cases h), fun h => ?_⟩
    · cases hp
      cases turn with
      | done result => exact .inr rfl
      | _ => exact .inl ⟨_, rfl⟩
    · cases turn with
      | done result => exact .inr ⟨result, rfl⟩
      | _ => cases h
  | idles result => exact ⟨fun k point hp => (by cases hp), id, fun _ => .inl rfl⟩
  | watches milliseconds due => exact ⟨fun k point hp => (by cases hp), fun h => (by cases h), fun h => (by cases h)⟩
  | rings milliseconds due => exact ⟨fun k point hp => (by cases hp), fun h => (by cases h), fun h => (by cases h)⟩
  | sleeps milliseconds due => exact ⟨fun k point hp => (by cases hp), fun h => (by cases h), fun h => (by cases h)⟩
  | writes channel turn =>
    refine ⟨fun k point hp => (by cases hp), fun h => (by cases h), fun h => ?_⟩
    cases turn with
    | done result => exact .inr ⟨result, rfl⟩
    | _ => cases h
  | delivers d point mails =>
    rename_i transit
    refine ⟨fun k point hp => (by cases hp), fun h => (by cases h), fun h => ?_⟩
    cases transit with
    | done result => exact .inr ⟨_, rfl⟩
    | _ => cases h
  | _ =>
    rename_i turn _
    refine ⟨fun k point hp => (by cases hp), fun h => (by cases h), fun h => ?_⟩
    cases turn with
    | done result => exact .inr ⟨result, rfl⟩
    | _ => cases h

/-! ### Its own steps -/

/-- It has its turn. -/
lemma Attention.working (future : a.session.future = some p) (place : a.program? p = some program)
    (posted : program.executes = true ∨ program.isFinished = true)
    (quiet : program.isResting = true → a.session.isNotified = true ∨ a.queue = [])
    (ended : program.isFinished = true → a.queue = [] ∧ a.session.accepting = false)
    (awaited : ∀ h, program.isJoining h = true →
      ∃ other, a.program? h = some other ∧ ((∃ k point, other = .handler k point) ∨ other.isFinished = true)) :
    Attention (some p) a := by
  have hexecutor : a.executor? = some program := by rw [executor?, future, Option.bind_some, place]
  refine ⟨fun _ hnone => ?manned, ?posted, ?quiet, ?ended, ?awaited, fun _ _ hturn => absurd future hturn⟩
  case manned =>
    cases future.symm.trans hnone
  case posted =>
    rw [hexecutor]
    rintro _ ⟨⟩
    exact posted
  case quiet =>
    rw [hexecutor]
    rintro _ ⟨⟩
    exact quiet
  case ended =>
    rw [hexecutor]
    rintro _ ⟨⟩
    exact ended
  case awaited =>
    rw [hexecutor]
    rintro _ h ⟨⟩
    exact awaited h

/-- What the process that executes the tasks comes to in its step. -/
structure Works (a a' : Affairs) (turn : Turn Program) : Prop where
  future : a'.session.future = a.session.future
  posted : turn.program.executes = true ∨ turn.program.isFinished = true
  quiet : turn.program.isResting = true → a'.session.isNotified = true ∨ a'.queue = []
  ended : turn.program.isFinished = true → a'.queue = [] ∧ a'.session.accepting = false
  awaited : ∀ h, turn.program.isJoining h = true →
    ∃ other, a'.program? h = some other ∧ ((∃ k point, other = .handler k point) ∨ other.isFinished = true)
  waits : ∀ next, turn = .wait next → next.mayWait = true ∧
    (next.isResting = true → a'.session.isNotified = false) ∧ ∀ h, next.isJoining h = true → a' = a

/-- After its last response an execution may wait at most for the queue. -/
lemma Works.lastWords {w : RunPoint → Program} (hw : Executes i w) (t : Transit)
    (future : a'.session.future = a.session.future) : Works a a' (t.lastWords.map w) := by
  have hplain : (t.lastWords.map w).program.executes = true ∧ (t.lastWords.map w).program.isResting = false ∧
      (t.lastWords.map w).program.isFinished = false ∧ ∀ h, (t.lastWords.map w).program.isJoining h = false := by
    rcases hw with rfl | rfl
    · cases t <;> exact ⟨rfl, rfl, rfl, fun _ => rfl⟩
    · cases t <;> exact ⟨rfl, rfl, rfl, fun _ => rfl⟩
  obtain ⟨hexecutes, hresting, hfinished, hjoining⟩ := hplain
  refine ⟨future, .inl hexecutes, fun h => ?_, fun h => ?_, fun y h => ?_, fun next hn => ?_⟩
  · cases hresting.symm.trans h
  · cases hfinished.symm.trans h
  · cases (hjoining y).symm.trans h
  · have hnext : (t.lastWords.map w).program = next := by rw [hn]; rfl
    rw [hnext] at hresting hjoining
    refine ⟨?_, fun h => ?_, fun y h => ?_⟩
    · cases t with
      | done r => cases hn
      | waiting y =>
        cases hn
        rcases hw with rfl | rfl <;> rfl
    · cases hresting.symm.trans h
    · cases (hjoining y).symm.trans h

/-- It goes on at a point where it looks for something to do. -/
lemma Works.go (future : a'.session.future = a.session.future) (executes : next.executes = true)
    (quiet : next.isResting = true → a'.queue = []) (joining : ∀ h, next.isJoining h = false) :
    Works a a' (.go next) := by
  refine ⟨future, .inl executes, .inr ∘ quiet, fun h => ?_, fun y h => ?_, fun next hn => (by cases hn)⟩
  · change next.isFinished = true at h
    cases next with
    | finished result => cases executes
    | _ => cases h
  · cases (joining y).symm.trans h

/-- It comes to its end. -/
lemma Works.ends (a : Affairs) (queue : a.queue = []) (result : Except Error Unit) :
    Works a (a.onSession Session.finish).disarm (.done result) := by
  have hsession := Staffed.disarm_session (a.onSession Session.finish)
  refine ⟨?_, .inr rfl, fun h => (by cases h), fun _ => ⟨?_, ?_⟩, fun y h => (by cases h), fun next hn => (by cases hn)⟩
  · rw [hsession]
    rfl
  · rw [Affairs.queue, hsession]
    exact queue
  · rw [hsession]
    rfl

/-- The step of a point at which a task is executed. -/
lemma RunStep.works {w : RunPoint → Program} (hw : Executes i w) {point : RunPoint} {turn : Turn RunPoint}
    (step : a.RunStep c point a' turn) (h : Attention (some p) a) (place : a.executor? = some (w point)) :
    Works a a' (turn.map w) := by
  have hjoins (t : Task) (y z : ProcessId) (d : Option Deadline) :
      (w (.joining t y d)).isJoining z = true ↔ y = z := by
    rcases hw with rfl | rfl <;> exact beq_iff_eq
  have hplain (t : Task) (y : ProcessId) (d : Option Deadline) :
      (w (.joining t y d)).isResting = false ∧ (w (.joining t y d)).isFinished = false ∧
        (w (.joining t y d)).mayWait = true := by
    rcases hw with rfl | rfl <;> exact ⟨rfl, rfl, rfl⟩
  cases step with
  | begins t handler deadline inTime =>
    obtain ⟨hresting, hfinished, -⟩ := hplain t a.processes.length deadline
    refine ⟨rfl, .inl (hw.executes _), fun h => ?_, fun h => ?_, fun y hy => ?_, fun next hn => (by cases hn)⟩
    · cases hresting.symm.trans h
    · cases hfinished.symm.trans h
    · rw [← (hjoins t _ y deadline).mp hy]
      refine ⟨.handler t.context (.ready handler), ?_, .inl ⟨_, _, rfl⟩⟩
      change Option.map _ (a.processes ++ [_])[a.processes.length]? = _
      rw [List.getElem?_concat_length]
      rfl
  | refuses t handler late answers =>
    refine .lastWords hw _ ?_
    rw [answers.frame.1, stop_session]
    rfl
  | stopped t deadline ended => exact .lastWords hw (.done (.ok ())) rfl
  | returned t deadline ended answers =>
    refine .lastWords hw _ ?_
    rw [answers.frame.1]
    rfl
  | expires t y deadline budget interrupts =>
    refine .lastWords hw _ ?_
    rw [interrupts.frame.1]
    rfl
  | waits t y deadline =>
    obtain ⟨hresting, hfinished, hwaits⟩ := hplain t y deadline
    refine ⟨rfl, .inl (hw.executes _), fun h => ?_, fun h => ?_, fun z hz => ?_, fun next hn => ?_⟩
    · cases hresting.symm.trans h
    · cases hfinished.symm.trans h
    · exact h.awaited _ z place hz
    · cases hn
      refine ⟨hwaits, fun h => ?_, fun _ _ => rfl⟩
      cases hresting.symm.trans h
  | mails y mails =>
    refine .lastWords hw _ ?_
    rw [mails.frame.1]

/-- A step of the worker. -/
lemma WorkerStep.works {point : WorkerPoint} {turn : Turn WorkerPoint} (step : a.WorkerStep c point a' turn)
    (h : Attention (some p) a) (place : a.executor? = some (.worker i point)) :
    Works a a' (turn.map (.worker i)) := by
  cases step with
  | takes some =>
    obtain ⟨b, rest, -, -, rfl⟩ := Session.dequeue?_eq_some some
    exact .go rfl rfl (fun h => by cases h) fun _ => rfl
  | rests none accepting => exact .go rfl rfl (fun _ => queue_of_dequeue?_none none) fun _ => rfl
  | ends none closed => exact .ends a (queue_of_dequeue?_none none) _
  | hears notified => exact .go rfl rfl (fun h => by cases h) fun _ => rfl
  | waits unnotified =>
    refine ⟨rfl, .inl rfl, fun hresting => h.quiet _ place hresting, fun h => ?_, fun y h => ?_, fun next hn => ?_⟩
    · cases h
    · cases h
    · cases hn
      exact ⟨rfl, fun _ => unnotified, fun y h => (by cases h)⟩
  | leaves => exact .go rfl rfl (fun h => by cases h) fun _ => rfl
  | runs step =>
    have hworks := step.works (w := fun point => .worker i (.running point)) (.inr rfl) h place
    rename_i turn
    cases turn <;> exact hworks

/-- A step of the process that executes the tasks. -/
lemma Effect.works {turn : Turn Program} (effect : a.Effect c i program a' turn) (h : Attention (some p) a)
    (place : a.executor? = some program)
    (solo : ∀ j point, program = .single j point → a.session.backlog = none) : Works a a' turn := by
  have hposted := h.posted program place
  cases effect with
  | single step =>
    cases step with
    | ends =>
      refine .ends a ?_ _
      rw [queue, solo i _ rfl]
      rfl
    | runs step =>
      have hworks := step.works (.inl rfl) h place
      rename_i turn
      cases turn <;> exact hworks
  | worker step => exact step.works h place
  | idles result =>
    refine ⟨rfl, hposted, fun h => ?_, fun hfinished => h.ended _ place hfinished, fun y h => ?_, fun next hn => ?_⟩
    · cases h
    · cases h
    · cases hn
      exact ⟨rfl, fun h => (by cases h), fun y h => (by cases h)⟩
  | _ => rcases hposted with h | h <;> cases h

lemma Performs.place {x : Step} {turn : Turn Program} (performs : a.Performs i c p x a' turn) :
    a.program? p = some x.program := by
  obtain ⟨y, hy, hprogram, -⟩ := performs.process
  rw [program?_of_some hy, hprogram]

namespace Attention

/-- A turn begins or ends. -/
lemma turn {turning' : Option ProcessId} (h : Attention turning a) (session : b.session = a.session)
    (processes : b.processes = a.processes)
    (alert : ∀ program, a.executor? = some program → a.session.future ≠ turning' → b.awake = true ∨ a.MayWait program) :
    Attention turning' b := by
  cases a
  cases b
  cases session
  cases processes
  refine ⟨h.manned, h.posted, h.quiet, h.ended, h.awaited, fun program hprogram hturn => ?_⟩
  refine (alert program hprogram hturn).imp id fun hwait => ?_
  exact ⟨hwait.waits, hwait.unnotified, hwait.unended⟩

/-- A process begins its turn. -/
lemma begins (h : Attention none a) (p : ProcessId) : Attention (some p) (a.drowse p) := by
  refine h.turn rfl rfl fun program hprogram hturn => ?_
  refine (h.alert program hprogram fun hnone => ?_).imp (fun hawake => ?_) id
  · rw [executor?, hnone] at hprogram
    cases hprogram
  · exact Bool.and_eq_true_iff.mpr ⟨hawake, decide_eq_true hturn⟩

/-- The process that executes the tasks takes a step. -/
lemma own (h : Attention (some p) a) (staffed : a.Staffed i c) (future : a.session.future = some p)
    (place : a.program? p = some program) {turn : Turn Program} (effect : a.Effect c i program a' turn) :
    Attention (some p) (a'.setProgram p turn.program) ∧ Works a a' turn ∧
      (a'.setProgram p turn.program).executor? = some turn.program := by
  have hexecutor : a.executor? = some program := by rw [executor?, future, Option.bind_some, place]
  obtain ⟨x, hx, hprogram⟩ := Option.map_eq_some_iff.mp place
  have hworks := effect.works h hexecutor fun j point hp => (staffed.serves p x hx).solo j point (hprogram.trans hp)
  have hplace : a'.program? p = some program := effect.crew.place place
  obtain ⟨y, hy, -⟩ := Option.map_eq_some_iff.mp hplace
  have hfuture : a'.session.future = some p := hworks.future.trans future
  refine ⟨.working hfuture (program?_setProgram_self hy) hworks.posted hworks.quiet hworks.ended fun z hz => ?_, hworks,
    ?_⟩
  rotate_left
  · rw [executor?, show (a'.setProgram p turn.program).session.future = some p from hfuture, Option.bind_some]
    exact program?_setProgram_self hy
  obtain ⟨other, hother, hkind⟩ := hworks.awaited z hz
  have hzp : z ≠ p := by
    rintro rfl
    cases hplace.symm.trans hother
    rcases h.posted program hexecutor with hexecutes | hfinished
    · rcases hkind with ⟨k, point, rfl⟩ | hfinished
      · cases hexecutes
      · cases program <;> cases hexecutes <;> cases hfinished
    · cases program with
      | finished result => cases effect; cases hz
      | _ => cases hfinished
  exact ⟨other, (program?_setProgram_ne hzp).trans hother, hkind⟩

/-- Another process takes a step, after which others may be woken. -/
lemma others (h : Attention turning a) (staffed : a.Staffed i c) (other : a.session.future ≠ some p)
    (place : a.program? p = some program) {turn : Turn Program} (effect : a.Effect c i program a' turn)
    (session : b.session = a'.session) (processes : b.processes = a'.processes)
    (awake : a'.awake = true → b.awake = true)
    (wakes : (∃ result, turn = .done result) → a'.executing (·.isJoining p) = true → b.awake = true) :
    Attention turning (b.setProgram p turn.program) ∧ b.session.future = a.session.future := by
  have hprograms : b.program? = a'.program? := funext (program?_congr processes)
  have hbeside : a.Beside b := by
    refine (effect.beside (staffed.aside other place)).trans (.of_session session awake fun q program hq => ?_)
    rw [hprograms]
    exact hq
  obtain ⟨hhandler, hended, hfinishes⟩ := effect.leads
  refine ⟨(h.beside staffed hbeside).setProgram ?_ (hbeside.programs p _ place) hhandler hended fun hfinished => ?_,
    hbeside.future⟩
  · rw [hbeside.future]
    exact other
  · refine (hfinishes hfinished).imp id fun hdone hjoining => wakes hdone ?_
    rw [executing, session, hprograms] at hjoining
    exact hjoining

/-- A process that was stopped ends. -/
lemma stops (h : Attention (some p) a) (staffed : a.Staffed i c) {y : Process} (hy : a.processes[p]? = some y)
    (hcancelled : y.cancelled = true) : Attention none (a.finish p none) := by
  have hplace : a.program? p = some y.program := program?_of_some hy
  by_cases hp : a.session.future = some p
  · -- it had ended before it was stopped
    have hexecutor : a.executor? = some y.program := by rw [executor?, hp, Option.bind_some, hplace]
    have hfinished : y.program.isFinished = true := by
      refine (h.posted _ hexecutor).resolve_left fun hexecutes => ?_
      cases hcancelled.symm.trans ((staffed.serves p y hy).executor hexecutes).2
    obtain ⟨hqueue, haccepting⟩ := h.ended _ hexecutor hfinished
    have hworking : Attention (some p) (a.setProgram p (.finished none)) := by
      refine .working hp (program?_setProgram_self hy) (.inr rfl) (fun h => ?_) (fun _ => ⟨hqueue, haccepting⟩)
        fun z h => ?_
      · cases h
      · cases h
    refine hworking.turn rfl rfl fun program hexecutor' _ => .inr (.of_finished _ ?_)
    have hnext : (a.setProgram p (.finished none)).executor? = some (.finished none) := by
      rw [executor?, show (a.setProgram p (.finished none)).session.future = some p from hp, Option.bind_some]
      exact program?_setProgram_self hy
    cases hnext.symm.trans hexecutor'
    rfl
  · have hp' : decide (a.session.future ≠ some p) = true := decide_eq_true hp
    have hbeside : a.Beside ((a.drowse p).rouse (decide (a.session.future ≠ some p) && a.executing (·.isJoining p))) :=
      .of_session rfl (fun hawake => Bool.or_eq_true_iff.mpr (.inl (Bool.and_eq_true_iff.mpr ⟨hawake, hp'⟩)))
        fun _ _ => id
    have hends : Attention (some p) (a.finish p none) := by
      refine (h.beside staffed hbeside).setProgram hp hplace (fun _ _ _ => .inr rfl) (fun _ => rfl) ?_
      exact fun _ => .inr fun hjoining =>
        Bool.or_eq_true_iff.mpr (.inr (Bool.and_eq_true_iff.mpr ⟨hp', hjoining⟩))
    exact hends.turn rfl rfl fun program hexecutor _ => hends.alert program hexecutor hp

end Attention

/-! ### From outside -/

/-- A process more. -/
lemma Beside.add (a : Affairs) (program : Program) : a.Beside (a.addProcess program) := by
  refine .of_session rfl id fun q other hq => ?_
  obtain ⟨x, hx, hother⟩ := Option.map_eq_some_iff.mp hq
  rw [program?_of_some (addProcess_of_some hx), hother]

/-- A task is put at the end of those that wait. -/
lemma Beside.enqueue {backlog : Backlog} (some : a.session.backlog = some backlog)
    (accepting : a.session.accepting = true) (t : Task) : a.Beside (a.enqueue backlog t) := by
  refine ⟨rfl, fun _ h => ?_, id, fun _ => .inr ⟨accepting, rfl⟩, fun _ => rfl, fun _ => .inr fun hresting => ?_,
    fun hawake => ?_, fun _ _ => id⟩
  · cases some.symm.trans h
  · exact Bool.or_eq_true_iff.mpr (.inr hresting)
  · exact Bool.or_eq_true_iff.mpr (.inl hawake)

/-- What is done from outside leaves the process attentive. -/
lemma Outside.attention (outside : a.Outside i c accepted b accepted') (staffed : a.Staffed i c)
    (h : Attention none a) : Attention none b := by
  have hcontext (r : Request) : a.Beside (a.addContext c r) := .of_session rfl id fun _ _ => id
  cases outside with
  | timeout elapsed ofSession => exact h.beside staffed (.add a _)
  | traffic f => exact h.beside staffed (.add a _)
  | declines r => exact h.beside staffed (hcontext r)
  | @enqueues r b backlog accepting room =>
    have henqueue : (a.addContext c r).Beside ((a.addContext c r).enqueue b (a.nextTask r)) :=
      .enqueue (a := a.addContext c r) backlog accepting _
    exact h.beside staffed ((hcontext r).trans henqueue)
  | engages r backlog accepting vacant =>
    have hworking : Attention (some a.processes.length) ((a.addContext c r).engage i (a.nextTask r)) := by
      refine .working rfl (show _ = some (Program.single i (.start (a.nextTask r))) from ?_) (.inl rfl) (fun h => ?_) (fun h => ?_)
        fun y h => ?_
      · change Option.map _ (a.processes ++ [_])[a.processes.length]? = _
        rw [List.getElem?_concat_length]
        rfl
      · cases h
      · cases h
      · cases h
    exact hworking.turn rfl rfl fun _ _ _ => .inl rfl
  | closes =>
    have hclosed : a.Beside (a.onSession Session.stopAccepting) := .of_parts rfl rfl (fun h => by cases h) id fun _ _ => id
    exact h.beside staffed (hclosed.trans (.notify _))

/-- It is attentive when the session is opened. -/
lemma Opened.attention (opened : a.Opened i c) : Attention none a := by
  have hworker (future : a.session.future = some 1) (place : a.program? 1 = some (.worker i .choosing))
      (awake : a.awake = true) : Attention none a := by
    have hworking : Attention (some 1) a := by
      refine .working future place (.inl rfl) (fun h => ?_) (fun h => ?_) fun y h => ?_
      · cases h
      · cases h
      · cases h
    exact hworking.turn rfl rfl fun _ _ _ => .inl awake
  cases opened with
  | single name =>
    -- no process executes tasks yet
    exact ⟨fun h => absurd rfl h, fun _ h => (by cases h), fun _ h => (by cases h), fun _ h => (by cases h),
      fun _ _ h => (by cases h), fun _ h => (by cases h)⟩
  | multi name limit => exact hworker rfl rfl rfl
  | watched name limit milliseconds => exact hworker rfl rfl rfl

end Affairs

open Affairs

variable {i : SessionId} {c : ChannelId} {o a : Affairs} {accepted : List Task} {steps : List Step}

/-! ### The whole course -/

/-- The process that executes the tasks is attentive in the whole course of the affairs. -/
lemma Course.attention {whole : Bool} {turning : Option ProcessId} (h : Course i c o whole turning a accepted steps) :
    Attention turning a := by
  induction h with
  | opens opened => exact opened.attention
  | outside course outside ih => exact outside.attention course.staffed ih
  | @misses _ a _ _ p course ended ih =>
    refine ih.turn rfl rfl fun program hprogram _ => ?_
    by_cases hp : a.session.future = some p
    · rw [executor?, hp, Option.bind_some] at hprogram
      obtain ⟨x, hx, rfl⟩ := Option.map_eq_some_iff.mp hprogram
      exact .inr (.of_finished a (ended x hx))
    · refine (ih.alert program hprogram fun hnone => ?_).imp (fun hawake => ?_) id
      · rw [executor?, hnone] at hprogram
        cases hprogram
      · exact Bool.and_eq_true_iff.mpr ⟨hawake, decide_eq_true hp⟩
  | begins p course ih => exact ih.begins p
  | @goes _ p a a' _ _ x next course performs ih =>
    have hplace := performs.place
    by_cases hp : a.session.future = some p
    · exact (ih.own course.staffed hp hplace performs.effect).1
    · refine (ih.others (b := a') course.staffed hp hplace performs.effect rfl rfl id fun hdone => ?_).1
      obtain ⟨result, hdone⟩ := hdone
      cases hdone
  | @cut _ p a _ _ course ih =>
    refine ih.turn rfl rfl fun program hprogram _ => ?_
    by_cases hp : a.session.future = some p
    · exact .inl (Bool.or_eq_true_iff.mpr (.inr (decide_eq_true hp)))
    · exact (ih.alert program hprogram hp).imp (fun hawake => Bool.or_eq_true_iff.mpr (.inl hawake)) id
  | @waits _ p a a' _ _ x next spent course performs idle ih =>
    have hplace := performs.place
    by_cases hp : a.session.future = some p
    · obtain ⟨hown, hworks, hexecutor⟩ := ih.own course.staffed hp hplace performs.effect
      obtain ⟨hwaits, hunnotified, hsame⟩ := hworks.waits next rfl
      refine hown.turn rfl rfl fun program hprogram _ => ?_
      cases hexecutor.symm.trans hprogram
      cases spent with
      | true => exact .inl (Bool.or_eq_true_iff.mpr (.inr (decide_eq_true (hworks.future.trans hp))))
      | false =>
        -- it waits for a handler that has not ended
        refine .inr ⟨hwaits, hunnotified, fun z result hjoining hended => ?_⟩
        rw [hsame z hjoining] at hended
        obtain ⟨y, hy, -⟩ := performs.process
        by_cases hz : z = p
        · subst hz
          rw [Option.some.inj ((program?_setProgram_self hy).symm.trans hended)] at hjoining
          cases hjoining
        · exact idle.resolve_left Bool.false_ne_true z result hjoining ((program?_setProgram_ne hz).symm.trans hended)
    · obtain ⟨hothers, hfuture⟩ := ih.others (b := a') course.staffed hp hplace performs.effect rfl rfl id fun hdone => by
        obtain ⟨result, hdone⟩ := hdone
        cases hdone
      refine hothers.turn rfl rfl fun program hexecutor _ => ?_
      refine (hothers.alert program hexecutor ?_).imp (fun hawake => Bool.or_eq_true_iff.mpr (.inl hawake)) id
      exact fun h => hp (hfuture.symm.trans h)
  | @ends _ p a a' _ _ x result course performs ih =>
    have hplace := performs.place
    by_cases hp : a.session.future = some p
    · obtain ⟨hown, -, hexecutor⟩ := ih.own course.staffed hp hplace performs.effect
      refine hown.turn rfl rfl fun program hprogram _ => ?_
      cases hexecutor.symm.trans hprogram
      exact .inr (.of_finished _ rfl)
    · have hfuture := (performs.effect.beside (course.staffed.aside hp hplace)).future
      have hp' : decide (a'.session.future ≠ some p) = true := decide_eq_true fun h => hp (hfuture.symm.trans h)
      obtain ⟨hothers, hstays⟩ := ih.others
        (b := (a'.drowse p).rouse (decide (a'.session.future ≠ some p) && a'.executing (·.isJoining p))) course.staffed
        hp hplace performs.effect rfl rfl
        (fun hawake => Bool.or_eq_true_iff.mpr (.inl (Bool.and_eq_true_iff.mpr ⟨hawake, hp'⟩)))
        fun _ hjoining => Bool.or_eq_true_iff.mpr (.inr (Bool.and_eq_true_iff.mpr ⟨hp', hjoining⟩))
      refine hothers.turn rfl rfl fun program hexecutor _ => hothers.alert program hexecutor ?_
      exact fun h => hp (hstays.symm.trans h)
  | stops p course process before after turn ih =>
    obtain ⟨y, hy, -, hcancelled⟩ := process
    exact (ih.begins p).stops (course.staffed.congr rfl rfl rfl) hy hcancelled

/-! ### Rest -/

namespace Program

variable {program : Program}

lemma answer?_of_still (still : program.isPending = false) : program.answer? = none := by
  cases program with
  | single j point =>
    cases point with
    | sending y => cases still
    | _ => rfl
  | worker j point =>
    cases point with
    | running point =>
      cases point with
      | sending y => cases still
      | _ => rfl
    | _ => rfl
  | writer channel => rfl
  | finished result => rfl
  | _ => cases still

lemma owesClose_of_still (still : program.isPending = false) : program.owesClose = false := by
  cases program with
  | timeout j elapsed ofSession point => cases still
  | _ => rfl

/-- Where a process may wait, it has no task in hand. -/
lemma tasks_of_mayWait (waits : program.mayWait = true) (still : program.isPending = false) : program.tasks = [] := by
  cases program with
  | single j point =>
    cases point with
    | start t => cases waits
    | _ => rfl
  | worker j point =>
    cases point with
    | running point =>
      cases point with
      | start t => cases waits
      | _ => rfl
    | _ => rfl
  | timeout j elapsed ofSession point => cases still
  | _ => rfl

lemma tasks_of_still (still : program.isPending = false) (aside : program.executes = false) : program.tasks = [] := by
  cases program with
  | single j point => cases aside
  | worker j point => cases aside
  | timeout j elapsed ofSession point => cases still
  | _ => rfl

/-- Where a process that executes tasks may wait and neither rests nor holds anything, it waits for a handler. -/
lemma joining_of_mayWait (executes : program.executes = true) (waits : program.mayWait = true)
    (still : program.isPending = false) : program.isResting = true ∨ ∃ h, program.isJoining h = true := by
  cases program with
  | single j point =>
    cases point with
    | joining t h d => exact .inr ⟨h, beq_self_eq_true h⟩
    | sending h => cases still
    | _ => cases waits
  | worker j point =>
    cases point with
    | resting => exact .inl rfl
    | choosing => cases waits
    | running point =>
      cases point with
      | joining t h d => exact .inr ⟨h, beq_self_eq_true h⟩
      | sending h => cases still
      | _ => cases waits
  | _ => cases executes

end Program

namespace Affairs.Attention

variable (h : Attention none a) (asleep : a.session.future ≠ none → a.awake = false)
  (still : ∀ program ∈ a.programs, program.isPending = false)

include h asleep still

/-- When nothing goes on any more, the process that executes the tasks waits at a point where it may, and for no
handler. -/
lemma idle_of_still {program : Program} (place : a.executor? = some program) :
    a.MayWait program ∧ program.isPending = false ∧ ∀ y, program.isJoining y = false := by
  have hfuture : a.session.future ≠ none := by
    intro hnone
    rw [executor?, hnone] at place
    cases place
  have hwait : a.MayWait program :=
    (h.alert program place hfuture).resolve_left fun hawake => by cases (asleep hfuture).symm.trans hawake
  have hmem {q : ProcessId} {other : Program} (hq : a.program? q = some other) : other.isPending = false :=
    still other (List.mem_of_getElem? ((program?_eq a q).symm.trans hq))
  refine ⟨hwait, ?_, fun y => ?_⟩
  · obtain ⟨e, -, he⟩ := Option.bind_eq_some_iff.mp place
    exact hmem he
  · rw [Bool.eq_false_iff]
    intro hjoining
    obtain ⟨other, hother, ⟨k, point, rfl⟩ | hfinished⟩ := h.awaited program y place hjoining
    · cases hmem hother
    · cases other with
      | finished result => exact hwait.unended y result hjoining hother
      | _ => cases hfinished

lemma queue_of_still (staffed : a.Staffed i c) : a.queue = [] := by
  cases hb : a.session.backlog with
  | none =>
    rw [queue, hb]
    rfl
  | some backlog =>
    obtain ⟨e, he⟩ := Option.ne_none_iff_exists'.mp (h.manned fun hnone => by cases hb.symm.trans hnone)
    have hlt := staffed.hooks e (.inl he)
    have hexecutor : a.executor? = some a.processes[e].program := by
      rw [executor?, he, Option.bind_some, program?, List.getElem?_eq_getElem hlt]
      rfl
    obtain ⟨hwait, hstill, hjoining⟩ := h.idle_of_still asleep still hexecutor
    rcases h.posted _ hexecutor with hexecutes | hfinished
    · rcases Program.joining_of_mayWait hexecutes hwait.waits hstill with hresting | ⟨y, hy⟩
      · refine (h.quiet _ hexecutor hresting).resolve_left fun hnotified => ?_
        cases (hwait.unnotified hresting).symm.trans hnotified
      · cases (hjoining y).symm.trans hy
    · exact (h.ended _ hexecutor hfinished).1

lemma flight_of_still (staffed : a.Staffed i c) : a.flight = [] := by
  cases hf : a.session.inFlight with
  | none => exact flight_eq_nil hf
  | some f =>
    obtain ⟨t, d, hpoint, -⟩ := staffed.joining f hf
    obtain ⟨program, hexecutor, hpoint⟩ := Option.bind_eq_some_iff.mp hpoint
    obtain ⟨-, -, hjoining⟩ := h.idle_of_still asleep still hexecutor
    have hself : program.isJoining f.handler = true := by
      cases program with
      | single j point =>
        cases hpoint
        exact beq_self_eq_true f.handler
      | worker j point =>
        cases point with
        | running point =>
          cases hpoint
          exact beq_self_eq_true f.handler
        | _ => cases hpoint
      | _ => cases hpoint
    cases (hjoining f.handler).symm.trans hself

/-- When nothing goes on any more, nothing is left in anybody's hands. -/
lemma rest (staffed : a.Staffed i c) :
    a.custody = [] ∧ (a.gather fun program => program.answer?.toList) = [] ∧ ¬a.Owing := by
  refine ⟨?_, ?_, ?_⟩
  · have htasks : a.gather Program.tasks = [] := by
      refine List.flatMap_eq_nil_iff.mpr fun program hmem => ?_
      obtain ⟨q, hq⟩ := List.mem_iff_getElem?.mp hmem
      rw [← program?_eq] at hq
      by_cases hfuture : a.session.future = some q
      · have hexecutor : a.executor? = some program := by rw [executor?, hfuture, Option.bind_some, hq]
        obtain ⟨hwait, hstill, -⟩ := h.idle_of_still asleep still hexecutor
        exact Program.tasks_of_mayWait hwait.waits hstill
      · exact Program.tasks_of_still (still program hmem) (staffed.aside hfuture hq)
    rw [custody, h.flight_of_still asleep still staffed, htasks, h.queue_of_still asleep still staffed]
    rfl
  · refine List.flatMap_eq_nil_iff.mpr fun program hmem => ?_
    rw [Program.answer?_of_still (still program hmem)]
    rfl
  · rintro ⟨q, other, hq, howes⟩
    cases (Program.owesClose_of_still (still other (List.mem_of_getElem? hq))).symm.trans howes

end Affairs.Attention

end GraphServer
