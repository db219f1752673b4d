import GraphServer.Proofs.Session.Ledger

/-!
The books of a session are in order all along.

* `Books`: where the accepted tasks are, what became of the last responses, and how the session comes to its
  end;
* `Course.books`: **they are in order in the whole course of its affairs**.
-/

namespace GraphServer

open Affairs

variable {i : SessionId} {c : ChannelId} {o a a' b : Affairs} {p : ProcessId} {accepted accepted' : List Task}
  {steps : List Step} {x : Step}

/-! ### Programs -/

lemma TimeoutPoint.owesClose_of_tasks {point : TimeoutPoint} (h : point.tasks ≠ []) : point.owesClose = true := by
  induction point with
  | answering rest => rfl
  | sending y next ih => exact Bool.or_eq_true_iff.mpr (.inr (ih h))
  | _ => exact absurd rfl h

/-- Who has tasks in hand without executing them is to close the channel. -/
lemma Program.owesClose_of_tasks {program : Program} (executes : program.executes = false) (h : program.tasks ≠ []) :
    program.owesClose = true := by
  cases program with
  | timeout j elapsed ofSession point => exact TimeoutPoint.owesClose_of_tasks h
  | single j point => cases executes
  | worker j point => cases executes
  | _ => exact absurd rfl h

lemma Program.context_mem_of_tasks {program : Program} {t : Task} (h : t ∈ program.tasks) :
    t.context ∈ program.contexts := by
  cases program with
  | timeout j elapsed ofSession point => exact List.mem_map_of_mem h
  | single j point =>
    cases point with
    | start u => exact List.mem_map_of_mem h
    | _ => cases h
  | worker j point =>
    cases point with
    | running point =>
      cases point with
      | start u => exact List.mem_map_of_mem h
      | _ => cases h
    | _ => cases h
  | _ => cases h

/-! ### Hands -/

namespace Affairs.Staffed

/-- What is in somebody's hands is a context. -/
lemma custody_lt (h : a.Staffed i c) : ∀ k ∈ a.custody, k < a.contexts.length := by
  intro k hk
  rcases List.mem_append.mp hk with hk | hk
  · obtain ⟨f, hf, rfl⟩ := Option.map_eq_some_iff.mp (Option.mem_toList.mp hk)
    exact h.flight_lt f hf
  · obtain ⟨t, ht, rfl⟩ := List.mem_map.mp hk
    rcases List.mem_append.mp ht with ht | ht
    · obtain ⟨program, hprogram, ht⟩ := List.mem_flatMap.mp ht
      obtain ⟨y, hy, rfl⟩ := List.mem_map.mp hprogram
      obtain ⟨q, hq⟩ := List.mem_iff_getElem?.mp hy
      exact (h.serves q y hq).known _ (Program.context_mem_of_tasks ht)
    · exact h.queued t ht

end Affairs.Staffed

/-! ### The books -/

/-- The books of a session. -/
structure Books (i : SessionId) (c : ChannelId) (accepted : List Task) (steps : List Step) (a : Affairs) : Prop where
  custody : a.Custody accepted (∀ x ∈ steps, x.keepsAnswers c ∧ x.keepsClosing c)
  closing : Closing (∀ x ∈ steps, x.keepsClosing c) a
  ledger : ∃ book lost, Ledger i c accepted steps book lost a

namespace Books

lemma forall_concat {P : Step → Prop} : (∀ y ∈ steps ++ [x], P y) ↔ (∀ y ∈ steps, P y) ∧ P x := by
  simp only [List.mem_append, List.mem_singleton, or_imp, forall_and, forall_eq]

/-- Turns do not matter to the books. -/
lemma congr (h : Books i c accepted steps a) (session : b.session = a.session) (contexts : b.contexts = a.contexts)
    (processes : b.processes = a.processes) (sent : b.sent = a.sent) : Books i c accepted steps b := by
  have hprograms : b.programs = a.programs := by rw [programs, programs, processes]
  obtain ⟨book, lost, hledger⟩ := h.ledger
  refine ⟨h.custody.congr contexts ?_, h.closing.congr (by rw [session]) sent ?_, book, lost, ?_⟩
  · rw [Affairs.custody, Affairs.custody, flight, flight, queue, queue, session, gather, gather, hprograms]
  · rw [Owing, Owing, hprograms]
  · rw [← List.append_nil accepted]
    refine hledger.extend (fun t ht => (by cases ht)) (.inl rfl) (fun t _ => ?_) (by rw [session]) sent ?_
    · rw [isOpen_congr contexts]
    · rw [gather, gather, hprograms]

/-- A step of a process. -/
lemma performs (h : Books i c accepted steps a) (staffed : a.Staffed i c) {turn : Turn Program}
    (performs : a.Performs i c p x a' turn) :
    Books i c accepted (steps ++ [x]) (a'.setProgram p turn.program) := by
  obtain ⟨y, hy, hprogram, hgoes⟩ := performs.process
  have hplace : a.program? p = some x.program := hprogram ▸ program?_of_some hy
  have hnext : x.next = turn.program := by rw [Step.next, performs.leads, Option.map_some, Option.getD_some]
  have hshift := performs.effect.shift hplace
  obtain ⟨new, put, refused, hdeed⟩ :=
    Effect.deed staffed hy hgoes (hprogram ▸ h.custody.nodup_due hshift) (hprogram ▸ performs.effect)
  rw [hprogram] at hdeed
  obtain ⟨book, lost, hledger⟩ := h.ledger
  refine ⟨?_, ?_, ?_⟩
  · refine h.custody.deed hshift hdeed rfl rfl fun hall => ?_
    exact (forall_concat.mp hall).1
  · refine h.closing.step staffed hshift hdeed.sent hdeed.close ⟨hdeed.ages.owes, hdeed.ages.expires, hdeed.ages.late⟩ ?_
    rw [forall_concat, Step.keepsClosing, hnext, performs.after.sentOver]
    rfl
  · exact hledger.step h.custody hshift hdeed.toPost (fun k r hnew => h.custody.mem_waiting hshift (hdeed.mem_due hnew))
      rfl rfl rfl performs.before performs.after rfl hnext

/-- The end of a process that was stopped. -/
lemma stops (h : Books i c accepted steps a) (staffed : a.Staffed i c)
    (process : ∃ y, a.processes[p]? = some y ∧ y.program = x.program ∧ y.cancelled = true)
    (before : x.before.Shows i c a) (after : x.after.Shows i c (a.finish p none)) (turn : x.turn = none) :
    Books i c accepted (steps ++ [x]) (a.setProgram p (.finished none)) := by
  obtain ⟨y, hy, hprogram, hcancelled⟩ := process
  have hplace : a.program? p = some x.program := hprogram ▸ program?_of_some hy
  have hnext : x.next = .finished none := by rw [Step.next, turn]; rfl
  have hshift := Shift.stop hplace none
  have hexecutes : x.program.executes = false := by
    rw [← hprogram, Bool.eq_false_iff]
    intro hexecutes
    cases hcancelled.symm.trans ((staffed.serves p y hy).executor hexecutes).2
  have hpost : Post a x.program (a.finish p none) (.finished none) none none x.program.answer?.toList := by
    refine ⟨rfl, fun k r h => ?_, (List.append_nil _).symm, List.append_nil _, fun h => ?_, .steady rfl fun h => ?_⟩
    · cases h
    · cases h
    · cases h
  obtain ⟨book, lost, hledger⟩ := h.ledger
  refine ⟨?_, ?_, ?_⟩
  · refine h.custody.forsake hshift rfl rfl rfl fun hall => ?_
    obtain ⟨hbefore, -, hkeeps⟩ := forall_concat.mp hall
    refine ⟨hbefore, ?_⟩
    by_contra htasks
    have howes := Program.owesClose_of_tasks hexecutes htasks
    have howing : a.Owing := ⟨p, x.program, hshift.place, howes⟩
    rcases hkeeps howes with hn | hclose
    · rw [hnext] at hn
      cases hn
    · rw [after.sentOver] at hclose
      cases h.closing with
      | owed late somebody silent keeps => exact silent hclose
      | early inTime nobody silent keeps => exact nobody howing
      | settled late nobody closed keeps => exact nobody howing
      | dropped late nobody silent fails => exact nobody howing
  · refine h.closing.step staffed hshift hpost.sent hpost.close ⟨hpost.ages.owes, hpost.ages.expires, hpost.ages.late⟩ ?_
    rw [forall_concat, Step.keepsClosing, hnext, after.sentOver]
    rfl
  · exact hledger.step h.custody hshift hpost (fun k r h => (by cases h)) rfl rfl rfl before after rfl hnext

end Books

/-! ### From outside -/

namespace Affairs

lemma programs_addProcess (a : Affairs) (program : Program) : (a.addProcess program).programs = a.programs ++ [program] :=
  List.map_append

variable {extra : List Program}

/-- Programs more that have nothing to do with the end of the session. -/
lemma owing_append (programs : b.programs = a.programs ++ extra) (aside : ∀ y ∈ extra, y.owesClose = false) :
    b.Owing ↔ a.Owing := by
  have hmem (a : Affairs) : a.Owing ↔ ∃ y ∈ a.programs, y.owesClose = true := by
    constructor
    · rintro ⟨q, other, hq, howes⟩
      exact ⟨other, List.mem_of_getElem? hq, howes⟩
    · rintro ⟨y, hy, howes⟩
      obtain ⟨q, hq⟩ := List.mem_iff_getElem?.mp hy
      exact ⟨q, y, hq, howes⟩
  rw [hmem, hmem, programs]
  constructor
  · rintro ⟨y, hy, howes⟩
    rcases List.mem_append.mp hy with hy | hy
    · exact ⟨y, hy, howes⟩
    · cases (aside y hy).symm.trans howes
  · rintro ⟨y, hy, howes⟩
    exact ⟨y, List.mem_append_left _ hy, howes⟩

/-- Programs more with empty hands. -/
lemma gather_append {α : Type} {f : Program → List α} (programs : b.programs = a.programs ++ extra) :
    b.gather f = a.gather f ++ extra.flatMap f := by
  rw [gather, gather, programs, List.flatMap_append]

end Affairs

namespace Books

/-- A process more that has nothing in hand, or no more tasks to come. -/
lemma spawn (h : Books i c accepted steps a) {extra : List Program} (programs : b.programs = a.programs ++ extra)
    (idle : ∀ y ∈ extra, y.tasks = [] ∧ y.answer? = none ∧ y.owesClose = false) (contexts : b.contexts = a.contexts)
    (queue : b.queue = a.queue) (inFlight : b.session.inFlight = a.session.inFlight)
    (timedOut : b.session.timedOut = a.session.timedOut) (sent : b.sent = a.sent) : Books i c accepted steps b := by
  have htasks : extra.flatMap Program.tasks = [] := List.flatMap_eq_nil_iff.mpr fun y hy => (idle y hy).1
  have hanswers : (extra.flatMap fun program => program.answer?.toList) = [] :=
    List.flatMap_eq_nil_iff.mpr fun y hy => by rw [(idle y hy).2.1]; rfl
  obtain ⟨book, lost, hledger⟩ := h.ledger
  refine ⟨h.custody.congr contexts ?_, h.closing.congr timedOut sent ?_, book, lost, ?_⟩
  · rw [Affairs.custody, Affairs.custody, flight, flight, inFlight, queue, gather_append programs, htasks, List.append_nil]
  · exact owing_append programs fun y hy => (idle y hy).2.2
  · rw [← List.append_nil accepted]
    refine hledger.extend (fun t ht => (by cases ht)) (.inl rfl) (fun t _ => ?_) timedOut sent ?_
    · rw [isOpen_congr contexts]
    · rw [gather_append programs, hanswers, List.append_nil]

/-- A request more, and perhaps its task. -/
lemma grow (h : Books i c accepted steps a) (staffed : a.Staffed i c) (r : Request) {fresh : List Task}
    (hfresh : fresh = [] ∨ fresh = [a.nextTask r] ∧ a.session.accepting = true) {extra : List Program}
    (programs : b.programs = a.programs ++ extra) (idle : ∀ y ∈ extra, y.answer? = none ∧ y.owesClose = false)
    (contexts : b.contexts = (a.addContext c r).contexts) (inFlight : b.session.inFlight = a.session.inFlight)
    (hands : extra.flatMap Program.tasks ++ b.queue = a.queue ++ fresh)
    (timedOut : b.session.timedOut = a.session.timedOut) (sent : b.sent = a.sent) :
    Books i c (accepted ++ fresh) steps b := by
  have hanswers : (extra.flatMap fun program => program.answer?.toList) = [] :=
    List.flatMap_eq_nil_iff.mpr fun y hy => by rw [(idle y hy).1]; rfl
  have hfresh' : fresh = [] ∨ fresh = [a.nextTask r] := hfresh.imp id And.left
  obtain ⟨book, lost, hledger⟩ := h.ledger
  refine ⟨h.custody.extend r hfresh' contexts staffed.custody_lt ?_, h.closing.congr timedOut sent ?_, book, lost, ?_⟩
  · rw [Affairs.custody, Affairs.custody, flight, flight, inFlight, gather_append programs, List.append_assoc, hands,
      ← List.append_assoc, List.map_append, List.append_assoc]
  · exact owing_append programs fun y hy => (idle y hy).2
  · refine hledger.extend (fun t ht => ?_) ?_ (fun t ht => ?_) timedOut sent ?_
    · rcases hfresh' with rfl | rfl
      · cases ht
      · cases List.mem_singleton.mp ht
        rw [isOpen_congr contexts]
        exact isOpen_addContext_self a c r
    · refine hfresh.imp id fun hboth => ?_
      cases htime : a.session.timedOut with
      | none => rfl
      | some elapsed => cases (staffed.shut (htime ▸ rfl)).symm.trans hboth.2
    · obtain ⟨y, hy, -⟩ := h.custody.known t ht
      rw [isOpen_congr contexts]
      exact isOpen_addContext_lt c r (List.getElem?_eq_some_iff.mp hy).1
    · rw [gather_append programs, hanswers, List.append_nil]

end Books

/-- What is done from outside leaves the books in order. -/
lemma Affairs.Outside.books (outside : a.Outside i c accepted b accepted') (staffed : a.Staffed i c)
    (h : Books i c accepted steps a) : Books i c accepted' steps b := by
  have hnone (a : Affairs) : a.programs = a.programs ++ [] := (List.append_nil _).symm
  cases outside with
  | timeout elapsed ofSession =>
    refine h.spawn (programs_addProcess a _) (fun y hy => ?_) rfl rfl rfl rfl rfl
    cases List.mem_singleton.mp hy
    exact ⟨rfl, rfl, rfl⟩
  | traffic f =>
    refine h.spawn (programs_addProcess a _) (fun y hy => ?_) rfl rfl rfl rfl rfl
    cases List.mem_singleton.mp hy
    exact ⟨rfl, rfl, rfl⟩
  | declines r =>
    rw [← List.append_nil accepted]
    refine h.grow staffed r (.inl rfl) (hnone a) (fun y hy => ?_) rfl rfl ?_ rfl rfl
    · cases hy
    · exact (List.append_nil _).symm
  | @enqueues r backlog hbacklog accepting room =>
    refine h.grow staffed r (.inr ⟨rfl, accepting⟩) (hnone a) (fun y hy => ?_) rfl rfl ?_ rfl rfl
    · cases hy
    · have hqueue : a.queue = backlog.tasks := by rw [queue, hbacklog]; rfl
      rw [hqueue]
      rfl
  | engages r backlog accepting vacant =>
    refine h.grow staffed r (.inr ⟨rfl, accepting⟩) (programs_addProcess a (.single i (.start (a.nextTask r))))
      (fun y hy => ?_) rfl rfl ?_ rfl rfl
    · cases List.mem_singleton.mp hy
      exact ⟨rfl, rfl⟩
    · have hqueue : a.queue = [] := by rw [queue, backlog]; rfl
      change [a.nextTask r] ++ a.queue = _
      rw [hqueue]
      rfl
  | closes =>
    refine h.spawn (hnone a) (fun y hy => ?_) rfl ?_ rfl rfl rfl
    · cases hy
    · exact queue_setNotified (a.onSession Session.stopAccepting) true

/-- The books are in order when the session is opened. -/
lemma Affairs.Opened.books (opened : a.Opened i c) : Books i c [] [] a := by
  have hfresh (inTime : a.session.timedOut = none) (custody : a.custody = []) (sent : a.sent = [])
      (idle : ∀ y ∈ a.programs, y.answer? = none ∧ y.owesClose = false) : Books i c [] [] a := by
    have hanswers : (a.gather fun program => program.answer?.toList) = [] :=
      List.flatMap_eq_nil_iff.mpr fun y hy => by rw [(idle y hy).1]; rfl
    refine ⟨⟨List.nodup_nil, fun t ht => (by cases ht), [], ?_, fun _ => rfl⟩, .early inTime ?_ ?_ fun x hx => ?_,
      [], [], .nil, ?_, fun e he => (by cases he), fun elapsed _ e he => (by cases he), ?_, ?_⟩
    · rw [pending, custody]
      exact .nil
    · rintro ⟨q, other, hq, howes⟩
      cases (idle other (List.mem_of_getElem? hq)).2.symm.trans howes
    · rw [sent]
      exact List.not_mem_nil
    · cases hx
    · rw [sent, hanswers]
      exact .nil
    · exact ⟨fun _ x hx => (by cases hx), fun _ => rfl⟩
    · rw [inTime]
      rfl
  cases opened with
  | single name =>
    refine hfresh rfl rfl rfl fun y hy => ?_
    cases List.mem_singleton.mp hy
    exact ⟨rfl, rfl⟩
  | multi name limit =>
    refine hfresh rfl rfl rfl fun y hy => ?_
    rcases List.mem_pair.mp hy with rfl | rfl <;> exact ⟨rfl, rfl⟩
  | watched name limit milliseconds =>
    refine hfresh rfl rfl rfl fun y hy => ?_
    rcases List.mem_cons.mp hy with rfl | hy
    · exact ⟨rfl, rfl⟩
    · rcases List.mem_pair.mp hy with rfl | rfl <;> exact ⟨rfl, rfl⟩

/-! ### The whole course -/

/-- The books of a session are in order in the whole course of its affairs. -/
lemma Course.books {whole : Bool} {turning : Option ProcessId} (h : Course i c o whole turning a accepted steps) :
    Books i c accepted steps a := by
  induction h with
  | opens opened => exact opened.books
  | outside course outside ih => exact outside.books course.staffed ih
  | misses p _ ended ih => exact ih.congr rfl rfl rfl rfl
  | begins p _ ih => exact ih.congr rfl rfl rfl rfl
  | goes course performs ih => exact ih.performs course.staffed performs
  | cut _ ih => exact ih.congr rfl rfl rfl rfl
  | waits spent course performs idle ih =>
    have hbooks := ih.performs course.staffed performs
    exact hbooks.congr rfl rfl rfl rfl
  | ends course performs ih =>
    have hbooks := ih.performs course.staffed performs
    exact hbooks.congr rfl rfl rfl rfl
  | @stops _ a _ _ x p course process before after turn ih =>
    have hbooks := (ih.congr rfl rfl rfl rfl : Books i c _ _ (a.drowse p)).stops
      (course.staffed.congr rfl rfl rfl) process before after turn
    exact hbooks.congr rfl rfl rfl rfl

end GraphServer
