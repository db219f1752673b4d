import GraphServer.Proofs.Server.Archive
import GraphServer.Proofs.Server.Speaking

/-!
Everything that is put into the queue for a request that is carried out, from the start of its handler on.

* `Annals.CarriesOut`: a process begins a task in one step and is over with it in a later one;
* `Undisturbed`: nobody stops the handler or answers for it, and nothing that is sent for the request is refused;
* `System.Stage`: what was put into the queue since the task was begun, and what is still to come, are the transcript of
  the handler; `System.History.stage`: this is so until the process is over with the task;
* `Annals.transcribed`: **the transcript of the handler is put into the queue, response by response**. On the wire it ends
  in the one final frame if every part can be encoded and the handler does not give up under the status of a part.
-/

namespace GraphServer

/-! ### Carrying out a task -/

/-- What a process and a handler put into the queue of a channel in steps, in order. -/
def Step.said (p h : ProcessId) (c : ChannelId) (steps : List (ProcessId × Step)) : List Sent :=
  (steps.filter fun e => e.1 == h || e.1 == p).flatMap fun e => e.2.put c

/-- Whether nothing more is to be done for a task. -/
def RunPoint.isOver : RunPoint → Bool
  | .over => true
  | _ => false

/-- A process carries out a task: it begins it in the step `x`, in which it starts the handler `h`, goes on with it in its
steps during that, and is over with it after the step `z`. -/
structure Annals.CarriesOut (a : Annals) (p h : ProcessId) (t : Task) (x z : Step)
    (past during later : List (ProcessId × Step)) : Prop where
  steps : a.steps = past ++ (p, x) :: (during ++ (p, z) :: later)
  begins : x.begun? = some t
  joins : x.next.isJoining h = true
  goesOn : ∀ e ∈ during, e.1 = p → e.2.next.runPoint?.any (!·.isOver) = true
  overs : z.next.runPoint?.any (·.isOver) = true

/-- A handler and the process that waits for it are not disturbed in steps: the handler is not stopped, the process goes
on when the handler has ended only, nobody else marks the context as answered, and nothing that the two send is
refused. -/
structure Undisturbed (p h : ProcessId) (k : ContextId) (steps : List (ProcessId × Step)) : Prop where
  lives : ∀ e ∈ steps, e.1 = h → e.2.turn.isSome = true
  waits : ∀ e ∈ steps, e.1 = p → e.2.program.isJoining h = true → e.2.next.isJoining h = false →
    (e.2.before.result? h).isSome = true
  alone : ∀ e ∈ steps, e.1 ≠ h → e.1 ≠ p → e.2.concluded? ≠ some k
  accepted : ∀ e ∈ steps, e.1 = h ∨ e.1 = p → e.2.isRefused = false

namespace Undisturbed

variable {p h : ProcessId} {k : ContextId} {steps more : List (ProcessId × Step)}

lemma left (undisturbed : Undisturbed p h k (steps ++ more)) : Undisturbed p h k steps where
  lives e he := undisturbed.lives e (List.mem_append_left _ he)
  waits e he := undisturbed.waits e (List.mem_append_left _ he)
  alone e he := undisturbed.alone e (List.mem_append_left _ he)
  accepted e he := undisturbed.accepted e (List.mem_append_left _ he)

end Undisturbed

instance (p h : ProcessId) (k : ContextId) (steps : List (ProcessId × Step)) : Decidable (Undisturbed p h k steps) :=
  decidable_of_iff
    ((∀ e ∈ steps, e.1 = h → e.2.turn.isSome = true) ∧
      (∀ e ∈ steps, e.1 = p → e.2.program.isJoining h = true → e.2.next.isJoining h = false →
        (e.2.before.result? h).isSome = true) ∧
      (∀ e ∈ steps, e.1 ≠ h → e.1 ≠ p → e.2.concluded? ≠ some k) ∧
      ∀ e ∈ steps, e.1 = h ∨ e.1 = p → e.2.isRefused = false)
    ⟨fun ⟨lives, waits, alone, accepted⟩ => ⟨lives, waits, alone, accepted⟩,
      fun ⟨lives, waits, alone, accepted⟩ => ⟨lives, waits, alone, accepted⟩⟩

/-! ### What was put and what is to come -/

namespace Step

variable {p h q : ProcessId} {c : ChannelId} {x : Step} {steps : List (ProcessId × Step)}

lemma said_concat (own : q = h ∨ q = p) : said p h c (steps ++ [(q, x)]) = said p h c steps ++ x.put c := by
  have kept : (q == h || q == p) = true := by simpa using own
  simp [said, kept]

lemma said_concat_of_ne (first : q ≠ h) (second : q ≠ p) : said p h c (steps ++ [(q, x)]) = said p h c steps := by
  simp [said, first, second]

end Step

/-- A handler that did not say its last word has something to say. -/
lemma Program.toCome_ne_nil {P : Program} {k : ContextId} (u : Uuid)
    (kind : P.handles? = some k ∨ ∃ result, P = .finished (some result)) : P.toCome u false ≠ [] := by
  have speaks (h : Handler) : (h.transcript u false).map Sent.response ≠ [] := by
    obtain ⟨parts, last, said, -⟩ := h.exists_transcript u
    rw [said]
    simp
  obtain handles | ⟨result, rfl⟩ := kind
  · cases P with
    | handler j point =>
      cases point with
      | ready h => exact speaks h
      | calling w next => exact List.append_ne_nil_of_right_ne_nil _ (speaks _)
      | sleeping due next => exact speaks next
    | _ => cases handles
  · exact speaks (.return result)

namespace System

variable {p h q : ProcessId} {t : Task} {y : TaskContext} {c : ChannelId} {told said : List Sent} {s s' : System}
  {x : Step} {P : Program}

/-- How far a request is with its handler `h`, for which the process `p` waits: what was put into the queue and what is
still to come are what is to be told. -/
inductive Stage (p h : ProcessId) (t : Task) (y : TaskContext) (c : ChannelId) (told : List Sent) (s : System)
    (said : List Sent) : Prop
  /-- The process waits for the handler, which may have returned. -/
  | listens {N P : Program} {d : Option Deadline} (context : s.Addressed t.context y)
    (executor : s.program? p = some N) (runs : N.runPoint? = some (.joining t h d)) (handler : s.program? h = some P)
    (kind : P.handles? = some t.context ∨ ∃ result, P = .finished (some result))
    (bound : ∀ w, P.handover? = some w → w.channel = c)
    (speaks : said ++ P.toCome y.request (s.isConcluded t.context) = told)
  /-- The handler has returned, and the process waits with the last response. -/
  | answers {N : Program} {w : Handover} (context : s.Addressed t.context y) (executor : s.program? p = some N)
    (runs : N.runPoint? = some (.sending w)) (bound : w.channel = c) {result : Option (Except Error Unit)}
    (ended : s.program? h = some (.finished result)) (marked : s.isConcluded t.context = true)
    (speaks : said ++ w.parcel.meaning.toList = told)

namespace Stage

/-- What leaves the two processes and the mark alone changes nothing of it. -/
lemma frame (stage : Stage p h t y c told s said) (context : s.Addressed t.context y → s'.Addressed t.context y)
    (programs : ∀ q P, q = h ∨ q = p → s.program? q = some P → s'.program? q = some P)
    (same : s'.isConcluded t.context = s.isConcluded t.context) : Stage p h t y c told s' said := by
  cases stage with
  | listens addressed executor runs handler kind bound speaks =>
    exact .listens (context addressed) (programs p _ (.inr rfl) executor) runs (programs h _ (.inl rfl) handler) kind
      bound (same ▸ speaks)
  | answers addressed executor runs bound ended marked speaks =>
    exact .answers (context addressed) (programs p _ (.inr rfl) executor) runs bound (programs h _ (.inl rfl) ended)
      (same.trans marked) speaks

/-- The two processes are two. -/
lemma ne (stage : Stage p h t y c told s said) : p ≠ h := by
  rintro rfl
  cases stage with
  | listens _ executor runs handler kind =>
    cases executor.symm.trans handler
    obtain handles | ⟨result, rfl⟩ := kind
    · obtain ⟨i, w, rfl | rfl, rfl⟩ := Executes.exists_of_runPoint runs <;> cases handles
    · cases runs
  | answers _ executor runs _ ended =>
    cases executor.symm.trans ended
    cases runs

/-- Somebody else takes a step. -/
lemma others (stage : Stage p h t y c told s said) (enters : Dossier.Enters s q P s' x) (first : q ≠ h) (second : q ≠ p)
    (alone : x.concluded? ≠ some t.context) : Stage p h t y c told (s'.setProgram q x.next) said := by
  have contexts : (s'.setProgram q x.next).contexts = x.after.contexts := enters.contexts.symm
  refine stage.frame (fun addressed => (addressed.of_marks enters.marks).of_contexts contexts) (fun r R own hR => ?_) ?_
  · refine enters.program?_of_ne ?_ hR
    rintro rfl
    exact own.elim first second
  · rw [isConcluded_of_contexts contexts, enters.marks.isConcluded, beq_eq_false_iff_ne.mpr alone, Bool.or_false]

/-- The handler takes a step. -/
lemma handler (stage : Stage p h t y c told s said) (enters : Dossier.Enters s h P s' x)
    (taken : x.turn = none ∧ P.isFinished = false ∨ x.IsTaken h ∧ x.after = s') (channel : y.channel = some c)
    (lives : x.turn.isSome = true) (accepted : x.isRefused = false) :
    Stage p h t y c told (s'.setProgram h x.next) (said ++ x.put c) := by
  obtain ⟨stopped, -⟩ | ⟨taken, rfl⟩ := taken
  · rw [stopped] at lives
    cases lives
  have two := stage.ne
  have contexts : (x.after.setProgram h x.next).contexts = x.after.contexts := rfl
  obtain rfl := enters.before
  obtain rfl := enters.program
  have executor {N : Program} (hN : x.before.program? p = some N) := enters.program?_of_ne two.symm hN
  have handler := enters.program?_self
  cases stage with
  | listens addressed hN runs hP kind bound speaks =>
    cases enters.known.symm.trans hP
    have context := addressed.of_marks enters.marks
    obtain ⟨z, known, request, channel', -⟩ := addressed
    obtain ⟨kind', told', bound'⟩ := Step.tells kind taken known (channel'.trans channel) bound accepted
    refine .listens context (executor hN) runs handler kind' bound' ?_
    rw [← speaks, ← request, told', List.append_assoc]
    rfl
  | answers addressed hN runs bound ended marked speaks =>
    have program := Option.some.inj (enters.known.symm.trans ended)
    obtain ⟨leads, after⟩ := Step.stays_of_finished program taken
    have context := addressed.of_marks enters.marks
    refine .answers context (executor hN) runs bound (handler.trans (congrArg some leads)) ?_ ?_
    · exact (isConcluded_of_contexts (contexts.trans (congrArg System.contexts after))).trans marked
    · rw [Step.put_of_mute (after ▸ .refl _), List.append_nil, speaks]

/-- The process that waits for the handler takes a step, after which it is still at the task or is over with it. -/
lemma executes (stage : Stage p h t y c told s said) (enters : Dossier.Enters s p P s' x)
    (taken : x.turn = none ∧ P.isFinished = false ∨ x.IsTaken p ∧ x.after = s') (channel : y.channel = some c)
    (stands : x.next.runPoint?.isSome = true)
    (waits : x.program.isJoining h = true → x.next.isJoining h = false → (x.before.result? h).isSome = true)
    (accepted : x.isRefused = false) :
    Stage p h t y c told (s'.setProgram p x.next) (said ++ x.put c) ∨
      x.next.runPoint? = some .over ∧ said ++ x.put c = told ∧ x.after.isConcluded t.context = true := by
  obtain ⟨stopped, -⟩ | ⟨taken, rfl⟩ := taken
  · rw [Step.next, stopped] at stands
    cases stands
  have two := stage.ne
  obtain rfl := enters.before
  obtain rfl := enters.program
  have executor := enters.program?_self
  have handler {N : Program} (hN : x.before.program? h = some N) := enters.program?_of_ne two hN
  cases stage with
  | @listens N P d addressed hN runs hP kind bound speaks =>
    cases enters.known.symm.trans hN
    obtain ⟨i, w, hw, program⟩ := Executes.exists_of_runPoint runs
    have context := addressed.of_marks enters.marks
    obtain ⟨z, known, request, channel', -⟩ := addressed
    have joins : x.program.isJoining h = true := by
      rw [program]
      obtain rfl | rfl := hw <;> exact beq_self_eq_true h
    have only {result : Option (Except Error Unit)} (ended : x.before.result? h = some result) :
        P = .finished result := Option.some.inj (hP.symm.trans (result?_eq_some.mp ended))
    -- A handler that has ended has returned: it was not stopped.
    have returned (leaves : x.next.isJoining h = false) : ∃ result, x.before.result? h = some (some result) := by
      obtain ⟨result, ended⟩ := Option.isSome_iff_exists.mp (waits joins leaves)
      obtain rfl := only ended
      obtain handles | ⟨result', same⟩ := kind
      · cases handles
      · cases same
        exact ⟨result', ended⟩
    obtain ⟨stays, after⟩ | ⟨result, point, ended, leads, past, marked, told'⟩ :=
      Step.tells_joining hw program taken known (channel'.trans channel) returned accepted
    · refine .inl (.listens context executor (stays ▸ runs) (handler hP) kind bound ?_)
      have same : (x.after.setProgram p x.next).isConcluded t.context = x.before.isConcluded t.context :=
        isConcluded_of_contexts (show x.after.contexts = _ by rw [after])
      rw [Step.put_of_mute (after ▸ .refl _), List.append_nil, same, speaks]
    · obtain rfl := only ended
      rw [request] at told'
      rw [told', ← List.append_assoc] at speaks
      obtain rfl | ⟨v, rfl, bound⟩ := past
      · exact .inr ⟨leads ▸ hw.runPoint _, (List.append_nil _).symm.trans speaks, marked⟩
      · exact .inl (.answers context executor (leads ▸ hw.runPoint _) bound (handler hP) marked speaks)
  | answers addressed hN runs bound ended marked speaks =>
    cases enters.known.symm.trans hN
    obtain ⟨i, w, hw, program⟩ := Executes.exists_of_runPoint runs
    obtain ⟨point, leads, past, same, told'⟩ :=
      Step.tells_sending (k := t.context) hw program taken bound accepted
    rw [told', ← List.append_assoc] at speaks
    have context := addressed.of_marks enters.marks
    obtain rfl | ⟨v, rfl, bound⟩ := past
    · exact .inr ⟨leads ▸ hw.runPoint _, (List.append_nil _).symm.trans speaks, same.trans marked⟩
    · exact .inl (.answers context executor (leads ▸ hw.runPoint _) bound (handler ended) (same.trans marked) speaks)

/-- The task is begun, and everything is still to come. -/
lemma begins (enters : Dossier.Enters s p P s' x)
    (taken : x.turn = none ∧ P.isFinished = false ∨ x.IsTaken p ∧ x.after = s')
    (begins : x.begun? = some t) (joins : x.next.isJoining h = true) (known : x.after.contexts[t.context]? = some y)
    (unanswered : y.finished = false) :
    Stage p h t y c (((x.before.service.ops.handlerOf t.request).transcript y.request false).map .response)
      (s'.setProgram p x.next) [] := by
  obtain ⟨stopped, -⟩ | ⟨taken, rfl⟩ := taken
  · rw [Step.next, stopped] at joins
    cases joins
  obtain ⟨i, w, d, hw, leads, new, starts⟩ := Step.launches begins joins taken
  have two : p ≠ h := by
    have old := lt_of_program? enters.known
    rw [← enters.before] at old
    rintro rfl
    exact (old.trans_eq new.symm).false
  have executor := enters.program?_self
  have handler : (x.after.setProgram p x.next).program? h =
      some (.handler t.context (.ready (x.before.service.ops.handlerOf t.request))) := by
    rw [enters.program?_after, if_neg two, starts]
  have unmarked : (x.after.setProgram p x.next).isConcluded t.context = false :=
    (isConcluded_of_known known).trans unanswered
  refine .listens ⟨y, known, rfl, rfl, id⟩ executor (leads ▸ hw.runPoint _) handler (.inl rfl)
    (fun w waits => by cases waits) ?_
  rw [unmarked]
  rfl

/-- The process is not over with the task. -/
lemma not_over (stage : Stage p h t y c told s said) (executor : s.program? p = some P) : P.runPoint? ≠ some .over := by
  intro overs
  cases stage with
  | listens _ executor' runs =>
    cases executor.symm.trans executor'
    cases runs.symm.trans overs
  | answers _ executor' runs =>
    cases executor.symm.trans executor'
    cases runs.symm.trans overs

/-- Once all is said the context is marked. -/
lemma marked_of_told (stage : Stage p h t y c told s told) : s.isConcluded t.context = true := by
  cases stage with
  | listens _ _ _ _ kind _ speaks =>
    by_contra unmarked
    rw [Bool.not_eq_true] at unmarked
    rw [unmarked] at speaks
    exact Program.toCome_ne_nil y.request kind (List.append_right_eq_self.mp speaks)
  | answers _ _ _ _ _ marked => exact marked

end Stage

namespace History

variable {past during : List (ProcessId × Step)} {steps : List (ProcessId × Step)}

/-- **What was put into the queue since a task was begun, and what is still to come, are the transcript of its
handler.** -/
theorem stage (history : History s steps) (split : steps = past ++ (p, x) :: during) (begins : x.begun? = some t)
    (joins : x.next.isJoining h = true) (known : x.after.contexts[t.context]? = some y) (unanswered : y.finished = false)
    (channel : y.channel = some c)
    (goesOn : ∀ e ∈ during, e.1 = p → e.2.next.runPoint?.any (!·.isOver) = true)
    (undisturbed : Undisturbed p h t.context during) :
    Stage p h t y c (((x.before.service.ops.handlerOf t.request).transcript y.request false).map .response) s
      (Step.said p h c during) := by
  induction history generalizing during with
  | starts => exact absurd split.symm (List.append_ne_nil_of_right_ne_nil _ (List.cons_ne_nil _ _))
  | gains _ gains ih =>
    exact (ih split goesOn undisturbed).frame (·.of_adds gains.toAdds) (fun q P _ hP => gains.programs q P hP)
      (Docket.isConcluded_of_adds gains.toAdds _)
  | @takes s s' q P z steps _ enters taken ih =>
    -- The last step is the one that begins the task, or it is one of the steps since, before which the task stood at a
    -- stage: then it is the handler's, that of the process that waits for it, or somebody else's.
    obtain ⟨rfl, -, same⟩ | ⟨rest, rfl, hsteps⟩ := Chronicle.split_concat split
    · cases same
      exact .begins enters taken begins joins known unanswered
    · have last : (q, z) ∈ rest ++ [(q, z)] := List.mem_append_right _ List.mem_cons_self
      have stage := ih hsteps (fun e he => goesOn e (List.mem_append_left _ he)) undisturbed.left
      by_cases first : q = h
      · subst first
        rw [Step.said_concat (.inl rfl)]
        exact stage.handler enters taken channel (undisturbed.lives _ last rfl) (undisturbed.accepted _ last (.inl rfl))
      · by_cases second : q = p
        · subst second
          rw [Step.said_concat (.inr rfl)]
          obtain ⟨point, stands, unfinished⟩ := (Option.any_eq_true _ _).mp (goesOn _ last rfl)
          refine (stage.executes enters taken channel (Option.isSome_of_mem stands) (undisturbed.waits _ last rfl)
            (undisturbed.accepted _ last (.inr rfl))).resolve_right fun ⟨overs, _⟩ => ?_
          cases stands.symm.trans overs
          cases unfinished
        · rw [Step.said_concat_of_ne first second]
          exact stage.others enters first second (undisturbed.alone _ last first second)

end History

/-! ### After the last response -/

/-- Every call on a context is refused and changes nothing. -/
def Refuses (s : System) (k : ContextId) (request : Uuid) : Prop :=
  ∀ p call, s.call p k call = (s, .done (.error (.protocol (.alreadyAnswered request))))

variable {k : ContextId} {before after steps : List (ProcessId × Step)}

lemma Addressed.refuses (context : s.Addressed k y) (marked : s.isConcluded k = true) : s.Refuses k y.request := by
  obtain ⟨z, known, request, -⟩ := context
  rw [isConcluded_of_known known] at marked
  exact fun p call => request ▸ call_of_finished known marked p call

/-- Once a context is marked, every call on it is refused. -/
lemma History.refuses (history : History s steps) (split : steps = before ++ (p, x) :: after)
    (context : x.after.Addressed k y) (marked : x.after.isConcluded k = true) :
    s.Refuses k y.request ∧ ∀ e ∈ after, e.2.before.Refuses k y.request := by
  obtain ⟨z, known, request, -⟩ := context
  have finished : z.finished = true := isConcluded_of_known known ▸ marked
  have refuses {s : System} (context : s.Addressed k z) : s.Refuses k y.request := by
    obtain ⟨z', known', -, -, marks⟩ := id context
    exact request ▸ context.refuses ((isConcluded_of_known known').trans (marks finished))
  exact (history.context? split known).imp refuses fun all e he => refuses (all e he)

/-! ### On the wire -/

variable {u : Uuid} {r : Response}

/-- What goes out is final if the response is or is replaced. -/
lemma isFinal_spells : (s.spells r).isFinal = true ↔ r.isFinal = true ∨ ¬ s.GoesOutWhole r :=
  spells_iff (P := (·.isFinal = true)) fun _ _ => rfl

/-- Parts of a result and a last response end in one final frame if the parts go out whole and the last one is not taken
for a part. -/
lemma endsOnce_spells (s : System) (parts : List Value) {last : Response} (ends : last.Ends u) :
    Response.EndsOnce ((parts.map (fun data => (Call.stream data).response u) ++ [last]).map s.spells) ↔
      (∀ data ∈ parts, s.GoesOutWhole ((Call.stream data).response u)) ∧
        ((∃ message, last = (Call.fail .partialContent message).response u) → ¬ s.GoesOutWhole last) := by
  rw [List.map_append, List.map_singleton, Response.endsOnce_concat, isFinal_spells, ← ends.isFinal_eq_false_iff,
    List.map_map, List.forall_mem_map]
  refine and_congr (forall₂_congr fun data _ => ?_) ?_
  · have final := isFinal_spells (s := s) (r := (Call.stream data).response u)
    rw [Function.comp_apply, ← Bool.not_eq_true, final]
    simp [Call.response, Response.isFinal, Status.isFinal]
  · cases last.isFinal <;> simp

end System

namespace Annals

open GraphServer.System

variable {p h : ProcessId} {t : Task} {x z : Step} {past during later : List (ProcessId × Step)} {y : TaskContext}
  {c : ChannelId}

/-- All steps are taken by one service. -/
lemma service_before (service : Service) (episodes : List Episode) {e : ProcessId × Step}
    (he : e ∈ ((start service).undergoAll episodes).steps) : e.2.before.service = service := by
  obtain ⟨-, taken, steps, sequel⟩ := (truthful_start service).undergoAll episodes
  rw [steps] at he
  exact (sequel.before e.2 (List.mem_map_of_mem he)).service

namespace CarriesOut

variable {a : Annals} {first rest : List (ProcessId × Step)} {e : ProcessId × Step}
  (carried : a.CarriesOut p h t x z past during later)

include carried

/-- The steps from the start of the handler until the process is over with the task. -/
lemma steps_eq : a.steps = past ++ (p, x) :: (during ++ [(p, z)] ++ later) := by
  rw [carried.steps, List.append_assoc, List.singleton_append]

lemma steps_eq_of_split (split : during ++ [(p, z)] = first ++ e :: rest) :
    a.steps = (past ++ (p, x) :: first) ++ e :: (rest ++ later) := by
  rw [carried.steps_eq, split]
  simp

variable (history : History a.system a.steps) (known : x.after.contexts[t.context]? = some y)

include history known

/-- The context of the request is there in each of the steps. -/
lemma addressed (he : e ∈ during ++ [(p, z)]) : e.2.before.Addressed t.context y :=
  (history.context? carried.steps_eq known).2 e (List.mem_append_left _ he)

variable (undisturbed : Undisturbed p h t.context (during ++ [(p, z)])) (unanswered : y.finished = false)
  (channel : y.channel = some c)

include undisturbed unanswered channel

/-- What each of the steps finds. -/
lemma stage (split : during ++ [(p, z)] = first ++ e :: rest) :
    Stage p h t y c (((x.before.service.ops.handlerOf t.request).transcript y.request false).map .response) e.2.before
      (Step.said p h c first) := by
  have earlier : ∀ e' ∈ first, e' ∈ during := by
    obtain ⟨-, rfl, -⟩ | ⟨rest', -, rfl⟩ := Chronicle.split_concat split
    · exact fun _ => id
    · exact fun e' => List.mem_append_left _
  obtain ⟨s, P, led, -⟩ := history.taken (carried.steps_eq_of_split split)
  exact led.stage rfl carried.begins carried.joins known unanswered channel
    (fun e' he' => carried.goesOn e' (earlier e' he')) (split ▸ undisturbed).left

/-- When the process is over with the task, the whole transcript was put into the queue, and the context is marked. -/
lemma said_eq : Step.said p h c (during ++ [(p, z)]) =
    ((x.before.service.ops.handlerOf t.request).transcript y.request false).map .response ∧
      z.after.isConcluded t.context = true := by
  have last : (p, z) ∈ during ++ [(p, z)] := List.mem_append_right _ List.mem_cons_self
  have split : during ++ [(p, z)] = during ++ (p, z) :: [] := rfl
  have stage := carried.stage history known undisturbed unanswered channel split
  obtain ⟨s, P, -, enters, taken⟩ := history.taken (carried.steps_eq_of_split split)
  have executor := enters.program?_self
  obtain ⟨point, stands, overs⟩ := (Option.any_eq_true _ _).mp carried.overs
  obtain rfl : point = .over := by
    cases point with
    | «over» => rfl
    | _ => cases overs
  obtain ⟨-, said, marked⟩ := (stage.executes enters taken channel (Option.isSome_of_mem stands)
    (undisturbed.waits _ last rfl) (undisturbed.accepted _ last (.inr rfl))).resolve_left
      fun stays => stays.not_over executor stands
  exact ⟨(Step.said_concat (.inr rfl)).trans said, marked⟩

/-- Once the whole transcript was put into the queue, every call on the context is refused. -/
lemma refuses (split : during ++ [(p, z)] = first ++ rest)
    (complete : Step.said p h c first =
      ((x.before.service.ops.handlerOf t.request).transcript y.request false).map .response) :
    a.system.Refuses t.context y.request ∧ ∀ e ∈ rest ++ later, e.2.before.Refuses t.context y.request := by
  cases rest with
  | nil =>
    have split : during ++ [(p, z)] = during ++ (p, z) :: [] := rfl
    have context := carried.addressed history known (List.mem_append_right during (List.mem_singleton_self (p, z)))
    obtain ⟨s, P, -, enters, -⟩ := history.taken (carried.steps_eq_of_split split)
    exact history.refuses (carried.steps_eq_of_split split) (context.of_marks enters.marks)
      (carried.said_eq history known undisturbed unanswered channel).2
  | cons e rest =>
    have context := carried.addressed history known (split ▸ List.mem_append_right _ List.mem_cons_self : e ∈ _)
    have stage := carried.stage history known undisturbed unanswered channel split
    rw [complete] at stage
    obtain ⟨s, P, -, enters, -⟩ := history.taken (carried.steps_eq_of_split split)
    have stays : e.2.after.isConcluded t.context = true := by
      rw [enters.marks.isConcluded, stage.marked_of_told, Bool.true_or]
    obtain ⟨refused, all⟩ := history.refuses (carried.steps_eq_of_split split) (context.of_marks enters.marks) stays
    refine ⟨refused, fun e' he' => ?_⟩
    obtain rfl | he' := List.mem_cons.mp he'
    · exact context.refuses stage.marked_of_told
    · exact all e' he'

end CarriesOut

/-- **The transcript of its handler is put into the queue for a request, and nothing after it.** Whatever a handler does,
and also when there is none for the operation: once the process that began the task is over with it, and neither was
disturbed, the two have put the transcript of the handler into the queue of the channel, response by response: parts of
the result, in the order in which the handler streamed them, and one last response. From the moment on at which the last
of them was put, every call on the context is refused with a violation of the order of responses and changes nothing.
The frame of a response holds the encoding of that response or of its replacement, so that the frames end in the only
final one just if each part goes out as it is and the handler does not give up under the status of a part. -/
theorem transcribed (service : Service) (episodes : List Episode)
    (carried : ((start service).undergoAll episodes).CarriesOut p h t x z past during later)
    (undisturbed : Undisturbed p h t.context (during ++ [(p, z)])) (known : x.after.contexts[t.context]? = some y)
    (unanswered : y.finished = false) (channel : y.channel = some c) :
    let a := (start service).undergoAll episodes
    let told := (service.ops.handlerOf t.request).transcript y.request false
    Step.said p h c (during ++ [(p, z)]) = told.map .response ∧
      (told.map Sent.response).Sublist (a.system.sentOver c) ∧
      (∃ (parts : List Value) (last : Response),
        told = parts.map (fun data => (Call.stream data).response y.request) ++ [last] ∧ last.Ends y.request ∧
          (Response.EndsOnce (told.map a.system.spells) ↔
            (∀ data ∈ parts, a.system.GoesOutWhole ((Call.stream data).response y.request)) ∧
              ((∃ message, last = (Call.fail .partialContent message).response y.request) →
                ¬ a.system.GoesOutWhole last))) ∧
      (∀ r f, a.system.frameOf r = .ok f →
        f.body = (a.system.service.codec.responseEncoding (a.system.spells r)).bytes) ∧
      ∀ first rest, during ++ [(p, z)] = first ++ rest → Step.said p h c first = told.map .response →
        a.system.Refuses t.context y.request ∧ ∀ e ∈ rest ++ later, e.2.before.Refuses t.context y.request := by
  intro a told
  have history : History a.system a.steps := history_undergoAll service episodes
  have same : x.before.service = service := service_before service episodes (e := (p, x))
    (carried.steps ▸ List.mem_append_right _ List.mem_cons_self)
  have said := (carried.said_eq history known undisturbed unanswered channel).1
  have refuses (first rest : List (ProcessId × Step)) (split : during ++ [(p, z)] = first ++ rest) :=
    carried.refuses history known undisturbed unanswered channel split
  rw [same] at said refuses
  obtain ⟨parts, last, transcript, ends⟩ := (service.ops.handlerOf t.request).exists_transcript y.request
  refine ⟨said, ?_, ⟨parts, last, transcript, ends, ?_⟩, fun r f => frameOf_eq_ok, refuses⟩
  · have part : (during ++ [(p, z)]).Sublist a.steps := by
      rw [carried.steps_eq]
      exact ((List.sublist_append_left _ later).trans (List.sublist_cons_self _ _)).trans (List.sublist_append_right _ _)
    have put : (Step.said p h c (during ++ [(p, z)])).Sublist (a.steps.flatMap fun e => e.2.put c) :=
      (List.filter_sublist.trans part).flatMap _
    exact (said ▸ put).trans (history.sublist_sentOver c)
  · rw [show told = _ from transcript]
    exact endsOnce_spells a.system parts ends

/-! ### Runs -/

/-- A process carries out a task with the first context, undisturbed: it begins it in the step at place `n`, and is over
with it `m + 1` steps later. -/
def CarriesOutAt (a : Annals) (p h n m : Nat) : Prop :=
  (a.steps[n]?.any fun e => e.1 == p && e.2.next.isJoining h && e.2.begun?.any fun t => t.context == 0 &&
      e.2.after.contexts[0]?.any fun y => !y.finished && y.channel == some 0) = true ∧
    (∀ e ∈ (a.steps.drop (n + 1)).take m, e.1 = p → e.2.next.runPoint?.any (!·.isOver) = true) ∧
    ((a.steps.drop (n + 1))[m]?.any fun e => e.1 == p && e.2.next.runPoint?.any (·.isOver)) = true ∧
    Undisturbed p h 0 ((a.steps.drop (n + 1)).take (m + 1))

instance (a : Annals) (p h n m : Nat) : Decidable (a.CarriesOutAt p h n m) :=
  inferInstanceAs (Decidable (_ ∧ _ ∧ _ ∧ Undisturbed p h 0 _))

lemma CarriesOutAt.exists_carriesOut {a : Annals} {p h n m : Nat} (facts : a.CarriesOutAt p h n m) :
    ∃ t x z past during later y, a.CarriesOut p h t x z past during later ∧
      Undisturbed p h t.context (during ++ [(p, z)]) ∧ during ++ [(p, z)] = (a.steps.drop (n + 1)).take (m + 1) ∧
      a.steps[n]? = some (p, x) ∧ x.begun? = some t ∧ x.after.contexts[t.context]? = some y ∧ y.finished = false ∧
      y.channel = some 0 := by
  obtain ⟨begins, goesOn, overs, undisturbed⟩ := facts
  obtain ⟨⟨q, x⟩, hx, begins⟩ := (Option.any_eq_true _ _).mp begins
  obtain ⟨begins, context⟩ := Bool.and_eq_true_iff.mp begins
  obtain ⟨own, joins⟩ := Bool.and_eq_true_iff.mp begins
  obtain rfl : q = p := beq_iff_eq.mp own
  obtain ⟨t, begun, context⟩ := (Option.any_eq_true _ _).mp context
  obtain ⟨zero, known⟩ := Bool.and_eq_true_iff.mp context
  obtain ⟨y, known, open_⟩ := (Option.any_eq_true _ _).mp known
  obtain ⟨unanswered, channel⟩ := Bool.and_eq_true_iff.mp open_
  obtain ⟨⟨q', z⟩, hz, overs⟩ := (Option.any_eq_true _ _).mp overs
  obtain ⟨own', ends⟩ := Bool.and_eq_true_iff.mp overs
  obtain rfl : q' = q := beq_iff_eq.mp own'
  have zero : t.context = 0 := beq_iff_eq.mp zero
  have same : (a.steps.drop (n + 1)).take m ++ [(q', z)] = (a.steps.drop (n + 1)).take (m + 1) := by
    rw [List.take_add_one, hz]
    rfl
  refine ⟨t, x, z, a.steps.take n, (a.steps.drop (n + 1)).take m, (a.steps.drop (n + 1)).drop (m + 1), y,
    ⟨?_, begun, joins, goesOn, ends⟩, zero ▸ same ▸ undisturbed, same, hx, begun, zero ▸ known,
    Bool.not_eq_true' _ ▸ unanswered, beq_iff_eq.mp channel⟩
  rw [← Step.eq_take_append_drop hz]
  exact Step.eq_take_append_drop hx

/-- A service that offers one operation. -/
def offering (registry : Registry) (handler : Handler) : Service where
  codec := { registry }
  ops := OpRegistry.register {} ⟨"", "eval"⟩ fun _ => handler

/-- A task is submitted to a session, and its handler and the process that executes it have their turns. -/
def exchange : List Episode :=
  [.occurs (.ordinary (.openChannel {})), .occurs (.openSession "s" 0 none),
    .occurs (.ordinary (.submit 0 ⟨.nil, "eval", "", Fields.empty⟩ 0)), .occurs (.ordinary (.turn 1 128 9)),
    .occurs (.ordinary (.turn 2 128 9)), .occurs (.ordinary (.turn 1 128 9))]

/-- A handler that goes on after its last response. -/
def overlong : Handler :=
  .making (.ok ()) [.stream (.int 1), .complete (.int 2), .stream (.int 3)]

/-- Its third call is refused, and what it said before is in the queue. -/
theorem transcribed_overlong :
    let a := (start (offering .standard overlong)).undergoAll exchange
    ∃ (t : Task) (y : TaskContext) (z : Step) (during : List (ProcessId × Step)),
      (∃ x past later, a.CarriesOut 1 2 t x z past during later) ∧ Undisturbed 1 2 t.context (during ++ [(1, z)]) ∧
      Step.said 1 2 0 (during ++ [(1, z)]) =
        [.response ((Call.stream (.int 1)).response y.request), .response ((Call.complete (.int 2)).response y.request)] ∧
      a.system.Refuses t.context y.request := by
  intro a
  obtain ⟨carries, asked⟩ : a.CarriesOutAt 1 2 0 5 ∧
      (a.steps[0]?.any fun e => e.2.begun?.any fun t => t.request.processor == "" && t.request.op == "eval") = true := by
    decide +kernel
  obtain ⟨t, x, z, past, during, later, y, carried, undisturbed, -, hx, begun, known, unanswered, channel⟩ :=
    carries.exists_carriesOut
  rw [hx, Option.any_some, begun, Option.any_some, Bool.and_eq_true, beq_iff_eq, beq_iff_eq] at asked
  have handler : (offering .standard overlong).ops.handlerOf t.request = overlong := by
    rw [OpRegistry.handlerOf, asked.1, asked.2]
    rfl
  obtain ⟨said, -, -, -, refuses⟩ :=
    transcribed (offering .standard overlong) exchange carried undisturbed known unanswered channel
  refine ⟨t, y, z, during, ⟨x, past, later, carried⟩, undisturbed, ?_, (refuses _ [] (List.append_nil _).symm said).1⟩
  rw [said, handler]
  rfl

/-- A process carries out a task undisturbed, and what is put into the queue for it does not go out as frames of which the
last one, and no other, is final. -/
def Mistold (a : Annals) (p h : ProcessId) (c : ChannelId) : Prop :=
  ∃ t x z past during later y, a.CarriesOut p h t x z past during later ∧
    Undisturbed p h t.context (during ++ [(p, z)]) ∧ x.after.contexts[t.context]? = some y ∧ y.finished = false ∧
    y.channel = some c ∧
    ¬ Response.EndsOnce (((Step.said p h c (during ++ [(p, z)])).filterMap Sent.response?).map a.system.spells)

lemma CarriesOutAt.mistold {a : Annals} {p h n m : Nat} (facts : a.CarriesOutAt p h n m ∧
    ¬ Response.EndsOnce (((Step.said p h 0 ((a.steps.drop (n + 1)).take (m + 1))).filterMap
      Sent.response?).map a.system.spells)) : Mistold a p h 0 := by
  obtain ⟨carries, differs⟩ := facts
  obtain ⟨t, x, z, past, during, later, y, carried, undisturbed, same, -, -, known, unanswered, channel⟩ :=
    carries.exists_carriesOut
  rw [← same] at differs
  exact ⟨t, x, z, past, during, later, y, carried, undisturbed, known, unanswered, channel, differs⟩

/-- **A request can end in no final frame, and in two**: a handler gives up under the status of a part, and a part that
cannot be encoded is replaced by a frame that is final, after which the handler completes the request. -/
theorem mistold_twice :
    Mistold ((start (offering .standard (.once (.fail .partialContent "x")))).undergoAll exchange) 1 2 0 ∧
      Mistold ((start (offering .empty (.making (.ok ()) [.stream (.int 1), .complete .null]))).undergoAll exchange)
        1 2 0 := by
  constructor
  · exact CarriesOutAt.mistold (n := 0) (m := 3) (by decide +kernel)
  · exact CarriesOutAt.mistold (n := 0) (m := 4) (by decide +kernel)

end Annals

end GraphServer
