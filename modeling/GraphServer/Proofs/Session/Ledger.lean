import GraphServer.Proofs.Session.Closing

/-!
What became of the last responses.

* `Affairs.Ledger`: every accepted task that was answered stands in a book with its last response, and these
  are in the queue ahead of the order to close, in somebody's hands, or lost;
* `Affairs.Ledger.deed`, `Affairs.Ledger.drop`, `Affairs.Ledger.congr`: **what a step, the end of a process and
  everything else make of that**.
-/

namespace GraphServer

/-! ### Ahead of the order to close -/

namespace Sent

lemma answers_append (sent sent' : List Sent) : answers (sent ++ sent') = answers sent ++ answers sent' :=
  List.filterMap_append

lemma ahead_of_closed {sent sent' : List Sent} (closed : close ∈ sent) : ahead (sent ++ sent') = ahead sent := by
  induction sent with
  | nil => cases closed
  | cons s rest ih =>
    cases s with
    | close => rfl
    | response r =>
      have hrest : close ∈ rest := (List.mem_cons.mp closed).resolve_left fun h => by cases h
      exact congrArg (List.cons _) (ih hrest)

lemma ahead_of_silent {sent : List Sent} (sent' : List Sent) (silent : close ∉ sent) :
    ahead (sent ++ sent') = sent ++ ahead sent' := by
  refine List.takeWhile_append_of_pos fun s hs => ?_
  cases s with
  | close => exact absurd hs silent
  | response r => rfl

/-- What is put into the queue is ahead of the order to close unless that is there before it. -/
lemma answers_ahead (sent : List Sent) (m : Option Sent) :
    ∃ early late : List Response, answers m.toList = early ++ late ∧
      answers (ahead (sent ++ m.toList)) = answers (ahead sent) ++ early := by
  by_cases closed : close ∈ sent
  · refine ⟨[], answers m.toList, rfl, ?_⟩
    rw [ahead_of_closed closed, List.append_nil]
  · refine ⟨answers m.toList, [], (List.append_nil _).symm, ?_⟩
    have hself : ahead sent = sent := by
      have h := ahead_of_silent [] closed
      rw [List.append_nil] at h
      exact h.trans (List.append_nil _)
    rw [ahead_of_silent _ closed, hself, answers_append]
    cases m with
    | none => rfl
    | some s => cases s <;> rfl

end Sent

namespace Affairs

variable {i : SessionId} {c : ChannelId} {a a' b : Affairs} {p : ProcessId} {k : ContextId} {program next : Program}
  {accepted : List Task} {steps : List Step} {new : Option (ContextId × Response)} {put : Option Sent}
  {refused : List Response} {book : List (Task × Response)} {lost : List Response} {intact : Prop} {x : Step}

/-- The book of the accepted tasks that were answered and their last responses, and those that were lost. -/
structure Ledger (i : SessionId) (c : ChannelId) (accepted : List Task) (steps : List Step)
    (book : List (Task × Response)) (lost : List Response) (a : Affairs) : Prop where
  tasks : (book.map (·.1)).Perm (accepted.filter fun t => !a.isOpen t.context)
  mail : (book.map (·.2)).Perm
    (Sent.answers (Sent.ahead a.sent) ++ a.gather (·.answer?.toList) ++ lost)
  request : ∀ e ∈ book, e.2.request = some e.1.request.id
  /-- Those that were due when the time was up are told so. -/
  late : ∀ elapsed, a.session.timedOut = some elapsed → ∀ e ∈ book, e.1 ∈ Step.due i accepted steps →
    e.2 = System.timeoutResponse elapsed true e.1.request.id
  kept : lost = [] ↔ ∀ x ∈ steps, x.keepsAnswers c
  clock : a.session.timedOut.isSome = steps.any (Step.expires i)

/-- The number of answered contexts. -/
lemma countP_conclude {y : TaskContext} (hy : a.contexts[k]? = some y) (open_ : y.finished = false) :
    (a.conclude k).contexts.countP (·.finished) = a.contexts.countP (·.finished) + 1 := by
  obtain ⟨hk, rfl⟩ := List.getElem?_eq_some_iff.mp hy
  rw [conclude]
  dsimp only
  rw [List.modify_eq_take_cons_drop hk]
  conv_rhs => rw [← List.take_append_drop k a.contexts, List.drop_eq_getElem_cons hk]
  rw [List.countP_append, List.countP_append, List.countP_cons, List.countP_cons, open_]
  simp only [if_true, Bool.false_eq_true, if_false]
  omega

namespace Post

variable (post : Post a program a' next new put refused)

include post

lemma countP : a'.contexts.countP (·.finished) = a.contexts.countP (·.finished) + new.toList.length := by
  rw [post.contexts]
  cases new with
  | none => rfl
  | some e =>
    obtain ⟨-, y, hy, hopen, -⟩ := post.answered e.1 e.2 rfl
    exact countP_conclude hy hopen

/-- What a step does to the last responses, and which it loses. -/
lemma mail_ahead : ∃ early dropped : List Response,
    Sent.answers (Sent.ahead a'.sent) = Sent.answers (Sent.ahead a.sent) ++ early ∧
      (program.answer?.toList ++ (new.map (·.2)).toList).Perm (early ++ next.answer?.toList ++ dropped) := by
  obtain ⟨early, late, hanswers, hahead⟩ := Sent.answers_ahead a.sent put
  refine ⟨early, late ++ refused, by rw [post.sent, hahead], ?_⟩
  rw [post.mail, hanswers]
  calc early ++ late ++ next.answer?.toList ++ refused
    _ |>.Perm (early ++ next.answer?.toList ++ late ++ refused) := (perm_exchange _ _ _).append_right _
    _ = _ := List.append_assoc ..

/-- Whether a step loses a last response can be counted. -/
lemma keepsAnswers_iff (before : x.before.Shows i c a) (after : x.after.Shows i c a') (started : x.program = program)
    (ended : x.next = next) {early dropped : List Response}
    (ahead : Sent.answers (Sent.ahead a'.sent) = Sent.answers (Sent.ahead a.sent) ++ early)
    (mail : (program.answer?.toList ++ (new.map (·.2)).toList).Perm (early ++ next.answer?.toList ++ dropped)) :
    x.keepsAnswers c ↔ dropped = [] := by
  have hlength := mail.length_eq
  have hnew : (new.map (·.2)).toList.length = new.toList.length := by cases new <;> rfl
  rw [Step.keepsAnswers, Step.held, Step.held, started, ended, before.sentOver, after.sentOver, before.sentOff,
    after.sentOff, post.countP, ahead, List.length_append, ← List.length_eq_zero_iff]
  simp only [List.length_append] at hlength
  omega

end Post

/-- One task more is answered. -/
lemma perm_filter_closed (nodup : (accepted.map (·.context)).Nodup) {t : Task} (ht : t ∈ accepted)
    (open_ : a.isOpen t.context = true) (contexts : b.contexts = (a.conclude t.context).contexts) :
    (accepted.filter fun u => !b.isOpen u.context).Perm ((accepted.filter fun u => !a.isOpen u.context) ++ [t]) := by
  obtain ⟨before, after, rfl⟩ := List.append_of_mem ht
  rw [List.map_append, List.map_cons, List.nodup_append, List.nodup_cons] at nodup
  have hself : b.isOpen t.context = false := by
    rw [isOpen_congr contexts]
    exact isOpen_conclude_self a t.context
  have hothers {l : List Task} (hl : ∀ u ∈ l, u.context ≠ t.context) :
      (l.filter fun u => !b.isOpen u.context) = l.filter fun u => !a.isOpen u.context := by
    refine List.filter_congr fun u hu => ?_
    rw [isOpen_congr contexts, isOpen_conclude_ne (hl u hu)]
  have hbefore : ∀ u ∈ before, u.context ≠ t.context := fun u hu =>
    nodup.2.2 _ (List.mem_map_of_mem hu) _ (List.mem_cons_self ..)
  have hafter : ∀ u ∈ after, u.context ≠ t.context := fun u hu h =>
    nodup.2.1.1 (h ▸ List.mem_map_of_mem hu)
  rw [List.filter_append, List.filter_append, List.filter_cons_of_pos (by rw [hself]; rfl),
    List.filter_cons_of_neg (by rw [open_]; exact Bool.false_ne_true), hothers hbefore, hothers hafter,
    List.append_assoc]
  exact (List.perm_append_singleton t _).symm.append_left _

/-- The tasks that were due are fixed once the time is up. -/
lemma due_append (late : steps.any (Step.expires i) = true) (x : Step) :
    Step.due i accepted (steps ++ [x]) = Step.due i accepted steps := by
  obtain ⟨y, hy⟩ := Option.isSome_iff_exists.mp (List.find?_isSome.mpr (List.any_eq_true.mp late))
  rw [Step.due, Step.due, List.find?_append, hy]
  rfl

lemma due_of_expires (early : steps.any (Step.expires i) = false) (before : x.before.Shows i c a)
    (expires : x.expires i = true) :
    Step.due i accepted (steps ++ [x]) = accepted.filter fun t => a.isOpen t.context := by
  have hnone : steps.find? (Step.expires i) = none := by
    refine List.find?_eq_none.mpr fun y hy => ?_
    exact List.any_eq_false.mp early y hy
  rw [Step.due, List.find?_append, hnone, Option.none_or, List.find?_cons_of_pos expires, ← before.isOpen]

namespace Ledger

/-- What is entered for a step: the task that is answered, if there is one, and its last response. -/
lemma exists_entry (custody : a.Custody accepted intact) (post : Post a program a' next new put refused)
    (mem : ∀ k r, new = some (k, r) → k ∈ a.waiting accepted) (contexts : b.contexts = a'.contexts) :
    ∃ entry : List (Task × Response), entry.map (·.2) = (new.map (·.2)).toList ∧
      (∀ e ∈ entry, new = some (e.1.context, e.2) ∧ e.1 ∈ accepted) ∧
      (accepted.filter fun u => !b.isOpen u.context).Perm
        ((accepted.filter fun u => !a.isOpen u.context) ++ entry.map (·.1)) := by
  cases new with
  | none =>
    refine ⟨[], rfl, fun e he => (by cases he), ?_⟩
    rw [isOpen_congr (contexts.trans post.contexts), List.map_nil, List.append_nil]
  | some e =>
    obtain ⟨hk, hopen⟩ := List.mem_filter.mp (mem e.1 e.2 rfl)
    obtain ⟨t, ht, hcontext⟩ := List.mem_map.mp hk
    refine ⟨[(t, e.2)], rfl, fun e' he' => ?_, ?_⟩
    · cases List.mem_singleton.mp he'
      exact ⟨by rw [hcontext], ht⟩
    · refine perm_filter_closed custody.nodup ht (hcontext ▸ hopen) ?_
      rw [contexts, post.contexts, hcontext]
      rfl

/-- What a step makes of the book. -/
lemma step (h : Ledger i c accepted steps book lost a) (custody : a.Custody accepted intact)
    (shift : a.Shift p program next b) (post : Post a program a' next new put refused)
    (mem : ∀ k r, new = some (k, r) → k ∈ a.waiting accepted) (session : b.session = a'.session)
    (contexts : b.contexts = a'.contexts) (sent : b.sent = a'.sent) (before : x.before.Shows i c a)
    (after : x.after.Shows i c a') (started : x.program = program) (ended : x.next = next) :
    ∃ book' lost', Ledger i c accepted (steps ++ [x]) book' lost' b := by
  obtain ⟨early, dropped, hahead, hmail⟩ := post.mail_ahead
  have hexpires : x.expires i = (a.session.timedOut.isNone && b.session.timedOut.isSome) := by
    rw [Step.expires, before.timedOut?, after.timedOut?, session]
  obtain ⟨entry, hentry, hmem, htasks⟩ := exists_entry custody post mem contexts
  have hanswered {e : Task × Response} (he : e ∈ entry) : e.2.request = some e.1.request.id ∧
      ∀ elapsed, b.session.timedOut = some elapsed →
        e.2 = System.timeoutResponse elapsed true e.1.request.id := by
    obtain ⟨hnew, haccepted⟩ := hmem e he
    obtain ⟨-, y, hy, -, hrequest, htells⟩ := post.answered _ _ hnew
    obtain ⟨z, hz, hid⟩ := custody.known e.1 haccepted
    cases hy.symm.trans hz
    rw [← hid]
    exact ⟨hrequest, fun elapsed he => htells elapsed (session ▸ he)⟩
  refine ⟨book ++ entry, lost ++ dropped, ?tasks, ?mail, ?request, ?late, ?kept, ?clock⟩
  case tasks =>
    rw [List.map_append]
    exact (h.tasks.append_right _).trans htasks.symm
  case mail =>
    have hbefore := shift.gather_before (f := fun program => program.answer?.toList)
    have hafter := shift.gather_after (f := fun program => program.answer?.toList) fun _ _ => rfl
    have htotal := h.mail
    rw [List.map_append, hentry, sent, hahead]
    simp only [← Multiset.coe_eq_coe, ← Multiset.coe_add] at hbefore hafter htotal hmail ⊢
    rw [htotal, hafter, hbefore]
    calc (_ : Multiset Response)
      _ = Sent.answers (Sent.ahead a.sent) + a.others (fun program => program.answer?.toList) p + lost +
          (program.answer?.toList + (new.map (·.2)).toList) := by abel
      _ = _ := by
        rw [hmail]
        abel
  case request =>
    intro e he
    rcases List.mem_append.mp he with he | he
    · exact h.request e he
    · exact (hanswered he).1
  case late =>
    intro elapsed htime e he hdue
    rcases List.mem_append.mp he with he | he
    · cases hbefore : a.session.timedOut with
      | none =>
        have hearly : steps.any (Step.expires i) = false := by rw [← h.clock, hbefore]; rfl
        rw [due_of_expires hearly before (by rw [hexpires, hbefore, htime]; rfl)] at hdue
        have hopen := (List.mem_filter.mp hdue).2
        have hclosed := (List.mem_filter.mp (h.tasks.mem_iff.mp (List.mem_map_of_mem he))).2
        rw [hopen] at hclosed
        cases hclosed
      | some elapsed' =>
        have hlate : steps.any (Step.expires i) = true := by rw [← h.clock, hbefore]; rfl
        rw [due_append hlate] at hdue
        rw [session, post.ages.late elapsed' hbefore] at htime
        cases htime
        exact h.late elapsed hbefore e he hdue
    · exact (hanswered he).2 elapsed htime
  case kept =>
    rw [List.append_eq_nil_iff, h.kept, ← post.keepsAnswers_iff before after started ended hahead hmail]
    simp only [List.mem_append, List.mem_singleton, or_imp, forall_and, forall_eq]
  case clock =>
    rw [List.any_append, ← h.clock, List.any_cons, List.any_nil, Bool.or_false, hexpires]
    cases hbefore : a.session.timedOut with
    | none => rfl
    | some elapsed =>
      rw [session, post.ages.late elapsed hbefore]
      rfl

/-- What is done from outside adds tasks at most, and none once the time is up. -/
lemma extend (h : Ledger i c accepted steps book lost a) {fresh : List Task}
    (fresh_open : ∀ t ∈ fresh, b.isOpen t.context = true) (inTime : fresh = [] ∨ a.session.timedOut = none)
    (opens : ∀ t ∈ accepted, b.isOpen t.context = a.isOpen t.context)
    (timedOut : b.session.timedOut = a.session.timedOut) (sent : b.sent = a.sent)
    (gather : (b.gather fun program => program.answer?.toList) = a.gather fun program => program.answer?.toList) :
    Ledger i c (accepted ++ fresh) steps book lost b where
  tasks := by
    have hold : (accepted.filter fun t => !b.isOpen t.context) = accepted.filter fun t => !a.isOpen t.context :=
      List.filter_congr fun t ht => by rw [opens t ht]
    have hnew : (fresh.filter fun t => !b.isOpen t.context) = [] := by
      refine List.filter_eq_nil_iff.mpr fun t ht => ?_
      rw [fresh_open t ht]
      exact Bool.false_ne_true
    rw [List.filter_append, hold, hnew, List.append_nil]
    exact h.tasks
  mail := by
    rw [sent, gather]
    exact h.mail
  request := h.request
  late elapsed he e hmem hdue := by
    rw [timedOut] at he
    rcases inTime with rfl | inTime
    · rw [List.append_nil] at hdue
      exact h.late elapsed he e hmem hdue
    · cases inTime.symm.trans he
  kept := h.kept
  clock := by
    rw [timedOut]
    exact h.clock

end Ledger

end Affairs

end GraphServer
