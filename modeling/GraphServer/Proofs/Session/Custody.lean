import GraphServer.Proofs.Session.Shift

/-!
Where the tasks are that a session accepted.

* `Affairs.Custody`: the accepted tasks without a last response are in somebody's hands, in flight or in the
  queue, each in one place, but for those that were forsaken;
* `Affairs.Custody.deed`, `Affairs.Custody.forsake`, `Affairs.Custody.accept`: **what a step, the end of a process and
  the acceptance of a task make of that**.
-/

namespace GraphServer.Affairs

variable {i : SessionId} {c : ChannelId} {a a' b : Affairs} {p : ProcessId} {k : ContextId} {program next : Program}
  {accepted : List Task} {new : Option (ContextId × Response)} {put : Option Sent} {refused : List Response}

/-- The contexts in the hands of the session and of all processes. -/
def custody (a : Affairs) : List ContextId :=
  a.flight ++ (a.gather Program.tasks ++ a.queue).map (·.context)

/-- Those of them whose last responses are still to be sent off. -/
def pending (a : Affairs) : List ContextId :=
  a.custody.filter a.isOpen

/-- Those in the hands of all processes but one. -/
def elsewhere (a : Affairs) (p : ProcessId) : List ContextId :=
  (a.others Program.tasks p).map (·.context)

/-- The contexts of the accepted tasks whose last responses are still to be sent off. -/
def waiting (a : Affairs) (accepted : List Task) : List ContextId :=
  (accepted.map (·.context)).filter a.isOpen

/-- Where the accepted tasks are. -/
structure Custody (accepted : List Task) (intact : Prop) (a : Affairs) : Prop where
  nodup : (accepted.map (·.context)).Nodup
  known : ∀ t ∈ accepted, ∃ x, a.contexts[t.context]? = some x ∧ x.request = t.request.id
  /-- Those without a last response are in one place each, unless nobody cares for them any more. -/
  held : ∃ forsaken, (a.waiting accepted).Perm (a.pending ++ forsaken) ∧ (intact → forsaken = [])

/-! ### Contexts -/

lemma isOpen_congr (contexts : b.contexts = a.contexts) : b.isOpen = a.isOpen :=
  funext fun k => by rw [isOpen, isOpen, contexts]

/-- Answering a context takes it from those that are open. -/
lemma filter_conclude {l : List ContextId} (nodup : (l.filter a.isOpen).Nodup)
    (contexts : b.contexts = (a.conclude k).contexts) : l.filter b.isOpen = (l.filter a.isOpen).erase k := by
  rw [nodup.erase_eq_filter, List.filter_filter]
  refine List.filter_congr fun j _ => ?_
  rw [isOpen_congr contexts]
  by_cases hj : j = k
  · subst hj
    rw [isOpen_conclude_self]
    simp
  · rw [isOpen_conclude_ne hj]
    simp [hj]

lemma perm_conclude {l : List ContextId} (nodup : (l.filter a.isOpen).Nodup) (mem : k ∈ l.filter a.isOpen)
    (contexts : b.contexts = (a.conclude k).contexts) : (l.filter a.isOpen).Perm (k :: l.filter b.isOpen) := by
  rw [filter_conclude nodup contexts]
  exact List.perm_cons_erase mem

namespace Deed

variable (deed : Deed a program a' next new put refused)

include deed

/-- What a deed makes of those that are open. -/
lemma perm_filter {l : List ContextId} (nodup : (l.filter a.isOpen).Nodup)
    (mem : ∀ k r, new = some (k, r) → k ∈ l.filter a.isOpen) :
    (l.filter a.isOpen).Perm ((new.map (·.1)).toList ++ l.filter a'.isOpen) := by
  cases new with
  | none =>
    rw [isOpen_congr deed.contexts]
    exact .refl _
  | some x => exact perm_conclude nodup (mem x.1 x.2 rfl) deed.contexts

/-- What a deed makes of those that are open and not concerned. -/
lemma filter_eq {l : List ContextId} (fresh : ∀ k r, new = some (k, r) → k ∉ l.filter a.isOpen) :
    l.filter a'.isOpen = l.filter a.isOpen := by
  cases new with
  | none => rw [isOpen_congr deed.contexts]
  | some x =>
    refine List.filter_congr fun j hj => ?_
    rw [isOpen_congr (b := a') (a := a.conclude x.1) deed.contexts]
    by_cases hjx : j = x.1
    · subst hjx
      rw [isOpen_conclude_self]
      by_contra hne
      refine fresh x.1 x.2 rfl (List.mem_filter.mpr ⟨hj, ?_⟩)
      cases hopen : a.isOpen x.1 with
      | true => rfl
      | false => exact absurd hopen.symm hne
    · exact isOpen_conclude_ne hjx

lemma mem_due (hnew : new = some (k, r)) : k ∈ a.due program := by
  rw [deed.line, hnew]
  exact List.mem_append_left _ (List.mem_singleton_self k)

lemma contexts_known {j : ContextId} {x : TaskContext} (hx : a.contexts[j]? = some x) :
    ∃ y, a'.contexts[j]? = some y ∧ y.request = x.request := by
  cases new with
  | none => exact ⟨x, deed.contexts ▸ hx, rfl⟩
  | some e =>
    rw [deed.contexts]
    change ∃ y, (a.contexts.modify e.1 _)[j]? = some y ∧ _
    by_cases hj : j = e.1
    · subst hj
      rw [List.getElem?_modify_eq, hx]
      exact ⟨_, rfl, rfl⟩
    · rw [List.getElem?_modify_ne _ _ (Ne.symm hj)]
      exact ⟨x, hx, rfl⟩

end Deed

/-! ### Hands -/

lemma perm_exchange {α : Type} (ks ls ms : List α) : (ks ++ ls ++ ms).Perm (ks ++ ms ++ ls) := by
  rw [List.append_assoc, List.append_assoc]
  exact List.perm_append_comm.append_left ks

/-- The hands of one process and of the session, and those of all others. -/
lemma custody_perm {tasks others : List Task} (h : (a.gather Program.tasks).Perm (tasks ++ others)) :
    a.custody.Perm (a.flight ++ (tasks ++ a.queue).map (·.context) ++ others.map (·.context)) := by
  have hgather := h.map (·.context)
  rw [List.map_append] at hgather
  rw [custody, List.map_append, List.map_append]
  calc a.flight ++ ((a.gather Program.tasks).map (·.context) ++ a.queue.map (·.context))
    _ |>.Perm (a.flight ++ (tasks.map (·.context) ++ others.map (·.context) ++ a.queue.map (·.context))) :=
      (hgather.append_right _).append_left _
    _ |>.Perm (a.flight ++ (tasks.map (·.context) ++ a.queue.map (·.context) ++ others.map (·.context))) :=
      (perm_exchange _ _ _).append_left _
    _ = _ := (List.append_assoc ..).symm

lemma Shift.pending_before (h : a.Shift p program next b) :
    a.pending.Perm (a.due program ++ (a.elsewhere p).filter a.isOpen) := by
  rw [pending, due, line, elsewhere, ← List.filter_append]
  exact (custody_perm h.gather_before).filter _

lemma Shift.pending_after (h : a.Shift p program next b) :
    b.pending.Perm (b.due next ++ (a.elsewhere p).filter b.isOpen) := by
  rw [pending, due, line, elsewhere, ← List.filter_append]
  exact (custody_perm (h.gather_after fun _ _ => rfl)).filter _

namespace Custody

variable {intact intact' : Prop}

lemma nodup_waiting (h : a.Custody accepted intact) : (a.waiting accepted).Nodup :=
  h.nodup.filter _

lemma nodup_pending (h : a.Custody accepted intact) : a.pending.Nodup := by
  obtain ⟨forsaken, hperm, -⟩ := h.held
  exact (List.nodup_append.mp (hperm.nodup_iff.mp h.nodup_waiting)).1

lemma nodup_due (h : a.Custody accepted intact) (shift : a.Shift p program next b) : (a.due program).Nodup :=
  (List.nodup_append.mp (shift.pending_before.nodup_iff.mp h.nodup_pending)).1

/-- What is answered was accepted. -/
lemma mem_waiting (h : a.Custody accepted intact) (shift : a.Shift p program next b) (hk : k ∈ a.due program) :
    k ∈ a.waiting accepted := by
  obtain ⟨forsaken, hperm, -⟩ := h.held
  refine hperm.mem_iff.mpr (List.mem_append_left _ ?_)
  exact shift.pending_before.mem_iff.mpr (List.mem_append_left _ hk)

/-- A deed answers at most one task. -/
lemma deed (h : a.Custody accepted intact) (shift : a.Shift p program next b)
    (deed : Deed a program a' next new put refused) (session : b.session = a'.session)
    (contexts : b.contexts = a'.contexts) (still : intact' → intact) : b.Custody accepted intact' := by
  have hdue : b.due next = a'.due next := by
    rw [due, due, line, line, flight, flight, queue, queue, session, isOpen_congr contexts]
  have hwaiting := deed.perm_filter h.nodup_waiting fun k r hnew => h.mem_waiting shift (deed.mem_due hnew)
  have hpending := h.nodup_pending
  rw [shift.pending_before.nodup_iff, List.nodup_append] at hpending
  have hothers : (a.elsewhere p).filter b.isOpen = (a.elsewhere p).filter a.isOpen := by
    rw [isOpen_congr contexts]
    exact deed.filter_eq fun k r hnew hk => hpending.2.2 k (deed.mem_due hnew) k hk rfl
  refine ⟨h.nodup, fun t ht => ?_, ?_⟩
  · obtain ⟨x, hx, hrequest⟩ := h.known t ht
    rw [contexts]
    obtain ⟨y, hy, hsame⟩ := deed.contexts_known hx
    exact ⟨y, hy, hsame.trans hrequest⟩
  · obtain ⟨forsaken, hperm, hnone⟩ := h.held
    refine ⟨forsaken, ?_, fun hintact => hnone (still hintact)⟩
    rw [waiting, isOpen_congr contexts]
    refine (List.perm_append_left_iff (new.map (·.1)).toList).mp ?_
    calc (new.map (·.1)).toList ++ (accepted.map (·.context)).filter a'.isOpen
      _ |>.Perm (a.waiting accepted) := hwaiting.symm
      _ |>.Perm (a.pending ++ forsaken) := hperm
      _ |>.Perm (a.due program ++ (a.elsewhere p).filter a.isOpen ++ forsaken) := shift.pending_before.append_right _
      _ = (new.map (·.1)).toList ++ (b.due next ++ (a.elsewhere p).filter b.isOpen ++ forsaken) := by
        rw [deed.line, hothers, hdue, List.append_assoc, List.append_assoc, List.append_assoc]
      _ |>.Perm ((new.map (·.1)).toList ++ (b.pending ++ forsaken)) :=
        (shift.pending_after.symm.append_right _).append_left _

/-- The end of a process that was stopped may leave tasks to nobody. -/
lemma forsake (h : a.Custody accepted intact) (shift : a.Shift p program next b) (session : b.session = a.session)
    (contexts : b.contexts = a.contexts) (idle : next.tasks = [])
    (still : intact' → intact ∧ program.tasks = []) : b.Custody accepted intact' := by
  refine ⟨h.nodup, fun t ht => contexts ▸ h.known t ht, ?_⟩
  obtain ⟨forsaken, hperm, hnone⟩ := h.held
  have hopen := isOpen_congr contexts
  have hdue : (a.due program).Perm (b.due next ++ (program.tasks.map (·.context)).filter a.isOpen) := by
    rw [due, due, line, line, idle, flight, flight, queue, queue, session, hopen, ← List.filter_append, List.map_append]
    refine List.Perm.filter _ ?_
    rw [List.append_assoc]
    exact List.perm_append_comm.append_left _
  refine ⟨(program.tasks.map (·.context)).filter a.isOpen ++ forsaken, ?_, fun hintact => ?_⟩
  · rw [waiting, hopen]
    calc a.waiting accepted
      _ |>.Perm (a.pending ++ forsaken) := hperm
      _ |>.Perm (a.due program ++ (a.elsewhere p).filter a.isOpen ++ forsaken) := shift.pending_before.append_right _
      _ |>.Perm (b.due next ++ (program.tasks.map (·.context)).filter a.isOpen ++ (a.elsewhere p).filter a.isOpen ++
          forsaken) := (hdue.append_right _).append_right _
      _ |>.Perm (b.due next ++ (a.elsewhere p).filter a.isOpen ++ (program.tasks.map (·.context)).filter a.isOpen ++
          forsaken) := (perm_exchange _ _ _).append_right _
      _ = b.due next ++ (a.elsewhere p).filter b.isOpen ++
          ((program.tasks.map (·.context)).filter a.isOpen ++ forsaken) := by rw [hopen, List.append_assoc _ _ forsaken]
      _ |>.Perm (b.pending ++ ((program.tasks.map (·.context)).filter a.isOpen ++ forsaken)) :=
        shift.pending_after.symm.append_right _
  · obtain ⟨hbefore, htasks⟩ := still hintact
    rw [htasks, hnone hbefore]
    rfl

/-- Changes that leave all tasks where they are. -/
lemma congr (h : a.Custody accepted intact) (contexts : b.contexts = a.contexts) (custody : b.custody.Perm a.custody) :
    b.Custody accepted intact := by
  have hopen := isOpen_congr contexts
  refine ⟨h.nodup, fun t ht => contexts ▸ h.known t ht, ?_⟩
  obtain ⟨forsaken, hperm, hnone⟩ := h.held
  refine ⟨forsaken, ?_, hnone⟩
  rw [waiting, pending, hopen]
  exact hperm.trans ((custody.symm.filter _).append_right _)

/-- A context more, and perhaps its task. -/
lemma extend (h : a.Custody accepted intact) (r : Request) {fresh : List Task}
    (hfresh : fresh = [] ∨ fresh = [a.nextTask r]) (contexts : b.contexts = (a.addContext c r).contexts)
    (range : ∀ k ∈ a.custody, k < a.contexts.length)
    (custody : b.custody.Perm (a.custody ++ fresh.map (·.context))) : b.Custody (accepted ++ fresh) intact := by
  have hlt : ∀ k ∈ accepted.map (·.context), k < a.contexts.length := by
    intro k hk
    obtain ⟨t, ht, rfl⟩ := List.mem_map.mp hk
    obtain ⟨x, hx, -⟩ := h.known t ht
    exact (List.getElem?_eq_some_iff.mp hx).1
  have hold {l : List ContextId} (hl : ∀ k ∈ l, k < a.contexts.length) : l.filter b.isOpen = l.filter a.isOpen := by
    refine List.filter_congr fun k hk => ?_
    rw [isOpen_congr contexts]
    exact isOpen_addContext_lt c r (hl k hk)
  have hnew : (fresh.map (·.context)).filter b.isOpen = fresh.map (·.context) := by
    rcases hfresh with rfl | rfl
    · rfl
    · rw [isOpen_congr contexts]
      exact List.filter_cons_of_pos (isOpen_addContext_self a c r)
  refine ⟨?_, fun t ht => ?_, ?_⟩
  · rw [List.map_append]
    rcases hfresh with rfl | rfl
    · rw [List.map_nil, List.append_nil]
      exact h.nodup
    · refine List.nodup_append.mpr ⟨h.nodup, List.nodup_singleton _, fun k hk j hj => ?_⟩
      cases List.mem_singleton.mp hj
      exact Nat.ne_of_lt (hlt k hk)
  · rw [contexts]
    rcases List.mem_append.mp ht with ht | ht
    · obtain ⟨x, hx, hrequest⟩ := h.known t ht
      exact ⟨x, (List.getElem?_append_left (List.getElem?_eq_some_iff.mp hx).1).trans hx, hrequest⟩
    · rcases hfresh with rfl | rfl
      · cases ht
      · cases List.mem_singleton.mp ht
        exact ⟨_, List.getElem?_concat_length, rfl⟩
  · obtain ⟨forsaken, hperm, hnone⟩ := h.held
    refine ⟨forsaken, ?_, hnone⟩
    rw [waiting, List.map_append, List.filter_append, hold hlt, hnew, pending]
    calc a.waiting accepted ++ fresh.map (·.context)
      _ |>.Perm (a.pending ++ forsaken ++ fresh.map (·.context)) := hperm.append_right _
      _ |>.Perm (a.pending ++ fresh.map (·.context) ++ forsaken) := perm_exchange _ _ _
      _ = (a.custody ++ fresh.map (·.context)).filter b.isOpen ++ forsaken := by
        rw [List.filter_append, hold range, hnew]
        rfl
      _ |>.Perm (b.custody.filter b.isOpen ++ forsaken) := (custody.symm.filter _).append_right _

end Custody

end GraphServer.Affairs
