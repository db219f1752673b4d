import GraphServer.System.Event
import GraphServer.Proofs.Server.Affects
import GraphServer.Proofs.System.Posting

/-!
What happens on a server without anything being put into a queue.

* `System.Adds`: contexts and processes are only added, and no new process waits to send anything;
* `System.Calm`: nothing is put into a queue either. Everything that reaches the server from outside is calm: it
  starts processes, and these do the sending;
* `System.Gains`: something may be put into the queues, behind what was put into them before.
-/

namespace GraphServer.System

variable {s s' s'' : System} {i : SessionId} {p : ProcessId}

/-! ### Relations -/

/-- Between two states of a server contexts and processes were added, and the others stayed as they are; nobody
waits to send anything who did not before, and nobody who was stopped takes steps again. -/
structure Adds (s s' : System) : Prop where
  contexts : ∃ fresh, s'.contexts = s.contexts ++ fresh ∧ ∀ y ∈ fresh, y.finished = false
  programs : ∀ p P, s.program? p = some P → s'.program? p = some P
  idle : ∀ p P, s.program? p = none → s'.program? p = some P → P.handover? = none
  active : ∀ p P, s.program? p = some P → s'.isActive p = true → s.isActive p = true

/-- Between two states of a server nothing was put into a queue, and only contexts and processes were added. -/
structure Calm (s s' : System) : Prop extends Adds s s' where
  sent : ∀ c, s'.sentOver c = s.sentOver c

/-- Between two states of a server only contexts, processes and what was put into queues were added. -/
structure Gains (s s' : System) : Prop extends Adds s s' where
  sent : ∀ c, s.sentOver c <+: s'.sentOver c

namespace Adds

lemma of_same (contexts : s'.contexts = s.contexts) (programs : ∀ p, s'.program? p = s.program? p)
    (active : ∀ p, s'.isActive p = true → s.isActive p = true) : s.Adds s' where
  contexts := ⟨[], by rw [contexts, List.append_nil], fun _ hy => absurd hy List.not_mem_nil⟩
  programs p P hP := (programs p).trans hP
  idle p P hnone hP := by cases hnone.symm.trans ((programs p).symm.trans hP)
  active p _ _ := active p

lemma of_quiet (h : s.Quiet s') : s.Adds s' :=
  of_same h.contexts h.program? fun p ha => isActive_eq h.processes p ▸ ha

@[refl] lemma refl (s : System) : s.Adds s := of_same rfl (fun _ => rfl) fun _ => id

lemma trans (h : s.Adds s') (h' : s'.Adds s'') : s.Adds s'' where
  contexts := by
    obtain ⟨fresh, hfresh, hopen⟩ := h.contexts
    obtain ⟨fresh', hfresh', hopen'⟩ := h'.contexts
    refine ⟨fresh ++ fresh', by rw [hfresh', hfresh, List.append_assoc], fun y hy => ?_⟩
    exact (List.mem_append.mp hy).elim (hopen y) (hopen' y)
  programs p P hP := h'.programs p P (h.programs p P hP)
  idle p P hnone hP := by
    cases hp : s'.program? p with
    | none => exact h'.idle p P hp hP
    | some Q =>
      obtain rfl := Option.some.inj ((h'.programs p Q hp).symm.trans hP)
      exact h.idle p Q hnone hp
  active p P hP ha := h.active p P hP (h'.active p P (h.programs p P hP) ha)

/-- A context that was there is there as it was. -/
lemma context? (h : s.Adds s') {k : ContextId} {y : TaskContext} (known : s.contexts[k]? = some y) :
    s'.contexts[k]? = some y := by
  obtain ⟨fresh, hfresh, -⟩ := h.contexts
  rw [hfresh]
  exact (List.getElem?_append_left (List.getElem?_eq_some_iff.mp known).1).trans known

/-- A context was there as it is, unless it is new. -/
lemma context?_before (h : s.Adds s') {k : ContextId} {y : TaskContext} (known : s'.contexts[k]? = some y) :
    s.contexts[k]? = some y ∨ s.contexts[k]? = none ∧ y.finished = false := by
  obtain ⟨fresh, hfresh, hopen⟩ := h.contexts
  rw [hfresh] at known
  by_cases hk : k < s.contexts.length
  · exact .inl ((List.getElem?_append_left hk).symm.trans known)
  · rw [List.getElem?_append_right (not_lt.mp hk)] at known
    exact .inr ⟨List.getElem?_eq_none (not_lt.mp hk), hopen y (List.mem_of_getElem? known)⟩

end Adds

namespace Calm

lemma of_mute (h : s.Mute s') : s.Calm s' :=
  ⟨.of_quiet h.toQuiet, h.sent⟩

lemma of_same (contexts : s'.contexts = s.contexts) (processes : s'.processes = s.processes)
    (channels : s'.channels = s.channels) : s.Calm s' :=
  ⟨.of_same contexts (fun p => by rw [System.program?, System.program?, processes])
      fun p ha => isActive_eq processes p ▸ ha,
    fun c => by rw [sentOver, sentOver, channels]⟩

@[refl] lemma refl (s : System) : s.Calm s := of_same rfl rfl rfl

lemma trans (h : s.Calm s') (h' : s'.Calm s'') : s.Calm s'' :=
  ⟨h.toAdds.trans h'.toAdds, fun c => (h'.sent c).trans (h.sent c)⟩

/-! ### Sessions and processes -/

lemma onSession (s : System) (i : SessionId) (f : Session → Session) : s.Calm (s.onSession i f) :=
  of_same rfl rfl rfl

lemma addSession (s : System) (x : Session) : s.Calm (s.addSession x).1 :=
  of_same rfl rfl rfl

lemma retable (s : System) (t : SessionTable) : s.Calm { s with table := t } :=
  of_same rfl rfl rfl

lemma abort (s : System) (p : ProcessId) : s.Calm (s.abort p) := by
  refine ⟨.of_same (s.abort_contexts p) (fun q => program?_abort s p q) fun q ha => ?_, fun c => ?_⟩
  · rw [isActive_abort] at ha
    exact (Bool.and_eq_true_iff.mp ha).1
  · have outcome := s.abort_outcome p
    generalize s.abort p = s' at outcome ⊢
    cases outcome with
    | spares => rfl
    | stops => exact (Mute.wake _ p).sent c

lemma abortAll (s : System) (ps : List ProcessId) : s.Calm (s.abortAll ps) := by
  induction ps generalizing s with
  | nil => exact refl s
  | cons p ps ih => exact (abort s p).trans (ih (s.abort p))

lemma addProcess (s : System) {program : Program} (idle : program.handover? = none) :
    s.Calm (s.addProcess program).1 := by
  have hnew (p : ProcessId) : (s.addProcess program).1.program? p =
      if p = s.processes.length then some program else s.program? p := by
    rw [System.program?, System.program?, System.addProcess]
    dsimp only
    obtain hp | rfl | hp := lt_trichotomy p s.processes.length
    · rw [List.getElem?_append_left hp, if_neg hp.ne]
    · rw [List.getElem?_append_right le_rfl, Nat.sub_self, if_pos rfl]
      rfl
    · have hlength : (s.processes ++ [({ program } : Process)]).length ≤ p := by
        rw [List.length_append, List.length_singleton]
        exact hp
      rw [List.getElem?_eq_none hlength, if_neg hp.ne', List.getElem?_eq_none hp.le]
  refine ⟨⟨⟨[], (List.append_nil _).symm, fun _ hy => absurd hy List.not_mem_nil⟩, fun p P hP => ?_,
    fun p P hnone hP => ?_, fun p P hP ha => ?_⟩, fun _ => rfl⟩
  · rw [hnew, if_neg (lt_of_program? hP).ne]
    exact hP
  · rw [hnew] at hP
    split at hP
    · cases hP
      exact idle
    · cases hnone.symm.trans hP
  · rw [isActive, System.addProcess] at ha
    dsimp only at ha
    rwa [List.getElem?_append_left (lt_of_program? hP)] at ha

lemma spawn (s : System) {program : Program} (idle : program.handover? = none) : s.Calm (s.spawn program).1 :=
  (addProcess s idle).trans (.of_mute (.wake _ _))

lemma notify (s : System) (i : SessionId) : s.Calm (s.notify i) := by
  rw [System.notify]
  split
  · exact (onSession s i _).trans (.of_mute (.wakeIf _ _ _))
  · exact onSession s i _

lemma disarm (s : System) (i : SessionId) : s.Calm (s.disarm i) := abortAll s _

lemma finishSession (s : System) (i : SessionId) : s.Calm (s.finishSession i) :=
  (onSession s i _).trans (disarm _ i)

lemma closeMulti (s : System) (i : SessionId) : s.Calm (s.closeMulti i) :=
  (onSession s i _).trans (notify _ i)

lemma kill (s : System) (i : SessionId) : s.Calm (s.kill i) := by
  rw [System.kill]
  split
  · exact refl s
  · exact (onSession s i _).trans (abortAll _ _)

/-! ### The manager -/

lemma openMulti (s : System) (name : String) (c : ChannelId) (limit : Nat) : s.Calm (s.openMulti name c limit).1 :=
  ((addSession s _).trans (spawn _ rfl)).trans (onSession _ _ _)

lemma armLifetime (s : System) (i : SessionId) : s.Calm (s.armLifetime i) := by
  rw [System.armLifetime]
  dsimp only
  split
  · exact refl s
  · exact (spawn s rfl).trans (onSession _ i _)

lemma getOrCreate (s : System) (name : String) (c : ChannelId) : s.Calm (s.getOrCreate name c).1 := by
  have hprune : s.Calm s.prune := retable s _
  have outcome := s.getOrCreate_outcome name c
  generalize s.getOrCreate name c = x at outcome ⊢
  cases outcome with
  | finds | elsewhere | full => exact hprune
  | opens => exact ((hprune.trans (openMulti _ name c _)).trans (armLifetime _ _)).trans (retable _ _)

lemma single (s : System) (c : ChannelId) : s.Calm (s.single c).1 :=
  (addSession s _).trans (retable _ _)

lemma addContext (s : System) {y : TaskContext} (unfinished : y.finished = false) : s.Calm (s.addContext y).1 where
  contexts := ⟨[y], rfl, fun z hz => by rw [List.mem_singleton.mp hz, unfinished]⟩
  programs _ _ := id
  idle p P hnone hP := by cases hnone.symm.trans hP
  active _ _ _ := id
  sent _ := rfl

lemma submitTask (s : System) (i : SessionId) (t : Task) : s.Calm (s.submitTask i t).1 := by
  have outcome := s.submitTask_outcome i t
  generalize s.submitTask i t = x at outcome ⊢
  cases outcome with
  | strays | closed | full => exact refl s
  | engages => exact ((onSession s i _).trans (spawn _ rfl)).trans (onSession _ i _)
  | enqueues => exact (onSession s i _).trans (notify _ i)

lemma submit (s : System) (c : ChannelId) (i : SessionId) (r : Request) : s.Calm (s.submit c i r).1 := by
  have hmake : s.Calm (s.makeTask r c).1 := addContext s rfl
  rw [submit_fst]
  exact hmake.trans (submitTask _ i _)

lemma closeSession (s : System) (name : String) : s.Calm (s.closeSession name).1 := by
  rw [System.closeSession]
  split
  · exact refl s
  · exact (retable s _).trans (closeMulti _ _)

lemma closeBoundTo (s : System) (c : ChannelId) : s.Calm (s.closeBoundTo c) := by
  have hkill (is : List SessionId) (s : System) : s.Calm (is.foldl System.kill s) := by
    induction is generalizing s with
    | nil => exact refl s
    | cons i is ih => exact (kill s i).trans (ih (s.kill i))
  exact (hkill _ s).trans (retable _ _)

lemma route (s : System) (c : ChannelId) (r : Request) : s.Calm (s.route c r).1 := by
  have outcome := s.route_outcome c r
  generalize s.route c r = x at outcome ⊢
  cases outcome with
  | lone => exact (single s c).trans (submit _ c _ r)
  | closes => exact closeSession s _
  | enters => exact (getOrCreate s _ c).trans (submit _ c _ r)
  | refused => exact getOrCreate s _ c

lemma fillHook (s : System) (i : SessionId) (hook : SessionHook) : s.Calm (s.fillHook i hook).1 := by
  have added : s.Calm (s.addProcess (.finished none)).1 := addProcess s rfl
  rw [System.fillHook]
  dsimp only
  split
  · exact added
  · split
    · exact added.trans (onSession _ i _)
    · exact added

/-! ### Channels and connections -/

lemma addChannel (s : System) (transport : Transport) : s.Calm (s.addChannel transport).1 := by
  refine ⟨.of_same rfl (fun _ => rfl) fun _ => id, fun c => ?_⟩
  rw [sentOver, sentOver, System.addChannel]
  dsimp only
  by_cases hc : c < s.channels.length
  · rw [List.getElem?_append_left hc]
  · rw [List.getElem?_append_right (not_lt.mp hc), List.getElem?_eq_none (not_lt.mp hc)]
    cases c - s.channels.length <;> rfl

lemma spawnWriter (s : System) (c : ChannelId) : s.Calm (s.spawnWriter c) :=
  (spawn s rfl).trans (.of_mute (.onChannel _ c fun _ => rfl))

lemma openChannel (s : System) (transport : Transport) : s.Calm (s.openChannel transport).1 :=
  (addChannel s transport).trans (spawnWriter _ _)

lemma connect (s : System) (transport : Transport) : s.Calm (s.connect transport).1 :=
  ((addChannel s transport).trans (spawn _ rfl)).trans (of_same rfl rfl rfl)

lemma wakeReader (s : System) (n : ConnectionId) : s.Calm (s.wakeReader n) := by
  rw [System.wakeReader]
  split
  · exact .of_mute (.wakeIf s _ _)
  · exact refl s

lemma receive (s : System) (n : ConnectionId) (bytes : Bytes) : s.Calm (s.receive n bytes) :=
  (of_same rfl rfl rfl : s.Calm (s.onConnection n _)).trans (wakeReader _ n)

lemma endInbound (s : System) (n : ConnectionId) : s.Calm (s.endInbound n) :=
  (of_same rfl rfl rfl : s.Calm (s.onConnection n _)).trans (wakeReader _ n)

lemma disconnect (s : System) (n : ConnectionId) : s.Calm (s.disconnect n) := by
  rw [System.disconnect]
  split
  · exact refl s
  · exact (endInbound s n).trans (.of_mute (.onOutbound _ _ _))

lemma onTransport (s : System) (c : ChannelId) (f : Transport → Transport) : s.Calm (s.onTransport c f) :=
  .of_mute ((Mute.onOutbound s c _).trans (.wakeAll _ _))

lemma abandon (s : System) (c : ChannelId) : s.Calm (s.abandon c) :=
  .of_mute ((Mute.onOutbound s c _).trans (.wakeReceiver _ c))

/-! ### The ends of turns -/

lemma forget (s : System) (p : ProcessId) : s.Calm (s.forget p) := of_same rfl rfl rfl

lemma finish (s : System) (p : ProcessId) (result : Option (Except Error Unit)) :
    (s.setProgram p (.finished result)).Calm (s.finish p result) :=
  (forget _ p).trans (.of_mute (.wakeAll _ _))

lemma suspend (s : System) (p : ProcessId) (program : Program) :
    (s.setProgram p program).Calm (s.suspend p program) := by
  rw [System.suspend]
  split
  · exact of_same rfl rfl rfl
  · exact .of_mute (.setAlarms _ p _)

end Calm

/-! ### Putting something into queues -/

namespace Gains

variable {c : ChannelId} {m : Option Sent} {t : Transit}

lemma of_calm (h : s.Calm s') : s.Gains s' :=
  ⟨h.toAdds, fun c => by rw [h.sent]⟩

lemma of_mute (h : s.Mute s') : s.Gains s' :=
  of_calm (.of_mute h)

@[refl] lemma refl (s : System) : s.Gains s := of_mute (.refl s)

lemma trans (h : s.Gains s') (h' : s'.Gains s'') : s.Gains s'' :=
  ⟨h.toAdds.trans h'.toAdds, fun c => (h.sent c).trans (h'.sent c)⟩

lemma of_posts (posts : s.Posts c m s' t) : s.Gains s' := by
  cases posts with
  | put quiet sent => exact ⟨.of_quiet quiet, fun c' => by rw [sent]; exact List.prefix_append _ _⟩
  | held mute | refused mute => exact of_mute mute

lemma trySend (s : System) (c : ChannelId) (f : OutboundFrame) : s.Gains (s.trySend c f).1 := by
  rw [System.trySend]
  split
  · exact refl s
  · split
    · exact refl s
    · exact of_mute ((Mute.onOutbound s c _).trans (.wakeReceiver _ c))

end Gains

end GraphServer.System
