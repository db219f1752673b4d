import GraphServer.Proofs.Server.Working
import GraphServer.System.Connection

/-!
The manager of sessions keeps all of them in order, and knows those that go on.

* `System.Listed`: the table holds every session that accepts tasks and every session for a single task that is not
  terminated, holds no name twice and no more names than allowed, and says of each entry what it is;
* `System.Sound`: all sessions are kept in order and listed;
* one lemma for each operation of the manager: it keeps the server sound, and sessions only go on.
-/

namespace GraphServer

/-- A key that occurs once is looked up. -/
lemma lookup_of_nodup {α β : Type} [BEq α] [LawfulBEq α] {entries : List (α × β)} (once : (entries.map (·.1)).Nodup)
    {e : α × β} (he : e ∈ entries) : entries.lookup e.1 = some e.2 := by
  obtain ⟨before, after, rfl⟩ := List.append_of_mem he
  refine List.lookup_eq_some_iff.mpr ⟨before, after, rfl, fun d hd => bne_iff_ne.mpr fun same => ?_⟩
  rw [List.map_append, List.map_cons] at once
  exact (List.nodup_append.mp once).2.2 d.1 (List.mem_map_of_mem hd) e.1 List.mem_cons_self same.symm

namespace SessionTable

variable {t : SessionTable} {name : String} {i j : SessionId}

lemma mem_all_insert (h : j ∈ t.all) : j ∈ (t.insert name i).all := by
  rw [all, insert, List.map_append]
  exact (List.mem_append.mp h).elim (fun hj => List.mem_append_left _ (List.mem_append_left _ hj))
    (List.mem_append_right _)

lemma mem_all_insert_self : i ∈ (t.insert name i).all := by
  rw [all, insert, List.map_append]
  exact List.mem_append_left _ (List.mem_append_right _ (List.mem_singleton_self i))

lemma mem_of_find? (h : t.find? name = some i) : (name, i) ∈ t.named := by
  obtain ⟨l₁, l₂, hnamed, -⟩ := List.lookup_eq_some_iff.mp h
  rw [hnamed]
  exact List.mem_append_right _ (List.mem_cons_self ..)

end SessionTable

namespace System

variable {own : SessionId → ProcessId → Prop} {mine : ProcessId → Prop} {s s' : System} {i j : SessionId}

/-- The table holds all sessions in which something may still begin, those for many tasks under their names. -/
structure Listed (s : System) : Prop where
  names : (s.table.named.map (·.1)).Nodup
  accepting : ∀ i (x : Session), s.sessions[i]? = some x → x.accepting = true → i ∈ s.table.all
  singles : ∀ i (x : Session), s.sessions[i]? = some x → x.backlog = none → x.terminated = false → i ∈ s.table.singles
  named : ∀ e ∈ s.table.named, ∃ x, s.sessions[e.2]? = some x ∧ x.name = e.1 ∧ x.backlog.isSome = true
  lone : ∀ i ∈ s.table.singles, ∃ x, s.sessions[i]? = some x ∧ x.backlog = none
  limited : s.table.named.length ≤ s.service.settings.maxConcurrentSessions

/-- All sessions are kept in order and listed; `own i` are the handlers that were started for the session `i`. -/
structure Sound (own : SessionId → ProcessId → Prop) (s : System) : Prop where
  orderly : ∀ i, Orderly (own i) s i
  listed : s.Listed

/-! ### Submitting -/

lemma Affects.submitTask (s : System) (i : SessionId) (t : Task) : Affects i s (s.submitTask i t).1 := by
  have outcome := s.submitTask_outcome i t
  generalize s.submitTask i t = x at outcome ⊢
  cases outcome with
  | strays | closed | full => exact refl s i
  | engages =>
    have hspawn : Affects i (s.onSession i Session.stopAccepting)
        ((s.onSession i Session.stopAccepting).spawn (.single i (.start t))).1 :=
      .spawn _ fun k hk => beq_eq_false_iff_ne.mpr (Ne.symm hk)
    exact ((onSession s i _ fun y _ => .stopAccepting y).trans hspawn).trans (onSession _ i _ fun y _ => .setHook y _ _)
  | enqueues known accepting many queued =>
    refine (onSession s i _ fun y hy => ?_).trans (Tends.notify _ i).toAffects
    cases known.symm.trans hy
    exact .enqueue many queued

namespace Orderly

/-- A session in which nobody works and nothing has come to an end. -/
lemma of_idle {x : Session} (hx : s.sessions[i]? = some x) (lives : x.isOver = false)
    (known : ∀ p, mine p → p < s.processes.length) (unattended : s.Unattended i) (silent : s.Silent mine) :
    Orderly mine s i := by
  have hsession (y : Session) (hy : s.sessions[i]? = some y) : y = x := Option.some.inj (hy.symm.trans hx)
  refine ⟨known, fun _ => ⟨unattended, silent⟩, fun p q program _ hp he _ _ => ?_,
    fun p hp ha => absurd ha (Bool.eq_false_iff.mp (silent p hp)), fun _ _ _ _ => ⟨unattended, silent⟩,
    fun y hy ho => ?_, fun y hy ht => .inr unattended⟩
  · exact absurd he (Bool.eq_false_iff.mp (unattended p program hp))
  · cases hsession y hy
    exact absurd ho (Bool.eq_false_iff.mp lives)

/-- A session in which nobody worked and for which one process was started to execute its tasks. -/
lemma of_recruited (unattended : s.Unattended i) (silent : s.Silent mine)
    (known : ∀ p, mine p → p < s.processes.length) (one : s'.processes.length = s.processes.length + 1)
    (programs : ∀ p, p < s.processes.length → s'.program? p = s.program? p)
    (active : ∀ p, p < s.processes.length → s'.isActive p = true → s.isActive p = true) {x : Session}
    (hx : s'.sessions[i]? = some x) (lives : x.isOver = false) (occupied : ¬ (x.backlog = none ∧ x.accepting = true)) :
    Orderly mine s' i := by
  have hsession (y : Session) (hy : s'.sessions[i]? = some y) : y = x := Option.some.inj (hy.symm.trans hx)
  have hsilent : s'.Silent mine := fun p hp =>
    Bool.eq_false_iff.mpr fun ha => Bool.false_ne_true ((silent p hp).symm.trans (active p (known p hp) ha))
  have hnew {p : ProcessId} {program : Program} (hp : s'.program? p = some program)
      (he : program.attends i = true) : p = s.processes.length := by
    have hlt := (lt_of_program? hp).trans_eq one
    have hle : ¬ p < s.processes.length := fun hold =>
      Bool.false_ne_true ((unattended p program ((programs p hold).symm.trans hp)).symm.trans he)
    exact Nat.le_antisymm (Nat.le_of_lt_succ hlt) (Nat.le_of_not_lt hle)
  refine ⟨fun p hp => (known p hp).trans_le (one ▸ Nat.le_succ _), fun hnone => ?_,
    fun p q _ _ hp he hq he' => (hnew hp he).trans (hnew hq he').symm,
    fun p hp ha => absurd ha (Bool.eq_false_iff.mp (hsilent p hp)), fun y hy hb ha => ?_, fun y hy ho => ?_,
    fun y hy ht => ?_⟩
  · cases hnone.symm.trans hx
  · cases hsession y hy
    exact absurd ⟨hb, ha⟩ occupied
  · cases hsession y hy
    exact absurd ho (Bool.eq_false_iff.mp lives)
  · cases hsession y hy
    rw [Session.isOver, ht, Bool.or_true] at lives
    cases lives

/-- A session that accepts tasks is not over. -/
lemma isOver_eq_false (h : Orderly mine s i) {x : Session} (hx : s.sessions[i]? = some x)
    (accepting : x.accepting = true) : x.isOver = false :=
  Bool.eq_false_iff.mpr fun ho => Bool.false_ne_true ((h.ended x hx ho).1.symm.trans accepting)

lemma submitTask (h : Orderly mine s i) (t : Task) : Orderly mine (s.submitTask i t).1 i := by
  have haffects := Affects.submitTask s i t
  have outcome := s.submitTask_outcome i t
  generalize s.submitTask i t = z at haffects outcome ⊢
  cases outcome with
  | strays | closed | full => exact h
  | @engages x hx haccepting hb =>
    obtain ⟨hunattended, hsilent⟩ := h.vacant x hx hb haccepting
    let s₁ := s.onSession i Session.stopAccepting
    have hsessions : (s₁.spawn (.single i (.start t))).1.sessions = s₁.sessions := (Quiet.wake _ _).sessions
    have hx' : ((s₁.spawn (.single i (.start t))).1.onSession i fun y =>
        (y.setHook .future s.processes.length).toOption.getD y).sessions[i]? =
          some ((x.stopAccepting.setHook .future s.processes.length).toOption.getD x.stopAccepting) := by
      rw [System.onSession, List.getElem?_modify_eq, hsessions]
      change ((s.sessions.modify i _)[i]?).map _ = _
      rw [List.getElem?_modify_eq, hx]
      rfl
    have hcalms := Session.Calms.setHook x.stopAccepting .future s.processes.length
    refine of_recruited hunattended hsilent h.known (length_spawn s₁ _) haffects.programs haffects.active hx'
      (((Session.Calms.stopAccepting x).trans hcalms).isOver_eq_false (h.isOver_eq_false hx haccepting)) fun ho => ?_
    exact Bool.false_ne_true (hcalms.follows.accepting ho.2)
  | @enqueues x x' b hx haccepting hb henqueue =>
    have hcalms (y : Session) (hy : s.sessions[i]? = some y) : x'.inFlight = y.inFlight ∧ y.Calms x' := by
      cases hx.symm.trans hy
      have calms := Session.Calms.enqueue hb henqueue
      obtain ⟨-, rfl⟩ := Session.enqueue_eq_ok henqueue
      exact ⟨rfl, calms⟩
    exact (h.onSession (f := fun _ => x') hcalms).notify

/-! ### Opening -/

lemma getElem?_concat_of_ne {xs : List Session} {x : Session} (other : i ≠ xs.length) : (xs ++ [x])[i]? = xs[i]? := by
  rcases lt_trichotomy i xs.length with hlt | heq | hgt
  · exact List.getElem?_append_left hlt
  · exact absurd heq other
  · rw [List.getElem?_eq_none (Nat.le_of_lt hgt), List.getElem?_eq_none]
    rw [List.length_append, List.length_singleton]
    exact hgt

lemma addSession (h : Orderly mine s i) (x : Session) (other : i ≠ s.sessions.length) :
    Orderly mine (s.addSession x).1 i :=
  h.of_fewer (getElem?_concat_of_ne other) le_rfl (fun _ _ hp _ => hp) fun _ _ => id

/-- A new session for one task. -/
lemma openSingle (h : Orderly mine s s.sessions.length) (name : String) (c : ChannelId) :
    Orderly mine (s.openSingle name c).1 s.sessions.length := by
  obtain ⟨hunattended, hsilent⟩ := h.absent (List.getElem?_eq_none le_rfl)
  exact of_idle List.getElem?_concat_length rfl h.known hunattended hsilent

lemma openMulti_affects (s : System) (name : String) (c : ChannelId) (limit : Nat) :
    Affects s.sessions.length (s.addSession { name, channel := c, backlog := some { limit := max limit 1 } }).1
      (s.openMulti name c limit).1 := by
  have hspawn (s' : System) : Affects s.sessions.length s' (s'.spawn (.worker s.sessions.length .choosing)).1 :=
    .spawn s' fun k hk => beq_eq_false_iff_ne.mpr (Ne.symm hk)
  exact (hspawn _).trans (.onSession _ _ _ fun x _ => ⟨rfl, rfl, id, id, id, id, rfl⟩)

/-- A new session for many tasks, whose worker is started with it. -/
lemma openMulti (h : Orderly mine s s.sessions.length) (name : String) (c : ChannelId) (limit : Nat) :
    Orderly mine (s.openMulti name c limit).1 s.sessions.length := by
  obtain ⟨hunattended, hsilent⟩ := h.absent (List.getElem?_eq_none le_rfl)
  have haffects := openMulti_affects s name c limit
  let x : Session := { name, channel := c, backlog := some { limit := max limit 1 } }
  have hsessions : ((s.addSession x).1.spawn (.worker s.sessions.length .choosing)).1.sessions = s.sessions ++ [x] :=
    (Quiet.wake _ _).sessions
  have hx : (s.openMulti name c limit).1.sessions[s.sessions.length]? = some { x with future := some s.processes.length } := by
    change (((s.addSession x).1.spawn (.worker s.sessions.length .choosing)).1.sessions.modify _ _)[_]? = _
    rw [List.getElem?_modify_eq, hsessions, List.getElem?_concat_length]
    rfl
  exact of_recruited hunattended hsilent h.known (length_spawn (s.addSession x).1 _) haffects.programs haffects.active hx
    rfl fun hb => by cases hb.1

end Orderly

/-! ### The table -/

lemma Orderly.armLifetime (h : Orderly mine s i) : Orderly mine (s.armLifetime i) i := by
  refine h.of_harmless (.armLifetime s i) fun x hx => ?_
  rw [System.armLifetime]
  dsimp only
  split
  · exact ⟨x, hx, rfl, .refl x, id, id⟩
  · generalize Program.lifetime i s.service.settings.sessionLifetime none = program
    have hsessions : (s.spawn program).1.sessions = s.sessions := (Quiet.wake _ _).sessions
    refine ⟨(x.setHook .cancelFuture s.processes.length).toOption.getD x, ?_, ?_, .setHook x _ _⟩
    · rw [System.onSession, List.getElem?_modify_eq, hsessions, hx]
      rfl
    · obtain ⟨future, cancelFuture, hset⟩ := x.setHook_getD .cancelFuture s.processes.length
      rw [hset]

namespace Listed

lemma of_same (h : s.Listed) (service : s'.service = s.service) (sessions : s'.sessions = s.sessions)
    (table : s'.table = s.table) : s'.Listed where
  names := table ▸ h.names
  accepting := sessions ▸ table ▸ h.accepting
  singles := sessions ▸ table ▸ h.singles
  named := sessions ▸ table ▸ h.named
  lone := sessions ▸ table ▸ h.lone
  limited := service ▸ table ▸ h.limited

/-- A part of the table that holds all that it has to. -/
lemma retable (h : s.Listed) {t : SessionTable} (fewer : t.named.Sublist s.table.named)
    (fewerSingles : t.singles ⊆ s.table.singles)
    (all : ∀ i (x : Session), s.sessions[i]? = some x → x.accepting = true → i ∈ s.table.all → i ∈ t.all)
    (singles : ∀ i (x : Session), s.sessions[i]? = some x → x.terminated = false → i ∈ s.table.singles → i ∈ t.singles) :
    Listed { s with table := t } where
  names := (fewer.map _).nodup h.names
  accepting i x hx ha := all i x hx ha (h.accepting i x hx ha)
  singles i x hx hb ht := singles i x hx ht (h.singles i x hx hb ht)
  named e he := h.named e (fewer.subset he)
  lone i hi := h.lone i (fewerSingles hi)
  limited := fewer.length_le.trans h.limited

lemma of_affects (h : s.Listed) (a : Affects j s s') : s'.Listed := by
  have hback (i : SessionId) (x' : Session) (hx' : s'.sessions[i]? = some x') :
      ∃ x, s.sessions[i]? = some x ∧ x.Follows x' := by
    by_cases hi : i = j
    · subst hi
      exact a.exists_before hx'
    · exact ⟨x', (a.others i hi).symm.trans hx', .refl x'⟩
  refine ⟨a.table ▸ h.names, fun i x' hx' ha => ?_, fun i x' hx' hb ht => ?_, fun e he => ?_, fun i hi => ?_,
    a.service ▸ a.table ▸ h.limited⟩
  · obtain ⟨x, hx, hfollows⟩ := hback i x' hx'
    exact a.table ▸ h.accepting i x hx (hfollows.accepting ha)
  · obtain ⟨x, hx, hfollows⟩ := hback i x' hx'
    refine a.table ▸ h.singles i x hx (hfollows.backlog_eq_none hb) (Bool.eq_false_iff.mpr fun hterminated => ?_)
    exact Bool.false_ne_true (ht.symm.trans (hfollows.terminated hterminated))
  · obtain ⟨x, hx, hname, hmany⟩ := h.named e (a.table ▸ he)
    obtain ⟨x', hx', hfollows⟩ := a.onward.follows e.2 x hx
    exact ⟨x', hx', hfollows.name.trans hname, hfollows.backlog.trans hmany⟩
  · obtain ⟨x, hx, hone⟩ := h.lone i (a.table ▸ hi)
    obtain ⟨x', hx', hfollows⟩ := a.onward.follows i x hx
    exact ⟨x', hx', hfollows.backlog_eq_none_iff.mpr hone⟩

/-- A session is opened and enters the table: those of the table before that still have to be there stay, and the new
one comes to its place. -/
structure Enters (s : System) (x : Session) (t : SessionTable) : Prop where
  names : (t.named.map (·.1)).Nodup
  all : ∀ i (y : Session), s.sessions[i]? = some y → y.accepting = true → i ∈ s.table.all → i ∈ t.all
  singles : ∀ i (y : Session), s.sessions[i]? = some y → y.terminated = false → i ∈ s.table.singles → i ∈ t.singles
  enters : s.sessions.length ∈ t.all
  entersSingle : x.backlog = none → s.sessions.length ∈ t.singles
  named : ∀ e ∈ t.named, e ∈ s.table.named ∨ e = (x.name, s.sessions.length) ∧ x.backlog.isSome = true
  lone : ∀ i ∈ t.singles, i ∈ s.table.singles ∨ i = s.sessions.length ∧ x.backlog = none
  limited : t.named.length ≤ s.service.settings.maxConcurrentSessions

lemma opened (h : s.Listed) {x : Session} (a : Affects s.sessions.length (s.addSession x).1 s') {t : SessionTable}
    (e : Enters s x t) : Listed { s' with table := t } := by
  obtain ⟨names, all, singles, enters, entersSingle, named, lone, limited⟩ := e
  have hold (i : SessionId) (y : Session) (other : i ≠ s.sessions.length) (hy : s'.sessions[i]? = some y) :
      s.sessions[i]? = some y :=
    (Orderly.getElem?_concat_of_ne other).symm.trans ((a.others i other).symm.trans hy)
  obtain ⟨x', hx', hnew⟩ := a.follows x List.getElem?_concat_length
  have hstays (i : SessionId) (y : Session) (hy : s.sessions[i]? = some y) : s'.sessions[i]? = some y := by
    have hlt := (List.getElem?_eq_some_iff.mp hy).1
    exact (a.others i hlt.ne).trans ((List.getElem?_append_left hlt).trans hy)
  refine ⟨names, fun i y hy ha => ?_, fun i y hy hb ht => ?_, fun e he => ?_, fun i hi => ?_,
    limited.trans_eq (congrArg (fun service => service.settings.maxConcurrentSessions) a.service.symm)⟩
  · by_cases hi : i = s.sessions.length
    · exact hi ▸ enters
    · exact all i y (hold i y hi hy) ha (h.accepting i y (hold i y hi hy) ha)
  · by_cases hi : i = s.sessions.length
    · subst hi
      obtain ⟨x₀, hx₀, hfollows⟩ := a.exists_before hy
      cases List.getElem?_concat_length.symm.trans hx₀
      exact entersSingle (hfollows.backlog_eq_none hb)
    · exact singles i y (hold i y hi hy) ht (h.singles i y (hold i y hi hy) hb ht)
  · rcases named e he with hbefore | ⟨rfl, hmany⟩
    · obtain ⟨y, hy, hentry⟩ := h.named e hbefore
      exact ⟨y, hstays e.2 y hy, hentry⟩
    · exact ⟨x', hx', hnew.name, hnew.backlog.trans hmany⟩
  · rcases lone i hi with hbefore | ⟨rfl, hone⟩
    · obtain ⟨y, hy, hentry⟩ := h.lone i hbefore
      exact ⟨y, hstays i y hy, hentry⟩
    · exact ⟨x', hx', hnew.backlog_eq_none_iff.mpr hone⟩

end Listed

namespace Sound

lemma of_affects (h : Sound own s) (a : Affects j s s') (orderly : Orderly (own j) s' j) : Sound own s' where
  orderly i := by
    by_cases hi : i = j
    · exact hi ▸ orderly
    · exact (h.orderly i).of_affects a hi
  listed := h.listed.of_affects a

lemma of_still (h : Sound own s) (still : s.Still s') : Sound own s' :=
  h.of_affects (.of_still still 0) ((h.orderly 0).of_still still)

/-- A part of the table that holds all that it has to. -/
lemma retable (h : Sound own s) {t : SessionTable} (fewer : t.named.Sublist s.table.named)
    (fewerSingles : t.singles ⊆ s.table.singles)
    (all : ∀ i (x : Session), s.sessions[i]? = some x → x.accepting = true → i ∈ s.table.all → i ∈ t.all)
    (singles : ∀ i (x : Session), s.sessions[i]? = some x → x.terminated = false → i ∈ s.table.singles → i ∈ t.singles) :
    Sound own { s with table := t } where
  orderly i := (h.orderly i).of_fewer rfl le_rfl (fun _ _ hp _ => hp) fun _ _ => id
  listed := h.listed.retable fewer fewerSingles all singles

/-- A process starts that executes no tasks. -/
lemma spawn (h : Sound own s) {program : Program} (idle : ∀ i, program.attends i = false) :
    Sound own (s.spawn program).1 :=
  h.of_affects (Tends.spawn s idle 0).toAffects
    ((h.orderly 0).of_affects (Affects.spawn s fun i _ => idle i) Nat.zero_ne_one)

lemma not_terminated (h : Sound own s) {x : Session} (hx : s.sessions[i]? = some x) (accepting : x.accepting = true) :
    x.terminated = false := by
  have hlives := (h.orderly i).isOver_eq_false hx accepting
  rw [Session.isOver, Bool.or_eq_false_iff] at hlives
  exact hlives.2

lemma prune (h : Sound own s) : Sound own s.prune := by
  refine h.retable List.filter_sublist (List.Subset.refl _) (fun i x hx ha hi => ?_) fun i x _ _ hi => hi
  rcases List.mem_append.mp hi with hnamed | hsingle
  · obtain ⟨e, he, rfl⟩ := List.mem_map.mp hnamed
    refine List.mem_append_left _ (List.mem_map.mpr ⟨e, List.mem_filter.mpr ⟨he, ?_⟩, rfl⟩)
    rw [isAccepting, hx]
    exact ha
  · exact List.mem_append_right _ hsingle

/-- Sessions for single tasks that are not terminated stay in the table. -/
lemma mem_filter_singles {x : Session} (hx : s.sessions[i]? = some x) (ht : x.terminated = false)
    (hi : i ∈ s.table.singles) : i ∈ s.table.singles.filter fun i => !s.isTerminated i := by
  refine List.mem_filter.mpr ⟨hi, ?_⟩
  rw [isTerminated, hx, Option.any_some, ht]
  rfl

lemma pruneSingles (h : Sound own s) : Sound own s.pruneSingles := by
  refine h.retable (List.Sublist.refl _) (List.filter_subset_self _) (fun i x hx ha hi => ?_)
    fun i x hx ht hi => mem_filter_singles hx ht hi
  rcases List.mem_append.mp hi with hnamed | hsingle
  · exact List.mem_append_left _ hnamed
  · exact List.mem_append_right _ (mem_filter_singles hx (h.not_terminated hx ha) hsingle)

/-! ### The operations of the manager -/

lemma submit (h : Sound own s) (c : ChannelId) (i : SessionId) (r : Request) :
    Sound own (s.submit c i r).1 ∧ s.Onward (s.submit c i r).1 := by
  have hmake : s.Still (s.makeTask r c).1 := ⟨rfl, rfl, rfl, rfl⟩
  have haffects := Affects.submitTask (s.makeTask r c).1 i (s.makeTask r c).2
  have hsound := (h.of_still hmake).of_affects haffects (((h.orderly i).of_still hmake).submitTask _)
  have honward := (Onward.of_still hmake).trans haffects.onward
  rw [submit_fst]
  exact ⟨hsound, honward⟩

lemma onward_addSession (s : System) (x : Session) : s.Onward (s.addSession x).1 where
  service := rfl
  follows _ y hy := ⟨y, (List.getElem?_append_left (List.getElem?_eq_some_iff.mp hy).1).trans hy, .refl y⟩
  grows := le_rfl
  programs _ _ := rfl
  active _ _ := id

lemma onward_retable (s : System) (t : SessionTable) : s.Onward { s with table := t } where
  service := rfl
  follows _ y hy := ⟨y, hy, .refl y⟩
  grows := le_rfl
  programs _ _ := rfl
  active _ _ := id

/-- A session is opened and enters the table. -/
lemma opened (h : Sound own s) {x : Session} (a : Affects s.sessions.length (s.addSession x).1 s')
    (orderly : Orderly (own s.sessions.length) s' s.sessions.length) {t : SessionTable} (e : Listed.Enters s x t) :
    Sound own { s' with table := t } ∧ s.Onward { s' with table := t } := by
  refine ⟨⟨fun i => ?_, h.listed.opened a e⟩,
    ((onward_addSession s x).trans a.onward).trans (onward_retable s' t)⟩
  have horderly : Orderly (own i) s' i := by
    by_cases hi : i = s.sessions.length
    · exact hi ▸ orderly
    · exact ((h.orderly i).addSession x hi).of_affects a hi
  exact horderly.of_fewer rfl le_rfl (fun _ _ hp _ => hp) fun _ _ => id

lemma getOrCreate (h : Sound own s) (name : String) (c : ChannelId) :
    Sound own (s.getOrCreate name c).1 ∧ s.Onward (s.getOrCreate name c).1 := by
  have hprune := h.prune
  have honward := onward_retable s s.prune.table
  have outcome := s.getOrCreate_outcome name c
  generalize s.getOrCreate name c = z at outcome ⊢
  cases outcome with
  | finds | elsewhere | full => exact ⟨hprune, honward⟩
  | opens unknown room =>
    generalize s.service.settings.maxQueuedTasks = limit
    let i := s.prune.sessions.length
    have hopen := Orderly.openMulti_affects s.prune name c limit
    have harm := Tends.armLifetime (s.prune.openMulti name c limit).1 i
    have haffects := hopen.trans harm.toAffects
    have horderly := ((hprune.orderly i).openMulti name c limit).armLifetime
    have htable : ((s.prune.openMulti name c limit).1.armLifetime i).table = s.prune.table := haffects.table
    have hnew : name ∉ s.prune.table.named.map (·.1) := by
      intro hmem
      obtain ⟨e, he, rfl⟩ := List.mem_map.mp hmem
      exact absurd rfl (bne_iff_ne.mp (List.lookup_eq_none_iff.mp unknown e he))
    have henters : Listed.Enters s.prune { name, channel := c, backlog := some { limit := max limit 1 } }
        (s.prune.table.insert name i) :=
      { names := by
          rw [SessionTable.insert, List.map_append]
          exact List.nodup_append.mpr ⟨hprune.listed.names, List.nodup_singleton _, fun n hn n' hn' heq => by
            rw [heq, List.mem_singleton.mp hn'] at hn
            exact hnew hn⟩
        all := fun j _ _ _ hj => SessionTable.mem_all_insert hj
        singles := fun _ _ _ _ hj => hj
        enters := SessionTable.mem_all_insert_self
        entersSingle := nofun
        named := fun e he => (List.mem_append.mp he).imp_right fun h => ⟨List.mem_singleton.mp h, rfl⟩
        lone := fun _ hj => .inl hj
        limited := by
          rw [SessionTable.insert, List.length_append]
          exact room }
    have hopened := hprune.opened haffects horderly henters
    rw [← htable] at hopened
    exact ⟨hopened.1, honward.trans hopened.2⟩

lemma single (h : Sound own s) (c : ChannelId) : Sound own (s.single c).1 ∧ s.Onward (s.single c).1 := by
  let s₁ := (s.openSingle "" c).1
  have hkept (i : SessionId) (y : Session) (hy : s.sessions[i]? = some y) (ht : y.terminated = false)
      (hi : i ∈ s.table.singles) : i ∈ s₁.pruneSingles.table.singles :=
    mem_filter_singles (s := s₁) ((List.getElem?_append_left (List.getElem?_eq_some_iff.mp hy).1).trans hy) ht hi
  have henters : Listed.Enters s { name := "", channel := c }
      (s₁.pruneSingles.table.insertSingle s.sessions.length) :=
    { names := h.listed.names
      all := fun i y hy ha hi => by
        rcases List.mem_append.mp hi with hnamed | hsingle
        · exact List.mem_append_left _ hnamed
        · exact List.mem_append_right _ (List.mem_append_left _ (hkept i y hy (h.not_terminated hy ha) hsingle))
      singles := fun i y hy ht hi => List.mem_append_left _ (hkept i y hy ht hi)
      enters := List.mem_append_right _ (List.mem_append_right _ (List.mem_singleton_self _))
      entersSingle := fun _ => List.mem_append_right _ (List.mem_singleton_self _)
      named := fun _ he => .inl he
      lone := fun i hi => (List.mem_append.mp hi).imp List.mem_of_mem_filter fun hself =>
        ⟨List.mem_singleton.mp hself, rfl⟩
      limited := h.listed.limited }
  exact h.opened (Affects.refl s₁ s.sessions.length) ((h.orderly _).openSingle "" c) henters

lemma sessionCount (h : Sound own s) : Sound own s.sessionCount.1 ∧ s.Onward s.sessionCount.1 :=
  ⟨h.prune, onward_retable s _⟩

lemma runningSingles (h : Sound own s) : Sound own s.runningSingles.1 ∧ s.Onward s.runningSingles.1 :=
  ⟨h.pruneSingles, onward_retable s _⟩

lemma closeMulti (h : Sound own s) (i : SessionId) : Sound own (s.closeMulti i) ∧ s.Onward (s.closeMulti i) := by
  have htends := Tends.closeMulti s i
  exact ⟨h.of_affects htends.toAffects (h.orderly i).closeMulti, htends.onward⟩

end Sound

/-! ### Closing by name -/

lemma accepting_closeMulti {x' : Session} (hx' : (s.closeMulti i).sessions[i]? = some x') : x'.accepting = false := by
  obtain ⟨x, hx, hfollows⟩ := (Tends.notify (s.onSession i Session.stopAccepting) i).exists_before hx'
  rw [onSession, List.getElem?_modify_eq, Option.map_eq_map, Option.map_eq_some_iff] at hx
  obtain ⟨y, -, rfl⟩ := hx
  exact Bool.eq_false_iff.mpr fun ha => Bool.false_ne_true (hfollows.accepting ha)

namespace Sound

lemma closeSession (h : Sound own s) (name : String) :
    Sound own (s.closeSession name).1 ∧ s.Onward (s.closeSession name).1 := by
  rw [System.closeSession]
  split
  · exact ⟨h, .refl s⟩
  next i hfind =>
    have htends := Tends.closeMulti { s with table := s.table.erase name } i
    have horderly (j : SessionId) : Orderly (own j) { s with table := s.table.erase name } j :=
      (h.orderly j).of_fewer rfl le_rfl (fun _ _ hp _ => hp) fun _ _ => id
    have hnamed : (s.table.erase name).named.Sublist s.table.named := List.filter_sublist
    refine ⟨⟨fun j => ?orderly, ?names, fun j x hx ha => ?accepting, fun j x hx hb ht => ?singles, fun e he => ?named,
      fun j hj => ?lone, ?limited⟩, (onward_retable s _).trans htends.onward⟩
    case orderly =>
      by_cases hj : j = i
      · exact hj ▸ (horderly i).closeMulti
      · exact (horderly j).of_affects htends.toAffects hj
    case names =>
      rw [htends.table]
      exact (hnamed.map _).nodup h.listed.names
    case accepting =>
      -- The session with the name accepts no tasks any more, and no other one has the name.
      have hother : j ≠ i := by
        rintro rfl
        exact Bool.false_ne_true ((accepting_closeMulti hx).symm.trans ha)
      rw [htends.others j hother] at hx
      rw [htends.table]
      refine (List.mem_append.mp (h.listed.accepting j x hx ha)).elim (fun hnamed => ?_) (List.mem_append_right _)
      obtain ⟨e, he, rfl⟩ := List.mem_map.mp hnamed
      refine List.mem_append_left _ (List.mem_map.mpr ⟨e, List.mem_filter.mpr ⟨he, bne_iff_ne.mpr fun hname => ?_⟩, rfl⟩)
      exact hother (congrArg Prod.snd
        (List.inj_on_of_nodup_map h.listed.names he (SessionTable.mem_of_find? hfind) hname))
    case singles =>
      rw [htends.table]
      by_cases hj : j = i
      · subst hj
        obtain ⟨y, hy, hfollows⟩ := htends.exists_before hx
        refine h.listed.singles j y hy (hfollows.backlog_eq_none hb) (Bool.eq_false_iff.mpr fun hterminated => ?_)
        exact Bool.false_ne_true (ht.symm.trans (hfollows.terminated hterminated))
      · rw [htends.others j hj] at hx
        exact h.listed.singles j x hx hb ht
    case named =>
      rw [htends.table] at he
      obtain ⟨x, hx, hname, hmany⟩ := h.listed.named e (hnamed.subset he)
      obtain ⟨x', hx', hfollows⟩ := htends.onward.follows e.2 x hx
      exact ⟨x', hx', hfollows.name.trans hname, hfollows.backlog.trans hmany⟩
    case lone =>
      rw [htends.table] at hj
      obtain ⟨x, hx, hone⟩ := h.listed.lone j hj
      obtain ⟨x', hx', hfollows⟩ := htends.onward.follows j x hx
      exact ⟨x', hx', hfollows.backlog_eq_none_iff.mpr hone⟩
    case limited =>
      rw [htends.table, htends.service]
      exact hnamed.length_le.trans h.listed.limited

end Sound

/-! ### Ending all sessions of a channel -/

lemma onward_killAll (s : System) (is : List SessionId) : s.Onward (is.foldl System.kill s) := by
  induction is generalizing s with
  | nil => exact .refl s
  | cons i is ih => exact (Tends.kill s i).onward.trans (ih (s.kill i))

lemma killAll_table (s : System) (is : List SessionId) : (is.foldl System.kill s).table = s.table := by
  induction is generalizing s with
  | nil => rfl
  | cons i is ih => exact (ih (s.kill i)).trans (Tends.kill s i).table

lemma killAll_other {is : List SessionId} (spared : i ∉ is) :
    (is.foldl System.kill s).sessions[i]? = s.sessions[i]? := by
  induction is generalizing s with
  | nil => rfl
  | cons j is ih =>
    rw [List.mem_cons, not_or] at spared
    exact (ih spared.2).trans ((Tends.kill s j).others i spared.1)

/-- A session that is killed is terminated and accepts no tasks. -/
lemma kill_self {x : Session} (hx : s.sessions[i]? = some x) : (s.kill i).sessions[i]? = some x.kill := by
  rw [System.kill, hx]
  dsimp only
  rw [abortAll_sessions, onSession, List.getElem?_modify_eq, hx]
  rfl

lemma killAll_mem {is : List SessionId} (killed : i ∈ is) {x : Session} (hx : s.sessions[i]? = some x) :
    ∃ x', (is.foldl System.kill s).sessions[i]? = some x' ∧ x.kill.Follows x' := by
  induction is generalizing s x with
  | nil => cases killed
  | cons j is ih =>
    by_cases hj : i = j
    · subst hj
      exact (onward_killAll (s.kill i) is).follows i x.kill (kill_self hx)
    · have hother := (Tends.kill s j).others i hj
      exact ih ((List.mem_cons.mp killed).resolve_left hj) (hother.trans hx)

namespace Sound

lemma killAll (h : Sound own s) (is : List SessionId) : Sound own (is.foldl System.kill s) := by
  induction is generalizing s with
  | nil => exact h
  | cons i is ih => exact ih (h.of_affects (Tends.kill s i).toAffects (h.orderly i).kill)

lemma closeBoundTo (h : Sound own s) (c : ChannelId) :
    Sound own (s.closeBoundTo c) ∧ s.Onward (s.closeBoundTo c) := by
  let bound := s.table.all.filter (s.isBound · c)
  have hkilled := h.killAll bound
  have htable := killAll_table s bound
  -- What the table still has to hold was not killed, so that it is not bound to the channel.
  have hkept (i : SessionId) (x : Session) (hx : (bound.foldl System.kill s).sessions[i]? = some x)
      (ht : x.terminated = false) (hi : i ∈ s.table.all) : (!s.isBound i c && !s.isTerminated i) = true := by
    have hbound : s.isBound i c = false := Bool.eq_false_iff.mpr fun hbound => by
      obtain ⟨y, hy, -⟩ := (Option.any_eq_true _ _).mp hbound
      obtain ⟨x', hx', hfollows⟩ := killAll_mem (List.mem_filter.mpr ⟨hi, hbound⟩ : i ∈ bound) hy
      cases hx.symm.trans hx'
      exact Bool.false_ne_true (ht.symm.trans (hfollows.terminated rfl))
    have hspared : i ∉ bound := fun hmem =>
      Bool.false_ne_true (hbound.symm.trans (List.mem_filter.mp hmem).2)
    rw [killAll_other hspared] at hx
    rw [hbound, isTerminated, hx, Option.any_some, ht]
    rfl
  refine ⟨hkilled.retable (htable ▸ List.filter_sublist) (htable ▸ List.filter_subset_self _) (fun i x hx ha hi => ?_)
    fun i x hx ht hi => ?_, (onward_killAll s bound).trans (onward_retable _ _)⟩
  · rw [htable] at hi
    have hkept := hkept i x hx (hkilled.not_terminated hx ha) hi
    rcases List.mem_append.mp hi with hnamed | hsingle
    · obtain ⟨e, he, rfl⟩ := List.mem_map.mp hnamed
      exact List.mem_append_left _ (List.mem_map.mpr ⟨e, List.mem_filter.mpr ⟨he, hkept⟩, rfl⟩)
    · exact List.mem_append_right _ (List.mem_filter.mpr ⟨hsingle, hkept⟩)
  · rw [htable] at hi
    exact List.mem_filter.mpr ⟨hi, hkept i x hx ht (List.mem_append_right _ hi)⟩

end Sound

end System

end GraphServer
