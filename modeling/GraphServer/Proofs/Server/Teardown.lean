import GraphServer.Proofs.Server.Annals

/-!
What becomes of the sessions of a channel when they are ended.

* `System.IsTracked`: a session stands in the table, or it need not because it is terminated;
* `Annals.closeBoundTo_ends`: **none of them accepts tasks any more, and a tracked one is terminated and none of its
  handlers ever takes a step again**;
* `Annals.closeBoundTo_passesBy`: one that was closed before is not tracked and goes on.
-/

namespace GraphServer

namespace System

variable {own : SessionId → ProcessId → Prop} {s : System} {i : SessionId} {c : ChannelId} {x : Session}

/-- The order to end the sessions of a channel reaches a session, or finds it terminated. -/
def IsTracked (s : System) (i : SessionId) : Prop :=
  i ∈ s.table.all ∨ s.isTerminated i = true

/-- A session that accepts tasks, and one for a single task, is tracked. -/
lemma Sound.isTracked (h : Sound own s) (hx : s.sessions[i]? = some x)
    (held : x.accepting = true ∨ x.backlog = none) : s.IsTracked i := by
  rcases held with haccepting | hsingle
  · exact .inl (h.listed.accepting i x hx haccepting)
  · by_cases ht : x.terminated = true
    · refine .inr ?_
      rw [isTerminated, hx]
      exact ht
    · exact .inl (List.mem_append_right _ (h.listed.singles i x hx hsingle (Bool.eq_false_iff.mpr ht)))

/-- What the order to end the sessions of a channel makes of one of them. -/
lemma Sound.closeBoundTo_session (h : Sound own s) (hx : s.sessions[i]? = some x) (bound : x.channel = c) :
    ∃ x', (s.closeBoundTo c).sessions[i]? = some x' ∧ x.Follows x' ∧ x'.accepting = false ∧
      (s.IsTracked i → x'.terminated = true) ∧ (¬ s.IsTracked i → x' = x) := by
  have hbound : s.isBound i c = true := by
    rw [isBound, hx]
    exact beq_iff_eq.mpr bound
  by_cases hall : i ∈ s.table.all
  · have hkilled : i ∈ s.table.all.filter (s.isBound · c) := List.mem_filter.mpr ⟨hall, hbound⟩
    obtain ⟨x', hx', hfollows⟩ := killAll_mem hkilled hx
    refine ⟨x', hx', (Session.Follows.kill x).trans hfollows, ?_, fun _ => hfollows.terminated rfl,
      fun hnot => absurd (.inl hall) hnot⟩
    exact Bool.eq_false_iff.mpr fun ha => Bool.false_ne_true (hfollows.accepting ha)
  · have hspared : i ∉ s.table.all.filter (s.isBound · c) := fun hmem => hall (List.mem_filter.mp hmem).1
    refine ⟨x, (killAll_other hspared).trans hx, .refl x, ?_, fun htracked => ?_, fun _ => rfl⟩
    · exact Bool.eq_false_iff.mpr fun ha => hall (h.listed.accepting i x hx ha)
    · have hterminated := htracked.resolve_left hall
      rw [isTerminated, hx] at hterminated
      exact hterminated

end System

namespace Annals

/-- When the sessions of a channel are ended, whatever happened before, none of them accepts tasks any more. One that
stood in the table is terminated then, as is one for a single task and one that still accepted tasks; one that had been
closed before, and had not come to its end, is left as it was. No handler of a tracked session, and of one whose time
was up, ever takes a step again, whatever happens later. -/
theorem closeBoundTo_ends (service : Service) (past later : List Happening) (c : ChannelId) {i : SessionId}
    {x : Session} (hx : ((start service).play past).system.sessions[i]? = some x) (bound : x.channel = c) :
    let before := (start service).play past
    let after := before.next (.closeBoundTo c)
    (x.accepting = true ∨ x.backlog = none → before.system.IsTracked i) ∧
    (∃ x', after.system.sessions[i]? = some x' ∧ x'.accepting = false ∧
      (before.system.IsTracked i → x'.terminated = true) ∧ (¬ before.system.IsTracked i → x' = x)) ∧
    (before.system.IsTracked i ∨ x.isOver = true → ∀ e ∈ (after.play later).steps.drop after.steps.length,
      e.2.turn.isSome = true → ¬ (after.play later).Handles i e.1) := by
  intro before after
  have hbefore : before.Faithful := faithful_play service past
  have hsound := hbefore.managed.toSound
  obtain ⟨x', hx', hfollows, haccepting, htracked, huntracked⟩ := hsound.closeBoundTo_session hx bound
  refine ⟨hsound.isTracked hx, ⟨x', hx', haccepting, htracked, huntracked⟩, fun hends e he hturn hhandler => ?_⟩
  have hover : x'.isOver = true := by
    rcases hends with hreached | hover
    · rw [Session.isOver, htracked hreached, Bool.or_true]
    · exact hfollows.isOver hover
  obtain ⟨hafter, -, -⟩ := hbefore.next (.closeBoundTo c)
  obtain ⟨hfinal, -, taken, htaken, hlater⟩ := hafter.play later
  have hsteps : (after.play later).steps.drop after.steps.length = taken := by
    rw [show (after.play later).steps = after.steps ++ taken from htaken, List.drop_left]
  -- What the step found is a later state, in which the session was over as well.
  obtain ⟨y, hy, hfollows'⟩ := (hlater e (hsteps ▸ he)).follows i x' hx'
  have hlives := hfinal.told e (List.mem_of_mem_drop he) hturn i hhandler y hy
  exact Bool.false_ne_true (hlives.symm.trans (hfollows'.isOver hover))

/-- A session was opened over the first channel, and the handler of its only task so far was started. -/
def busy : List Happening :=
  [.openChannel {}, .getOrCreate "s" 0, .submit 0 ⟨.nil, "eval", "", Fields.empty⟩ 0, .turn 1 1 9]

/-- The session is ended while the handler, which is the third process, has not had its turn. -/
theorem closeBoundTo_ends_busy :
    let after := ((start {}).play busy).next (.closeBoundTo 0)
    (∃ x', after.system.sessions[0]? = some x' ∧ x'.accepting = false ∧ x'.terminated = true) ∧
      ∀ e ∈ (after.play [.turn 3 1 9]).steps.drop after.steps.length, e.2.turn.isSome = true →
        ¬ (after.play [.turn 3 1 9]).Handles 0 e.1 := by
  have hsession : ∃ x, ((start {}).play busy).system.sessions[0]? = some x ∧ x.channel = 0 := ⟨_, rfl, by decide⟩
  obtain ⟨x, hx, hbound⟩ := hsession
  have htracked : ((start {}).play busy).system.IsTracked 0 := .inl (by decide)
  obtain ⟨-, ⟨x', hx', haccepting, hterminated, -⟩, hsilent⟩ :=
    closeBoundTo_ends {} busy [.turn 3 1 9] 0 hx hbound
  exact ⟨⟨x', hx', haccepting, hterminated htracked⟩, hsilent (.inl htracked)⟩

/-- If the session was closed before, it is not terminated when the sessions of its channel are ended, and its handler
has its turn after that. -/
theorem closeBoundTo_passesBy :
    let after := ((start {}).play (busy ++ [.closeNamed "s"])).next (.closeBoundTo 0)
    (∃ x', after.system.sessions[0]? = some x' ∧ x'.channel = 0 ∧ x'.terminated = false) ∧
      ∃ e ∈ (after.play [.turn 3 1 9]).steps.drop after.steps.length, e.2.turn.isSome = true ∧
        (after.play [.turn 3 1 9]).Handles 0 e.1 := by
  intro after
  have hsession : ∃ x', after.system.sessions[0]? = some x' ∧ x'.channel = 0 ∧ x'.terminated = false :=
    ⟨_, rfl, by decide, by decide⟩
  have hturn : ((after.play [.turn 3 1 9]).steps.drop after.steps.length).any
      (fun e => e.1 == 3 && e.2.turn.isSome) = true := by decide
  have hstart : (after.play [.turn 3 1 9]).steps.any
      (fun e => e.2.program.attends 0 && decide ((3, 0) ∈ e.2.started)) = true := by decide
  obtain ⟨e, he, hstep⟩ := List.any_eq_true.mp hturn
  obtain ⟨hprocess, hsome⟩ := Bool.and_eq_true_iff.mp hstep
  obtain ⟨e', he', hstarts⟩ := List.any_eq_true.mp hstart
  obtain ⟨hattends, hstarted⟩ := Bool.and_eq_true_iff.mp hstarts
  refine ⟨hsession, e, he, hsome, .inr ⟨e'.2, List.mem_map_of_mem he', hattends, 0, ?_⟩⟩
  rw [beq_iff_eq.mp hprocess]
  exact of_decide_eq_true hstarted

end Annals

end GraphServer
