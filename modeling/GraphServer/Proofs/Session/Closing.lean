import GraphServer.Proofs.Session.Custody

/-!
How a session comes to its end.

* `System.Shows.sentOver` and others: what a server tells of its affairs is in them;
* `Affairs.Closing`: before the time is up nobody is to close the channel; then one process is, until it has
  put the order to close into the queue, or gives up;
* `Affairs.Closing.step`: **what a step makes of that**.
-/

namespace GraphServer

/-! ### What a server tells -/

namespace System.Shows

variable {s : System} {i : SessionId} {c : ChannelId} {a : Affairs}

lemma sentOver (h : s.Shows i c a) : s.sentOver c = a.sent := by
  obtain ⟨x, hx, -, hsent⟩ := h.channel
  rw [System.sentOver, hx, Option.map_some, Option.getD_some, hsent]

lemma isOpen (h : s.Shows i c a) : s.isOpen = a.isOpen :=
  funext fun k => by rw [System.isOpen, h.contexts, Affairs.isOpen]

lemma sentOff (h : s.Shows i c a) : s.sentOff = a.contexts.countP (·.finished) := by
  rw [System.sentOff, h.contexts]

lemma timedOut? (h : s.Shows i c a) : s.timedOut? i = a.session.timedOut := by
  rw [System.timedOut?, h.session, Option.bind_some]

/-- When nothing can go on, the process that executes the tasks is not awake, and no process is about anything. -/
lemma settled (h : s.Shows i c a) (settled : s.IsSettled) :
    (a.session.future ≠ none → a.awake = false) ∧ ∀ program ∈ a.programs, program.isPending = false := by
  obtain ⟨hready, haside, hstill⟩ := settled
  refine ⟨fun hfuture => Bool.eq_false_iff.mpr fun hawake => ?_, fun program hmem => ?_⟩
  · obtain ⟨e, he⟩ := Option.ne_none_iff_exists'.mp hfuture
    have hturn := h.awake hawake e he
    rw [hready, haside] at hturn
    exact hturn.elim List.not_mem_nil List.not_mem_nil
  · obtain ⟨x, hx, rfl⟩ := List.mem_map.mp hmem
    exact hstill x (h.processes ▸ hx)

end System.Shows

/-- What brings the session to its end is in charge of that. -/
lemma Process.Serves.inCharge {i : SessionId} {c : ChannelId} {n : Nat} {s : Session} {p : ProcessId} {x : Process}
    (h : x.Serves i c n s p) (owes : x.program.owesClose = true) : x.program.inCharge = true := by
  cases hx : x.program with
  | timeout j elapsed ofSession point =>
    have hplain {point : TimeoutPoint} (hpoint : point.owesClose = true) (hnot : ∀ y next, point ≠ .sending y next) :
        point.inCharge = true := by
      cases point with
      | sending y next => exact absurd rfl (hnot y next)
      | draining => rfl
      | answering rest => rfl
      | closing => rfl
      | _ => cases hpoint
    rw [hx] at owes
    cases point with
    | sending y next =>
      obtain ⟨m, hm, hfollows⟩ := h.resumes j elapsed ofSession y next hx
      cases hfollows with
      | disarming => rfl
      | draining r => rfl
      | answering r rest => rfl
      | _ =>
        have howes : (y.parcel.meaning.any (·.isClose) || false) = true := owes
        rw [hm] at howes
        cases howes
    | _ => exact hplain owes fun y next h => by cases h
  | _ =>
    rw [hx] at owes
    cases owes

namespace Affairs

variable {i : SessionId} {c : ChannelId} {a b : Affairs} {p q : ProcessId} {program next other : Program}
  {put : Option Sent} {kept kept' : Prop}

/-- Somebody is to close the channel. -/
def Owing (a : Affairs) : Prop :=
  ∃ (q : ProcessId) (other : Program), a.programs[q]? = some other ∧ other.owesClose = true

/-- One process at most is to close the channel. -/
lemma Staffed.sole (h : a.Staffed i c) (hp : a.programs[p]? = some program) (hq : a.programs[q]? = some other)
    (owes : program.owesClose = true) (owes' : other.owesClose = true) : p = q := by
  rw [← program?_eq] at hp hq
  obtain ⟨x, hx, rfl⟩ := Option.map_eq_some_iff.mp hp
  obtain ⟨y, hy, rfl⟩ := Option.map_eq_some_iff.mp hq
  exact h.unique p q x y hx hy ((h.serves p x hx).inCharge owes) ((h.serves q y hy).inCharge owes')

/-- How far the end of the session is, and whether those who were to close the channel went on with it. -/
inductive Closing (kept : Prop) (a : Affairs) : Prop
  | early (inTime : a.session.timedOut = none) (nobody : ¬a.Owing) (silent : Sent.close ∉ a.sent) (keeps : kept)
  | owed (late : a.session.timedOut.isSome = true) (somebody : a.Owing) (silent : Sent.close ∉ a.sent) (keeps : kept)
  | settled (late : a.session.timedOut.isSome = true) (nobody : ¬a.Owing) (closed : Sent.close ∈ a.sent) (keeps : kept)
  | dropped (late : a.session.timedOut.isSome = true) (nobody : ¬a.Owing) (silent : Sent.close ∉ a.sent) (fails : ¬kept)

namespace Shift

variable (shift : a.Shift p program next b)

include shift

/-- Who is to close the channel after a shift. -/
lemma owing_iff : b.Owing ↔ next.owesClose = true ∨
    ∃ (q : ProcessId) (other : Program), q ≠ p ∧ a.programs[q]? = some other ∧ other.owesClose = true := by
  constructor
  · rintro ⟨q, other, hq, howes⟩
    rcases shift.before_cases hq with ⟨-, rfl⟩ | ⟨hne, hq⟩ | ⟨k, point, rfl⟩
    · exact .inl howes
    · exact .inr ⟨q, other, hne, hq, howes⟩
    · cases howes
  · rintro (howes | ⟨q, other, hne, hq, howes⟩)
    · exact ⟨p, next, shift.after_self, howes⟩
    · exact ⟨q, other, shift.after_other hne hq, howes⟩

/-- If nobody was to close the channel, and the process is not to either, nobody is. -/
lemma not_owing (nobody : ¬a.Owing) (idle : next.owesClose = false) : ¬b.Owing := by
  rw [shift.owing_iff]
  rintro (howes | ⟨q, other, -, hq, howes⟩)
  · cases idle.symm.trans howes
  · exact nobody ⟨q, other, hq, howes⟩

end Shift

/-- Only with the end of the time does a process come to close the channel. -/
lemma Ages.aside (ages : a.Ages program b next) (idle : program.owesClose = false)
    (time : a.session.timedOut ≠ none ∨ b.session.timedOut = none) : next.owesClose = false := by
  refine Bool.eq_false_iff.mpr fun howes => ?_
  rcases ages.owes howes with h | ⟨early, late⟩
  · cases idle.symm.trans h
  · rcases time with h | h
    · exact h early
    · rw [h] at late
      cases late

namespace Closing

/-- The process that is to close the channel goes on with it, has done it, or gives up. -/
lemma discharge (staffed : a.Staffed i c) (shift : a.Shift p program next b) (sent : b.sent = a.sent ++ put.toList)
    (close : put = some .close → next.owesClose = false) (late : b.session.timedOut.isSome = true)
    (silent : Sent.close ∉ a.sent) (howes : program.owesClose = true) (intact : kept)
    (keeps : kept' ↔ kept ∧ (next.owesClose = true ∨ Sent.close ∈ b.sent)) : Closing kept' b := by
  have hnobody (hn : next.owesClose = false) : ¬b.Owing := by
    rw [shift.owing_iff]
    rintro (h | ⟨q, other, hne, hq, hother⟩)
    · cases hn.symm.trans h
    · exact hne (staffed.sole hq shift.place hother howes)
  by_cases hput : put = some .close
  · have hclosed : Sent.close ∈ b.sent := by
      rw [sent, hput]
      exact List.mem_append_right _ (List.mem_singleton_self _)
    exact .settled late (hnobody (close hput)) hclosed (keeps.mpr ⟨intact, .inr hclosed⟩)
  · have hsilent : Sent.close ∉ b.sent := by
      rw [sent, List.mem_append, Option.mem_toList]
      exact fun h => h.elim silent hput
    cases hn : next.owesClose with
    | true => exact .owed late (shift.owing_iff.mpr (.inl hn)) hsilent (keeps.mpr ⟨intact, .inl hn⟩)
    | false =>
      refine .dropped late (hnobody hn) hsilent fun hkept => ?_
      rcases (keeps.mp hkept).2 with h | h
      · cases hn.symm.trans h
      · exact hsilent h

/-- What a step makes of it, given what the process then puts into the queue. -/
lemma step (h : Closing kept a) (staffed : a.Staffed i c) (shift : a.Shift p program next b)
    (sent : b.sent = a.sent ++ put.toList)
    (close : put = some .close → program.owesClose = true ∧ next.owesClose = false) (ages : a.Ages program b next)
    (keeps : kept' ↔ kept ∧ (program.owesClose = true → next.owesClose = true ∨ Sent.close ∈ b.sent)) :
    Closing kept' b := by
  have hself (hnobody : ¬a.Owing) : program.owesClose = false :=
    Bool.eq_false_iff.mpr fun howes => hnobody ⟨p, program, shift.place, howes⟩
  have hkeep (howes : program.owesClose = false) : kept' ↔ kept := by
    refine keeps.trans ⟨And.left, fun hkept => ⟨hkept, fun hprogram => ?_⟩⟩
    cases howes.symm.trans hprogram
  have hsilent (howes : program.owesClose = false) (silent : Sent.close ∉ a.sent) : Sent.close ∉ b.sent := by
    rw [sent, List.mem_append, Option.mem_toList]
    rintro (h | h)
    · exact silent h
    · cases howes.symm.trans (close h).1
  have hlate (late : a.session.timedOut.isSome = true) : b.session.timedOut.isSome = true := by
    obtain ⟨elapsed, he⟩ := Option.isSome_iff_exists.mp late
    rw [ages.late elapsed he]
    rfl
  cases h with
  | early inTime nobody silent kept =>
    have howes := hself nobody
    cases htime : b.session.timedOut with
    | none =>
      exact .early htime (shift.not_owing nobody (ages.aside howes (.inr htime))) (hsilent howes silent)
        ((hkeep howes).mpr kept)
    | some elapsed =>
      refine .owed (by rw [htime]; rfl) ?_ (hsilent howes silent) ((hkeep howes).mpr kept)
      exact shift.owing_iff.mpr (.inl (ages.expires inTime (by rw [htime]; rfl)))
  | owed late somebody silent kept =>
    obtain ⟨q, other, hq, howes⟩ := somebody
    by_cases hp : q = p
    · subst hp
      cases shift.place.symm.trans hq
      refine discharge staffed shift sent (fun hput => (close hput).2) (hlate late) silent howes kept ?_
      rw [keeps, forall_prop_of_true howes]
    · have hidle : program.owesClose = false :=
        Bool.eq_false_iff.mpr fun hprogram => hp (staffed.sole hq shift.place howes hprogram)
      exact .owed (hlate late) (shift.owing_iff.mpr (.inr ⟨q, other, hp, hq, howes⟩)) (hsilent hidle silent)
        ((hkeep hidle).mpr kept)
  | settled late nobody closed kept =>
    have howes := hself nobody
    have hidle := ages.aside howes (.inl (Option.isSome_iff_ne_none.mp late))
    refine .settled (hlate late) (shift.not_owing nobody hidle) ?_ ((hkeep howes).mpr kept)
    rw [sent]
    exact List.mem_append_left _ closed
  | dropped late nobody silent fails =>
    have howes := hself nobody
    have hidle := ages.aside howes (.inl (Option.isSome_iff_ne_none.mp late))
    exact .dropped (hlate late) (shift.not_owing nobody hidle) (hsilent howes silent) fun hkept =>
      fails ((hkeep howes).mp hkept)

/-- What is done from outside does not matter to it. -/
lemma congr (h : Closing kept a) (timedOut : b.session.timedOut = a.session.timedOut) (sent : b.sent = a.sent)
    (owing : b.Owing ↔ a.Owing) : Closing kept b := by
  cases h with
  | early inTime nobody silent kept =>
    exact .early (timedOut.trans inTime) (fun h => nobody (owing.mp h)) (sent ▸ silent) kept
  | owed late somebody silent kept => exact .owed (timedOut ▸ late) (owing.mpr somebody) (sent ▸ silent) kept
  | settled late nobody closed kept =>
    exact .settled (timedOut ▸ late) (fun h => nobody (owing.mp h)) (sent ▸ closed) kept
  | dropped late nobody silent fails =>
    exact .dropped (timedOut ▸ late) (fun h => nobody (owing.mp h)) (sent ▸ silent) fails

end Closing

end Affairs

end GraphServer
