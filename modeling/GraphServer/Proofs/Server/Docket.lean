import GraphServer.Proofs.Server.Conduct
import GraphServer.Proofs.Server.Orderly

/-!
Books about the last responses: who set out to send which, which were put into a queue, and which were given up.

* `Docket.enter`: a step is entered by what it changed, not by what the server keeps of it. Whether a context is
  marked as answered is the server's own account;
* `Docket.Balanced`: the two accounts agree, but for the last responses that were given up;
* `Docket.Balanced.enter`: **a step that is entered keeps them so**.
-/

namespace GraphServer

/-- Whether it is a last response to a request. -/
def Sent.answersTo (u : Uuid) (m : Sent) : Bool :=
  m.answer?.any (·.request == some u)

namespace System

/-- Whether a context is marked as answered. -/
def isConcluded (s : System) (k : ContextId) : Bool :=
  s.contexts[k]?.any (·.finished)

end System

lemma Sent.eq_response_of_answer? {m : Sent} {r : Response} (h : m.answer? = some r) :
    m = .response r ∧ r.concludes = true := by
  cases m with
  | close => cases h
  | response r' =>
    rw [answer?] at h
    split at h
    next concludes =>
      cases h
      exact ⟨rfl, concludes⟩
    next => cases h

lemma Program.answer?_of_isFinished {P : Program} (ended : P.isFinished = true) : P.answer? = none := by
  cases P with
  | finished result => rfl
  | _ => cases ended

lemma Program.answer?_of_handover {P : Program} {h : Handover} (waits : P.handover? = some h) :
    P.answer? = h.parcel.meaning.bind Sent.answer? := by
  rw [answer?, waits, Option.bind_some]

/-! ### Entries -/

namespace Step

/-- The context that is marked as answered in the step. -/
def concluded? (x : Step) : Option ContextId :=
  (List.range x.after.contexts.length).find? fun k => !x.before.isConcluded k && x.after.isConcluded k

/-- What is put into the queue of a channel in the step. -/
def put (x : Step) (c : ChannelId) : List Sent :=
  (x.after.sentOver c).drop (x.before.sentOver c).length

/-- The number of last responses to the request of a context that are put into the queue of its channel. -/
def handed (x : Step) (k : ContextId) : Nat :=
  match x.after.contexts[k]? with
  | some { request, channel := some c, .. } => (x.put c).countP (·.answersTo request)
  | _ => 0

/-- Whether the process had a last response for a context to send and neither did so nor waits with it any more. -/
def gaveUp (x : Step) (k : ContextId) : Bool :=
  (x.program.answer?.isSome || x.concluded?.isSome) && x.handed k == 0 && x.next.answer?.isNone

/-- Whether a process that has to do with contexts puts a last response into a queue that is none to the request of
the context into the queue of its channel. -/
def strays (x : Step) (k : Option ContextId) : Bool :=
  !x.program.isApart && (List.range x.after.channels.length).any fun c => (x.put c).any fun m =>
    m.answer?.isSome && !(k.bind (x.after.contexts[·]?)).any fun y => y.channel == some c && m.answersTo y.request

end Step

/-- The books about the last responses. -/
structure Docket where
  /-- The context for which a process last set out to send a last response. -/
  errand : ProcessId → Option ContextId := fun _ => none
  /-- How many last responses for a context were put into the queue of its channel. -/
  handed : ContextId → Nat := fun _ => 0
  /-- How many were given up, because their sender was refused or stopped. -/
  lost : ContextId → Nat := fun _ => 0
  /-- Whether one was ever put into a queue for no context. -/
  strayed : Bool := false

namespace Docket

/-- Enters that a process set out to send the last response for a context, and how many were put and given up. -/
def note (d : Docket) (p : ProcessId) (k : ContextId) (handed lost : Nat) : Docket where
  errand q := if q = p then some k else d.errand q
  handed j := if j = k then d.handed k + handed else d.handed j
  lost j := if j = k then d.lost k + lost else d.lost j
  strayed := d.strayed

/-- Enters whether a last response was put into a queue for no context. -/
def stray (d : Docket) (strays : Bool) : Docket :=
  { d with strayed := d.strayed || strays }

/-- Enters a step of a process. -/
def enter (d : Docket) (p : ProcessId) (x : Step) : Docket :=
  match x.concluded?.or (d.errand p) with
  | none => d.stray (x.strays none)
  | some k => (d.note p k (x.handed k) (x.gaveUp k).toNat).stray (x.strays (some k))

/-- Whether a process waits with the last response for a context. -/
def isSending (d : Docket) (s : System) (k : ContextId) : Bool :=
  s.processes.zipIdx.any fun (x, p) => d.errand p == some k && x.program.answer?.isSome

variable {d : Docket} {s s' s'' : System} {p : ProcessId} {P N : Program} {k : ContextId} {x : Step}

lemma isSending_iff : d.isSending s k = true ↔
    ∃ p P, d.errand p = some k ∧ s.program? p = some P ∧ P.answer?.isSome = true := by
  rw [isSending, List.any_eq_true]
  constructor
  · rintro ⟨⟨y, p⟩, hmem, hy⟩
    obtain ⟨herrand, hanswer⟩ := Bool.and_eq_true_iff.mp hy
    refine ⟨p, y.program, eq_of_beq herrand, ?_, hanswer⟩
    rw [System.program?, List.mem_zipIdx_iff_getElem?.mp hmem]
    rfl
  · rintro ⟨p, P, herrand, hP, hanswer⟩
    rw [System.program?, Option.map_eq_some_iff] at hP
    obtain ⟨y, hy, rfl⟩ := hP
    refine ⟨(y, p), List.mem_zipIdx_iff_getElem?.mpr hy, Bool.and_eq_true_iff.mpr ⟨?_, hanswer⟩⟩
    exact beq_iff_eq.mpr herrand

/-! ### Balance -/

/-- The books agree with the server: a context is marked as answered as soon as a process sets out to send its last
response, one process sets out for each, and the response is in its hands, in the queue, or given up. -/
structure Balanced (d : Docket) (s : System) : Prop where
  accounted : d.strayed = false
  plain : ∀ p P, s.program? p = some P → P.isPlain = true
  attends : ∀ p k, d.errand p = some k → ∃ P, s.program? p = some P ∧ P.isApart = false
  marked : ∀ p k, d.errand p = some k → s.isConcluded k = true
  alone : ∀ p q k, d.errand p = some k → d.errand q = some k → p = q
  waits : ∀ p P h r, s.program? p = some P → P.isApart = false → P.handover? = some h →
    h.parcel.meaning.bind Sent.answer? = some r →
    ∃ k y, d.errand p = some k ∧ s.contexts[k]? = some y ∧ y.channel = some h.channel ∧ r.request = some y.request
  unmarked : ∀ k, s.isConcluded k = false → d.handed k = 0 ∧ d.lost k = 0
  settled : ∀ k y c, s.contexts[k]? = some y → y.finished = true → y.channel = some c →
    d.handed k + d.lost k + (d.isSending s k).toNat = 1

lemma isConcluded_of_adds (adds : s.Adds s') (k : ContextId) : s'.isConcluded k = s.isConcluded k := by
  rw [System.isConcluded, System.isConcluded]
  cases known : s'.contexts[k]? with
  | none =>
    cases known' : s.contexts[k]? with
    | none => rfl
    | some y => cases known.symm.trans (adds.context? known')
  | some y =>
    obtain known' | ⟨known', unfinished⟩ := adds.context?_before known
    · rw [known']
    · rw [known', Option.any_some, unfinished]
      rfl

lemma isConcluded_conclude (s : System) (k j : ContextId) (known : s.contexts[k]?.isSome = true) :
    (s.conclude k).isConcluded j = (decide (j = k) || s.isConcluded j) := by
  rw [System.isConcluded, System.isConcluded, System.conclude, System.onContext, List.getElem?_modify]
  by_cases hj : j = k
  · subst hj
    obtain ⟨y, hy⟩ := Option.isSome_iff_exists.mp known
    simp [hy]
  · simp [hj, Ne.symm hj]

namespace Balanced

/-- What is only added makes no difference to the books. -/
lemma of_adds (h : d.Balanced s) (adds : s.Adds s') : d.Balanced s' := by
  have sending (k : ContextId) : d.isSending s' k = d.isSending s k := by
    rw [Bool.eq_iff_iff, isSending_iff, isSending_iff]
    constructor
    · rintro ⟨p, P, herrand, hP, hanswer⟩
      obtain ⟨Q, hQ, -⟩ := h.attends p k herrand
      obtain rfl := Option.some.inj ((adds.programs p Q hQ).symm.trans hP)
      exact ⟨p, Q, herrand, hQ, hanswer⟩
    · rintro ⟨p, P, herrand, hP, hanswer⟩
      exact ⟨p, P, herrand, adds.programs p P hP, hanswer⟩
  constructor
  case accounted => exact h.accounted
  case plain => exact fun p _ => System.isPlain_of_adds adds (h.plain p)
  case attends =>
    intro p k herrand
    obtain ⟨P, hP, hattends⟩ := h.attends p k herrand
    exact ⟨P, adds.programs p P hP, hattends⟩
  case marked =>
    intro p k herrand
    rw [isConcluded_of_adds adds]
    exact h.marked p k herrand
  case alone => exact h.alone
  case waits =>
    intro p P x r hP hattends hx hr
    cases hp : s.program? p with
    | none => cases (adds.idle p P hp hP).symm.trans hx
    | some Q =>
      obtain rfl := Option.some.inj ((adds.programs p Q hp).symm.trans hP)
      obtain ⟨k, y, herrand, known, hy⟩ := h.waits p Q x r hp hattends hx hr
      exact ⟨k, y, herrand, adds.context? known, hy⟩
  case unmarked =>
    intro k hk
    rw [isConcluded_of_adds adds] at hk
    exact h.unmarked k hk
  case settled =>
    intro k y c known finished channel
    rw [sending]
    obtain known | ⟨-, unfinished⟩ := adds.context?_before known
    · exact h.settled k y c known finished channel
    · cases finished.symm.trans unfinished

lemma program?_setProgram (hP : s.program? p = some P) (programs : ∀ q, s'.program? q = s.program? q) (q : ProcessId) :
    (s'.setProgram p N).program? q = if p = q then some N else s.program? q := by
  rw [System.program?_setProgram, programs]
  split
  next hq => rw [← hq, hP, Option.map_some]
  next => rfl

/-- A process goes on that neither waited with a last response nor waits with one afterwards. -/
lemma passes (h : d.Balanced s) (hP : s.program? p = some P) (plain : N.isPlain = true)
    (kin : P.isApart = false → N.isApart = false) (before : P.isApart = true ∨ P.answer? = none)
    (after : N.isApart = true ∨ N.answer? = none) : d.Balanced (s.setProgram p N) := by
  have program (q : ProcessId) := program?_setProgram (N := N) hP (fun _ => rfl) q
  have sending (k : ContextId) : d.isSending (s.setProgram p N) k = d.isSending s k := by
    rw [Bool.eq_iff_iff, isSending_iff, isSending_iff]
    refine exists_congr fun q => ?_
    by_cases hq : p = q
    · subst hq
      simp only [program, if_pos, hP, Option.some.injEq, exists_eq_left', exists_and_left]
      refine and_congr_right fun herrand => ?_
      -- the process has to do with contexts
      obtain ⟨Q, hQ, hattends⟩ := h.attends p k herrand
      obtain rfl := Option.some.inj (hP.symm.trans hQ)
      rw [before.resolve_left (by rw [hattends]; exact Bool.false_ne_true),
        after.resolve_left (by rw [kin hattends]; exact Bool.false_ne_true)]
    · simp only [program, if_neg hq]
  constructor
  case accounted => exact h.accounted
  case plain =>
    intro q Q hQ
    rw [program] at hQ
    split at hQ
    · cases hQ
      exact plain
    · exact h.plain q Q hQ
  case attends =>
    intro q k herrand
    obtain ⟨Q, hQ, hattends⟩ := h.attends q k herrand
    rw [program]
    split
    next hq =>
      subst hq
      obtain rfl := Option.some.inj (hP.symm.trans hQ)
      exact ⟨N, rfl, kin hattends⟩
    next => exact ⟨Q, hQ, hattends⟩
  case marked => exact h.marked
  case alone => exact h.alone
  case waits =>
    intro q Q x r hQ hattends hx hr
    rw [program] at hQ
    split at hQ
    · cases hQ
      have hnone := after.resolve_left (by rw [hattends]; exact Bool.false_ne_true)
      rw [Program.answer?_of_handover hx, hr] at hnone
      cases hnone
    · exact h.waits q Q x r hQ hattends hx hr
  case unmarked => exact h.unmarked
  case settled =>
    intro k y c known finished channel
    rw [sending]
    exact h.settled k y c known finished channel

section Entered

variable {handed lost : Nat}

/-- After an entry for a context the process has set out for it, and the others for the others. -/
lemma errand_note (own : ∀ q, d.errand q = some k → q = p) {q : ProcessId} {j : ContextId}
    (hq : (d.note p k handed lost).errand q = some j) : q = p ∧ j = k ∨ q ≠ p ∧ j ≠ k ∧ d.errand q = some j := by
  change (if q = p then some k else d.errand q) = some j at hq
  split at hq
  next hqp => exact .inl ⟨hqp, (Option.some.inj hq).symm⟩
  next hqp => exact .inr ⟨hqp, fun hj => hqp (own q (hj ▸ hq)), hq⟩

/-- After an entry for a context its last response is in the hands of the process, or of nobody. -/
lemma isSending_note (hP : s.program? p = some P)
    (program : ∀ q, s'.program? q = if p = q then some N else s.program? q) (own : ∀ q, d.errand q = some k → q = p)
    (last : P.answer?.isSome = true → d.errand p = some k) (j : ContextId) :
    (d.note p k handed lost).isSending s' j = if j = k then N.answer?.isSome else d.isSending s j := by
  by_cases hj : j = k
  · subst hj
    rw [if_pos rfl, Bool.eq_iff_iff, isSending_iff]
    constructor
    · rintro ⟨q, Q, hq, hQ, hanswer⟩
      obtain ⟨rfl, -⟩ | ⟨-, hne, -⟩ := errand_note own hq
      · rw [program, if_pos rfl] at hQ
        cases hQ
        exact hanswer
      · exact absurd rfl hne
    · exact fun hanswer => ⟨p, N, if_pos rfl, (program p).trans (if_pos rfl), hanswer⟩
  · rw [if_neg hj, Bool.eq_iff_iff, isSending_iff, isSending_iff]
    constructor
    · rintro ⟨q, Q, hq, hQ, hanswer⟩
      obtain ⟨-, heq⟩ | ⟨hqp, -, hq⟩ := errand_note own hq
      · exact absurd heq hj
      · rw [program, if_neg (Ne.symm hqp)] at hQ
        exact ⟨q, Q, hq, hQ, hanswer⟩
    · rintro ⟨q, Q, hq, hQ, hanswer⟩
      have hqp : q ≠ p := by
        rintro rfl
        obtain rfl := Option.some.inj (hP.symm.trans hQ)
        exact hj (Option.some.inj (hq.symm.trans (last hanswer)))
      exact ⟨q, Q, (if_neg hqp).trans hq, (program q).trans ((if_neg (Ne.symm hqp)).trans hQ), hanswer⟩

/-- A process sets out to send a last response, or goes on with it. -/
lemma entered (h : d.Balanced s) (hP : s.program? p = some P) (attends : N.isApart = false) (plain : N.isPlain = true)
    {y : TaskContext} (programs : ∀ q, s'.program? q = s.program? q) (contexts : s'.contexts = (s.conclude k).contexts)
    (known : s.contexts[k]? = some y) (own : ∀ q, d.errand q = some k → q = p)
    (last : P.answer?.isSome = true → d.errand p = some k)
    (waits : ∀ x r, N.handover? = some x → x.parcel.meaning.bind Sent.answer? = some r →
      y.channel = some x.channel ∧ r.request = some y.request)
    (sum : ∀ c, y.channel = some c → handed + lost + N.answer?.isSome.toNat = 1)
    (clear : ∀ c, y.channel = some c → d.handed k = 0 ∧ d.lost k = 0) :
    (d.note p k handed lost).Balanced (s'.setProgram p N) := by
  have program (q : ProcessId) := program?_setProgram (N := N) hP programs q
  have concluded (j : ContextId) : (s'.setProgram p N).isConcluded j = (decide (j = k) || s.isConcluded j) := by
    rw [← isConcluded_conclude s k j (by rw [known]; rfl), System.isConcluded, System.isConcluded, ← contexts]
    rfl
  have context (j : ContextId) : (s'.setProgram p N).contexts[j]? =
      s.contexts[j]?.map fun z => if k = j then { z with finished := true } else z := by
    change s'.contexts[j]? = _
    rw [contexts, System.conclude, System.onContext, List.getElem?_modify]
    rfl
  constructor
  case accounted => exact h.accounted
  case plain =>
    intro q Q hQ
    rw [program] at hQ
    split at hQ
    · cases hQ
      exact plain
    · exact h.plain q Q hQ
  case attends =>
    intro q j hq
    rw [program]
    obtain ⟨rfl, -⟩ | ⟨hqp, -, hq⟩ := errand_note own hq
    · exact ⟨N, if_pos rfl, attends⟩
    · rw [if_neg (Ne.symm hqp)]
      exact h.attends q j hq
  case marked =>
    intro q j hq
    rw [concluded]
    obtain ⟨-, rfl⟩ | ⟨-, -, hq⟩ := errand_note own hq
    · rw [decide_eq_true rfl, Bool.true_or]
    · rw [h.marked q j hq, Bool.or_true]
  case alone =>
    intro q q' j hq hq'
    obtain ⟨rfl, rfl⟩ | ⟨-, hj, hq⟩ := errand_note own hq <;> obtain ⟨rfl, hj'⟩ | ⟨-, hj', hq'⟩ := errand_note own hq'
    · rfl
    · exact absurd rfl hj'
    · exact absurd hj' hj
    · exact h.alone q q' j hq hq'
  case waits =>
    intro q Q x r hQ hattends hx hr
    rw [program] at hQ
    split at hQ
    next hq =>
      subst hq
      cases hQ
      obtain ⟨hchannel, hrequest⟩ := waits x r hx hr
      refine ⟨k, { y with finished := true }, if_pos rfl, ?_, hchannel, hrequest⟩
      rw [context, known, Option.map_some, if_pos rfl]
    next hq =>
      obtain ⟨j, z, herrand, hz, hchannel, hrequest⟩ := h.waits q Q x r hQ hattends hx hr
      have hj : k ≠ j := fun hj => hq (own q (hj ▸ herrand)).symm
      refine ⟨j, z, ?_, ?_, hchannel, hrequest⟩
      · exact (if_neg (Ne.symm hq)).trans herrand
      · rw [context, hz, Option.map_some, if_neg hj]
  case unmarked =>
    intro j hj
    rw [concluded, Bool.or_eq_false_iff, decide_eq_false_iff_not] at hj
    obtain ⟨hhanded, hlost⟩ := h.unmarked j hj.2
    exact ⟨(if_neg hj.1).trans hhanded, (if_neg hj.1).trans hlost⟩
  case settled =>
    intro j z c hz finished channel
    rw [context, Option.map_eq_some_iff] at hz
    obtain ⟨z, hz, rfl⟩ := hz
    rw [isSending_note hP program own last]
    change (if j = k then _ else _) + (if j = k then _ else _) + _ = 1
    by_cases hj : j = k
    · subst hj
      cases known.symm.trans hz
      rw [if_pos rfl] at channel
      have hsum := sum c channel
      obtain ⟨hhanded, hlost⟩ := clear c channel
      rw [if_pos rfl, if_pos rfl, if_pos rfl, hhanded, hlost]
      omega
    · rw [if_neg (Ne.symm hj)] at finished channel
      rw [if_neg hj, if_neg hj, if_neg hj]
      exact h.settled j z c hz finished channel

end Entered

end Balanced

/-! ### Entering a step -/

section Enter

variable {y : TaskContext} {c : ChannelId}

/-- In a step that marks no context none is entered as concluded. -/
lemma concluded?_eq_none (same : ∀ k, x.after.isConcluded k = x.before.isConcluded k) : x.concluded? = none := by
  refine List.find?_eq_none.mpr fun k _ => ?_
  rw [same, Bool.not_and_self]
  exact Bool.false_ne_true

/-- In a step that marks one context that one is entered as concluded. -/
lemma concluded?_eq_some (before : x.before.isConcluded k = false) (after : x.after.isConcluded k = true)
    (others : ∀ j, j ≠ k → x.after.isConcluded j = x.before.isConcluded j) : x.concluded? = some k := by
  have hk : k < x.after.contexts.length := by
    rw [System.isConcluded, Option.any_eq_true] at after
    obtain ⟨z, hz, -⟩ := after
    exact (List.getElem?_eq_some_iff.mp hz).1
  have hmarked : (!x.before.isConcluded k && x.after.isConcluded k) = true := by rw [before, after]; rfl
  cases hfind : x.concluded? with
  | none => exact absurd hmarked (List.find?_eq_none.mp hfind k (List.mem_range.mpr hk))
  | some j =>
    by_contra hj
    have hj := List.find?_some hfind
    rw [others j fun h => ‹¬_› (congrArg some h), Bool.not_and_self] at hj
    cases hj

lemma isConcluded_eq_false (known : s.contexts[k]? = some y) (unfinished : y.finished = false) :
    s.isConcluded k = false := by
  rw [System.isConcluded, known, Option.any_some, unfinished]

lemma concluded?_conclude (adds : s.Adds s') (known : s'.contexts[k]? = some y) (unfinished : y.finished = false)
    (before : x.before = s) (after : x.after.contexts = (s'.conclude k).contexts) : x.concluded? = some k := by
  have marks (j : ContextId) : x.after.isConcluded j = (decide (j = k) || s'.isConcluded j) := by
    rw [← isConcluded_conclude s' k j (by rw [known]; rfl), System.isConcluded, System.isConcluded, after]
  refine concluded?_eq_some ?_ ?_ fun j hj => ?_
  · rw [before, ← isConcluded_of_adds adds, isConcluded_eq_false known unfinished]
  · rw [marks, decide_eq_true rfl, Bool.true_or]
  · rw [marks, decide_eq_false hj, Bool.false_or, isConcluded_of_adds adds, before]

/-- What a step puts into a queue. -/
lemma put_eq {ms : List Sent} (sent : x.after.sentOver c = x.before.sentOver c ++ ms) : x.put c = ms := by
  rw [Step.put, sent, List.drop_left]

lemma handed_eq {ms : List Sent} (known : x.after.contexts[k]? = some y) (channel : y.channel = some c)
    (sent : x.after.sentOver c = x.before.sentOver c ++ ms) : x.handed k = ms.countP (·.answersTo y.request) := by
  obtain ⟨request, _, finished⟩ := y
  cases channel
  rw [Step.handed, known]
  dsimp only
  rw [put_eq sent]

/-- Nothing is put into a queue but what is sent over its channel. -/
lemma mem_put_of_fate {m : Option Sent} (fate : s.Fate c m s' N) (before : ∀ c, x.before.sentOver c = s.sentOver c)
    (after : ∀ c, x.after.sentOver c = s'.sentOver c) {c' : ChannelId} {n : Sent} (hn : n ∈ x.put c') :
    c' = c ∧ m = some n := by
  have nothing (mute : s.Mute s') : n ∉ x.put c' := by
    have sent : x.after.sentOver c' = x.before.sentOver c' ++ [] := by rw [after, before, mute.sent, List.append_nil]
    rw [put_eq sent]
    exact List.not_mem_nil
  cases fate with
  | put _ sent _ =>
    rw [put_eq (by rw [after, before, sent])] at hn
    split at hn
    next hc => exact ⟨hc, Option.mem_toList.mp hn⟩
    next => cases hn
  | held mute | lost mute => exact absurd hn (nothing mute)

/-- Nothing counts as handed if no last response is put into any queue. -/
lemma handed_eq_zero (dull : ∀ c, ∃ ms, x.after.sentOver c = x.before.sentOver c ++ ms ∧ ∀ m ∈ ms, m.answer? = none)
    (k : ContextId) : x.handed k = 0 := by
  cases known : x.after.contexts[k]? with
  | none => rw [Step.handed, known]
  | some y =>
    cases channel : y.channel with
    | none =>
      obtain ⟨request, _, finished⟩ := y
      cases channel
      rw [Step.handed, known]
    | some c =>
      obtain ⟨ms, sent, hms⟩ := dull c
      rw [handed_eq known channel sent]
      refine List.countP_eq_zero.mpr fun m hm => ?_
      rw [Sent.answersTo, hms m hm]
      exact Bool.false_ne_true

lemma stray_false (d : Docket) : d.stray false = d := by
  rw [stray, Bool.or_false]

/-- A step strays nowhere if all last responses in it are put into the queue of the channel of one context. -/
lemma strays_eq_false {j : Option ContextId}
    (own : ∀ c m, m ∈ x.put c → m.answer?.isSome = true →
      ∃ y, j.bind (x.after.contexts[·]?) = some y ∧ y.channel = some c ∧ m.answersTo y.request = true) :
    x.strays j = false := by
  refine Bool.eq_false_iff.mpr fun strays => ?_
  obtain ⟨-, strays⟩ := Bool.and_eq_true_iff.mp strays
  obtain ⟨c, -, strays⟩ := List.any_eq_true.mp strays
  obtain ⟨m, hm, strays⟩ := List.any_eq_true.mp strays
  obtain ⟨answers, strays⟩ := Bool.and_eq_true_iff.mp strays
  obtain ⟨y, hy, channel, request⟩ := own c m hm answers
  rw [hy, Option.any_some, channel, request, beq_self_eq_true] at strays
  cases strays

lemma strays_of_isApart (apart : x.program.isApart = true) (j : Option ContextId) : x.strays j = false := by
  rw [Step.strays, apart]
  rfl

/-- A step strays nowhere if no last response is put into any queue. -/
lemma strays_of_dull (dull : ∀ c, ∃ ms, x.after.sentOver c = x.before.sentOver c ++ ms ∧ ∀ m ∈ ms, m.answer? = none)
    (j : Option ContextId) : x.strays j = false := by
  refine strays_eq_false fun c m hm answers => ?_
  obtain ⟨ms, sent, hms⟩ := dull c
  rw [put_eq sent] at hm
  rw [hms m hm] at answers
  cases answers

lemma enter_of_concluded?_or (mine : x.concluded?.or (d.errand p) = some k) (accounted : x.strays (some k) = false) :
    d.enter p x = d.note p k (x.handed k) (x.gaveUp k).toNat := by
  rw [enter, mine]
  dsimp only
  rw [accounted, stray_false]

lemma enter_eq_self (concluded : x.concluded? = none) (accounted : ∀ j, x.strays j = false)
    (nothing : ∀ k, d.errand p = some k → x.handed k = 0 ∧ x.gaveUp k = false) : d.enter p x = d := by
  cases herrand : d.errand p with
  | none =>
    rw [enter, concluded, herrand, Option.none_or]
    dsimp only
    rw [accounted, stray_false]
  | some k =>
    obtain ⟨hhanded, hgaveUp⟩ := nothing k herrand
    rw [enter_of_concluded?_or (by rw [concluded, herrand, Option.none_or]) (accounted _), hhanded, hgaveUp]
    obtain ⟨errand, handed, lost, strayed⟩ := d
    refine congrFun (congr (congrArg₂ mk ?_ ?_) ?_) strayed <;> funext q
    · change (if q = p then some k else errand q) = errand q
      split
      next hq => rw [hq, ← herrand]
      next => rfl
    · change (if q = k then handed k + 0 else handed q) = handed q
      split
      next hq => rw [hq, Nat.add_zero]
      next => rfl
    · change (if q = k then lost k + 0 else lost q) = lost q
      split
      next hq => rw [hq, Nat.add_zero]
      next => rfl

end Enter

namespace Balanced

variable {s₁ : System} {y : TaskContext} {c : ChannelId}

/-- The step of a process from `P` that leaves the contexts and the queues as they are in `s'`. -/
structure Takes (s : System) (P : Program) (s' : System) (x : Step) : Prop where
  before : x.before = s
  program : x.program = P
  contexts : x.after.contexts = s'.contexts
  sent : ∀ c, x.after.sentOver c = s'.sentOver c

/-- In a step that only adds to what there is no context is marked. -/
lemma Takes.concluded? (takes : Takes s P s' x) (adds : s.Adds s') : x.concluded? = none :=
  concluded?_eq_none fun k => by
    rw [takes.before, ← isConcluded_of_adds adds, System.isConcluded, takes.contexts, System.isConcluded]

/-- A step in which nobody is answered. -/
lemma enter_dull (h : d.Balanced s) (hP : s.program? p = some P) (takes : Takes s P s' x) (adds : s.Adds s')
    (plain : x.next.isPlain = true) (kin : P.isApart = false → x.next.isApart = false) (before : P.answer? = none)
    (after : x.next.answer? = none)
    (dull : ∀ c, ∃ ms, s'.sentOver c = s.sentOver c ++ ms ∧ ∀ m ∈ ms, m.answer? = none) :
    (d.enter p x).Balanced (s'.setProgram p x.next) := by
  have concluded := takes.concluded? adds
  have dull (c : ChannelId) : ∃ ms, x.after.sentOver c = x.before.sentOver c ++ ms ∧ ∀ m ∈ ms, m.answer? = none := by
    rw [takes.sent, takes.before]
    exact dull c
  have same : d.enter p x = d := by
    refine enter_eq_self concluded (strays_of_dull dull) fun k _ => ⟨handed_eq_zero dull k, ?_⟩
    rw [Step.gaveUp, takes.program, before, concluded]
    rfl
  rw [same]
  exact (h.of_adds adds).passes (adds.programs p P hP) plain kin (.inr before) (.inr after)

/-- A step in which a last response is sent off or sent on. -/
lemma enter_answer (h : d.Balanced s) (hP : s.program? p = some P) (attends : x.next.isApart = false)
    (plain : x.next.isPlain = true) (known : s.contexts[k]? = some y) (channel : y.channel = some c) {r : Response}
    (request : r.request = some y.request) (concluding : r.concludes = true)
    (fate : (s.conclude k).Fate c (some (.response r)) s' x.next) (own : ∀ q, d.errand q = some k → q = p)
    (last : P.answer?.isSome = true → d.errand p = some k) (clear : d.handed k = 0 ∧ d.lost k = 0)
    (mine : x.concluded?.or (d.errand p) = some k) (inHand : (x.program.answer?.isSome || x.concluded?.isSome) = true)
    (contexts : x.after.contexts = s'.contexts) (before : ∀ c, x.before.sentOver c = s.sentOver c)
    (after : ∀ c, x.after.sentOver c = s'.sentOver c) : (d.enter p x).Balanced (s'.setProgram p x.next) := by
  have quiet := fate.quiet
  have known' : x.after.contexts[k]? = some { y with finished := true } := by
    rw [contexts, quiet.contexts, System.conclude, System.onContext, List.getElem?_modify_eq, known]
    rfl
  have handed {ms : List Sent} (sent : s'.sentOver c = (s.conclude k).sentOver c ++ ms) :
      x.handed k = ms.countP (·.answersTo y.request) :=
    handed_eq (y := { y with finished := true }) known' channel (by rw [after, before, sent]; rfl)
  have gaveUp : x.gaveUp k = (x.handed k == 0 && x.next.answer?.isNone) := by
    rw [Step.gaveUp, inHand, Bool.true_and]
  have answer : Sent.answer? (.response r) = some r := if_pos concluding
  have accounted : x.strays (some k) = false := by
    refine strays_eq_false fun c' m hm _ => ?_
    obtain ⟨rfl, hm⟩ := mem_put_of_fate fate before after hm
    cases hm
    exact ⟨_, known', channel, by rw [Sent.answersTo, answer, Option.any_some, request, beq_self_eq_true]⟩
  rw [enter_of_concluded?_or mine accounted]
  refine h.entered hP attends plain quiet.program? quiet.contexts known own last ?_ ?_ fun _ _ => clear
  · intro z r' hz hr'
    cases fate with
    | put quiet sent over_ => cases over_.symm.trans hz
    | lost mute over_ => cases over_.symm.trans hz
    | held mute waits hchannel meaning =>
      cases waits.symm.trans hz
      rw [meaning, Option.bind_some, answer] at hr'
      cases hr'
      exact ⟨hchannel ▸ channel, request⟩
  · intro _ _
    rw [gaveUp]
    cases fate with
    | put quiet sent over_ =>
      have one : x.handed k = 1 := by
        rw [handed (sent c), if_pos rfl, Option.toList_some, List.countP_singleton, Sent.answersTo, answer,
          Option.any_some, request, beq_self_eq_true, if_pos rfl]
      have none_ : x.next.answer? = none := by rw [Program.answer?, over_]; rfl
      rw [one, none_]
      rfl
    | held mute waits hchannel meaning =>
      have zero : x.handed k = 0 := handed ((mute.sent c).trans (List.append_nil _).symm)
      have some_ : x.next.answer? = some r := by
        rw [Program.answer?_of_handover waits, meaning, Option.bind_some, answer]
      rw [zero, some_]
      rfl
    | lost mute over_ =>
      have zero : x.handed k = 0 := handed ((mute.sent c).trans (List.append_nil _).symm)
      have none_ : x.next.answer? = none := by rw [Program.answer?, over_]; rfl
      rw [zero, none_]
      rfl

/-- What is sent that is no last response. -/
lemma dull_of_fate {m : Option Sent} (fate : s.Fate c m s' N) (dull : m.bind Sent.answer? = none) :
    s.Adds s' ∧ N.answer? = none ∧ ∀ c', ∃ ms, s'.sentOver c' = s.sentOver c' ++ ms ∧ ∀ m ∈ ms, m.answer? = none := by
  have over_ (h : N.handover? = none) : N.answer? = none := by rw [Program.answer?, h]; rfl
  have none_ (mute : s.Mute s') (c' : ChannelId) :
      ∃ ms, s'.sentOver c' = s.sentOver c' ++ ms ∧ ∀ m ∈ ms, m.answer? = none :=
    ⟨[], (mute.sent c').trans (List.append_nil _).symm, fun _ hm => absurd hm List.not_mem_nil⟩
  cases fate with
  | put quiet sent h =>
    refine ⟨.of_quiet quiet, over_ h, fun c' => ⟨_, sent c', fun m' hm => ?_⟩⟩
    split at hm
    · obtain rfl := Option.mem_toList.mp hm
      exact dull
    · cases hm
  | held mute waits _ meaning =>
    exact ⟨.of_quiet mute.toQuiet, by rw [Program.answer?_of_handover waits, meaning, dull], none_ mute⟩
  | lost mute h => exact ⟨.of_quiet mute.toQuiet, over_ h, none_ mute⟩

lemma conclude_eq_self (known : s.contexts[k]? = some y) (finished : y.finished = true) : s.conclude k = s := by
  have hsame : s.contexts.modify k (fun x => { x with finished := true }) = s.contexts := by
    refine List.ext_getElem? fun j => ?_
    rw [List.getElem?_modify]
    by_cases hj : k = j
    · subst hj
      rw [known, Option.map_eq_map, Option.map_some, if_pos rfl, ← finished]
    · simp [hj]
  rw [System.conclude, System.onContext, hsame]

/-- A process that has nothing to do with contexts answers for none. -/
lemma enter_apart (h : d.Balanced s) (hP : s.program? p = some P) (takes : Takes s P s' x) (apart : P.isApart = true)
    (adds : s.Adds s') (stays : x.next.isApart = true ∨ x.next.isFinished = true) (plain : x.next.isPlain = true)
    (kin : P.isApart = false → x.next.isApart = false) : (d.enter p x).Balanced (s'.setProgram p x.next) := by
  have stranger : d.errand p = none := Option.eq_none_iff_forall_ne_some.mpr fun k herrand => by
    obtain ⟨Q, hQ, hattends⟩ := h.attends p k herrand
    obtain rfl := Option.some.inj (hP.symm.trans hQ)
    cases apart.symm.trans hattends
  have same : d.enter p x = d :=
    enter_eq_self (takes.concluded? adds) (strays_of_isApart (takes.program ▸ apart)) fun k herrand => by
      cases stranger.symm.trans herrand
  rw [same]
  refine (h.of_adds adds).passes (adds.programs p P hP) plain kin (.inl apart) (stays.imp_right fun ended => ?_)
  rw [Program.answer?_of_isFinished ended]

/-- A process that concludes a context answers for it and for no other. -/
lemma enter_concludes (h : d.Balanced s) (hP : s.program? p = some P) (takes : Takes s P s' x)
    (attends : x.next.isApart = false) (plain : x.next.isPlain = true) (idle : P.answer? = none) (calm : s.Calm s₁)
    (known : s₁.contexts[k]? = some y) (unfinished : y.finished = false) (channel : y.channel = some c) {r : Response}
    (request : r.request = some y.request) (concluding : r.concludes = true)
    (fate : (s₁.conclude k).Fate c (some (.response r)) s' x.next) :
    (d.enter p x).Balanced (s'.setProgram p x.next) := by
  have concluded : x.concluded? = some k :=
    concluded?_conclude calm.toAdds known unfinished takes.before (takes.contexts.trans fate.quiet.contexts)
  have h₁ := h.of_adds calm.toAdds
  have unmarked := isConcluded_eq_false known unfinished
  refine h₁.enter_answer (calm.programs p P hP) attends plain known channel request concluding fate
    (fun q hq => ?_) (fun hsome => ?_) (h₁.unmarked k unmarked) ?_ ?_ takes.contexts (fun c' => ?_) takes.sent
  · cases unmarked.symm.trans (h₁.marked q k hq)
  · rw [idle] at hsome
    cases hsome
  · rw [concluded, Option.some_or]
  · rw [concluded, Option.isSome_some, Bool.or_true]
  · rw [takes.before, calm.sent]

/-- A context without a channel is concluded, and nothing is sent. -/
lemma enter_retires (h : d.Balanced s) (hP : s.program? p = some P) (takes : Takes s P (s₁.conclude k) x)
    (attends : x.next.isApart = false) (plain : x.next.isPlain = true) (idle : P.answer? = none) (calm : s.Calm s₁)
    (known : s₁.contexts[k]? = some y) (unfinished : y.finished = false) (channel : y.channel = none)
    (over_ : x.next.handover? = none) : (d.enter p x).Balanced ((s₁.conclude k).setProgram p x.next) := by
  have concluded : x.concluded? = some k := concluded?_conclude calm.toAdds known unfinished takes.before takes.contexts
  have h₁ := h.of_adds calm.toAdds
  have unmarked := isConcluded_eq_false known unfinished
  have nothing (c : ChannelId) :
      ∃ ms, x.after.sentOver c = x.before.sentOver c ++ ms ∧ ∀ m ∈ ms, m.answer? = none := by
    refine ⟨[], ?_, fun _ hm => absurd hm List.not_mem_nil⟩
    rw [takes.sent, takes.before, List.append_nil]
    exact calm.sent c
  rw [enter_of_concluded?_or (k := k) (by rw [concluded, Option.some_or]) (strays_of_dull nothing _)]
  have programs (q : ProcessId) : (s₁.conclude k).program? q = s₁.program? q := rfl
  refine h₁.entered (calm.programs p P hP) attends plain programs rfl known (fun q hq => ?_) (fun hsome => ?_)
    (fun z r hz => ?_) (fun c hc => ?_) fun c hc => ?_
  · cases unmarked.symm.trans (h₁.marked q k hq)
  · rw [idle] at hsome
    cases hsome
  · cases over_.symm.trans hz
  all_goals cases channel.symm.trans hc

/-- A process that waits with a last response sends it on. -/
lemma enter_carries (h : d.Balanced s) (hP : s.program? p = some P) (takes : Takes s P s' x)
    (attends : P.isApart = false) (kin : x.next.isApart = false) (plain : x.next.isPlain = true) {w : Handover}
    (waits : P.handover? = some w) {r : Response} (meaning : w.parcel.meaning = some (.response r))
    (concluding : r.concludes = true) (fate : s.Fate w.channel (some (.response r)) s' x.next) :
    (d.enter p x).Balanced (s'.setProgram p x.next) := by
  have answer : w.parcel.meaning.bind Sent.answer? = some r := by
    rw [meaning, Option.bind_some]
    exact if_pos concluding
  have waiting : P.answer? = some r := (Program.answer?_of_handover waits).trans answer
  obtain ⟨k, y, herrand, known, channel, request⟩ := h.waits p P w r hP attends waits answer
  have finished : y.finished = true := by
    have marked := h.marked p k herrand
    rwa [System.isConcluded, known] at marked
  -- the context is settled already, and the one response it is settled with is this one
  have settled := h.settled k y _ known finished channel
  have sending : d.isSending s k = true := isSending_iff.mpr ⟨p, P, herrand, hP, by rw [waiting]; rfl⟩
  rw [sending, Bool.toNat_true] at settled
  have concluded : x.concluded? = none := takes.concluded? (.of_quiet fate.quiet)
  rw [← conclude_eq_self known finished] at fate
  refine h.enter_answer hP kin plain known channel request concluding fate (fun q hq => h.alone q p k hq herrand)
    (fun _ => herrand) ⟨by omega, by omega⟩ ?_ ?_ takes.contexts (fun c' => ?_) takes.sent
  · rw [concluded, herrand, Option.none_or]
  · rw [takes.program, waiting, Option.isSome_some, Bool.true_or]
  · rw [takes.before]

/-- **A step is entered.** -/
lemma enter (h : d.Balanced s) (hP : s.program? p = some P) (takes : Takes s P s' x)
    (conduct : s.Conduct P s' x.next) (plain : x.next.isPlain = true)
    (kin : P.isApart = false → x.next.isApart = false) : (d.enter p x).Balanced (s'.setProgram p x.next) := by
  have idle_ {N : Program} (h : N.handover? = none) : N.answer? = none := by rw [Program.answer?, h]; rfl
  cases conduct with
  | calm calm idle over_ =>
    refine h.enter_dull hP takes calm.toAdds plain kin (idle_ idle) (idle_ over_) fun c => ?_
    exact ⟨[], (calm.sent c).trans (List.append_nil _).symm, fun _ hm => absurd hm List.not_mem_nil⟩
  | apart apart gains stays => exact h.enter_apart hP takes apart gains.toAdds stays plain kin
  | concludes attends idle calm known unfinished channel request concluding fate =>
    exact h.enter_concludes hP takes (kin attends) plain (idle_ idle) calm known unfinished channel request concluding
      fate
  | retires attends idle calm known unfinished channel same over_ =>
    subst same
    exact h.enter_retires hP takes (kin attends) plain (idle_ idle) calm known unfinished channel over_
  | streams handles idle known unfinished channel request partial_ fate =>
    obtain ⟨adds, after, dull⟩ := dull_of_fate fate (if_neg (by rw [partial_]; exact Bool.false_ne_true))
    exact h.enter_dull hP takes adds plain kin (idle_ idle) after dull
  | closes idle calm fate =>
    obtain ⟨adds, after, dull⟩ := dull_of_fate fate rfl
    have adds := (System.Adds.of_quiet calm.toQuiet).trans adds
    refine h.enter_dull hP takes adds plain kin (idle_ idle) after fun c => ?_
    rw [← calm.sent c]
    exact dull c
  | @carries w attends waits fate =>
    cases hr : w.parcel.meaning.bind Sent.answer? with
    | none =>
      obtain ⟨adds, after, dull⟩ := dull_of_fate fate hr
      exact h.enter_dull hP takes adds plain kin (by rw [Program.answer?_of_handover waits, hr]) after dull
    | some r =>
      obtain ⟨m, meaning, hm⟩ := Option.bind_eq_some_iff.mp hr
      obtain ⟨rfl, concluding⟩ := Sent.eq_response_of_answer? hm
      exact h.enter_carries hP takes attends (kin attends) plain waits meaning concluding (meaning ▸ fate)

end Balanced

end Docket

end GraphServer
