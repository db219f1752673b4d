import GraphServer.Proofs.System.Quiet
import GraphServer.System.Connection

/-!
What a request does to the sessions of others.

* `System.Spares`: a session is left exactly as it was, with all its processes and contexts;
* `System.Closes`: a request closes the session that it names, whomever that belongs to;
* `System.route_spares`: **a request leaves all sessions of other channels alone but one that it closes**, which only
  stops accepting.
-/

namespace GraphServer

namespace SessionTable

lemma find?_insert {t : SessionTable} {name name' : String} {i j : SessionId} (h : t.find? name = some j) :
    (t.insert name' i).find? name = some j := by
  rw [find?, insert, List.lookup_append, show t.named.lookup name = some j from h]
  rfl

lemma find?_erase_of_ne {t : SessionTable} {name name' : String} (h : name ≠ name') :
    (t.erase name').find? name = t.find? name := by
  rw [find?, erase, find?]
  induction t.named with
  | nil => rfl
  | cons e named ih =>
    obtain ⟨n, i⟩ := e
    by_cases hn : n = name'
    · subst hn
      rw [List.filter_cons_of_neg (by simp), ih, List.lookup_cons, beq_false_of_ne h]
    · rw [List.filter_cons_of_pos (by simpa using hn), List.lookup_cons, List.lookup_cons, ih]

lemma find?_keepNamed {t : SessionTable} {keep : SessionId → Bool} {name : String} {j : SessionId}
    (h : t.find? name = some j) (kept : keep j = true) : (t.keepNamed keep).find? name = some j := by
  obtain ⟨named, singles⟩ := t
  change named.lookup name = some j at h
  change (named.filter fun e => keep e.2).lookup name = some j
  induction named with
  | nil => cases h
  | cons e named ih =>
    obtain ⟨n, i⟩ := e
    rw [List.lookup_cons] at h
    by_cases hn : (name == n) = true
    · rw [hn] at h
      cases h
      rw [List.filter_cons_of_pos (by exact kept), List.lookup_cons, hn]
    · rw [Bool.not_eq_true] at hn
      rw [hn] at h
      by_cases hi : keep i = true
      · rw [List.filter_cons_of_pos (by exact hi), List.lookup_cons, hn]
        exact ih h
      · rw [List.filter_cons_of_neg (by exact hi)]
        exact ih h

end SessionTable

namespace System

/-! ### Leaving a session alone -/

/-- Between two states of a server a session stays exactly as it is: it is found as before, and no process and no
context that there was has changed. -/
structure Spares (s s' : System) (j : SessionId) : Prop where
  session : ∀ x, s.sessions[j]? = some x → s'.sessions[j]? = some x
  found : ∀ x name, s.sessions[j]? = some x → s.findSession? name = some j → s'.findSession? name = some j
  processes : s.processes <+: s'.processes
  contexts : s.contexts <+: s'.contexts

lemma findSession?_eq_some_iff {s : System} {name : String} {j : SessionId} :
    s.findSession? name = some j ↔ s.table.find? name = some j ∧ s.isAccepting j = true := by
  rw [findSession?, Option.filter_eq_some_iff]

lemma isAccepting_of_eq {s s' : System} {j : SessionId} (h : s'.sessions[j]? = s.sessions[j]?) :
    s'.isAccepting j = s.isAccepting j := by
  rw [isAccepting, isAccepting, h]

namespace Spares

variable {s s' s'' : System} {j : SessionId}

lemma refl (s : System) (j : SessionId) : s.Spares s j :=
  ⟨fun _ => id, fun _ _ _ => id, List.prefix_rfl, List.prefix_rfl⟩

lemma trans (h : s.Spares s' j) (h' : s'.Spares s'' j) : s.Spares s'' j where
  session x hx := h'.session x (h.session x hx)
  found x name hx hfound := h'.found x name (h.session x hx) (h.found x name hx hfound)
  processes := h.processes.trans h'.processes
  contexts := h.contexts.trans h'.contexts

/-- A change of the table in which the session keeps its name, and of other sessions. -/
lemma of_table (session : ∀ x, s.sessions[j]? = some x → s'.sessions[j]? = some x)
    (table : ∀ name, s.isAccepting j = true → s.table.find? name = some j → s'.table.find? name = some j)
    (processes : s.processes <+: s'.processes) (contexts : s.contexts <+: s'.contexts) : s.Spares s' j where
  session := session
  found x name hx hfound := by
    obtain ⟨hname, haccepting⟩ := findSession?_eq_some_iff.mp hfound
    have hsame := isAccepting_of_eq ((session x hx).trans hx.symm)
    exact findSession?_eq_some_iff.mpr ⟨table name haccepting hname, hsame.trans haccepting⟩
  processes := processes
  contexts := contexts

lemma of_quiet (h : s.Quiet s') (j : SessionId) : s.Spares s' j :=
  of_table (fun x hx => by rw [h.sessions, hx]) (fun name _ hname => by rw [h.table, hname])
    (by rw [h.processes]) (by rw [h.contexts])

lemma onSession {i : SessionId} (other : i ≠ j) (s : System) (f : Session → Session) : s.Spares (s.onSession i f) j :=
  of_table (fun x hx => by rw [System.onSession, List.getElem?_modify_ne _ _ other, hx]) (fun _ _ => id)
    List.prefix_rfl List.prefix_rfl

lemma spawn (s : System) (program : Program) (j : SessionId) : s.Spares (s.spawn program).1 j := by
  have hadd : s.Spares (s.addProcess program).1 j :=
    of_table (fun _ => id) (fun _ _ => id) (List.prefix_append _ _) List.prefix_rfl
  exact hadd.trans (of_quiet (.wake _ _) j)

lemma addContext (s : System) (k : TaskContext) (j : SessionId) : s.Spares (s.addContext k).1 j :=
  of_table (fun _ => id) (fun _ _ => id) List.prefix_rfl (List.prefix_append _ _)

lemma addSession (s : System) (x : Session) (j : SessionId) : s.Spares (s.addSession x).1 j :=
  of_table (fun y hy => by
      change (s.sessions ++ [x])[j]? = some y
      rw [List.getElem?_append_left (List.getElem?_eq_some_iff.mp hy).1, hy])
    (fun _ _ => id) List.prefix_rfl List.prefix_rfl

lemma insert (s : System) (name : String) (i j : SessionId) : s.Spares { s with table := s.table.insert name i } j :=
  of_table (fun _ => id) (fun _ _ => SessionTable.find?_insert) List.prefix_rfl List.prefix_rfl

lemma insertSingle (s : System) (i j : SessionId) : s.Spares { s with table := s.table.insertSingle i } j :=
  of_table (fun _ => id) (fun _ _ => id) List.prefix_rfl List.prefix_rfl

lemma prune (s : System) (j : SessionId) : s.Spares s.prune j :=
  of_table (fun _ => id) (fun _ haccepting hname => SessionTable.find?_keepNamed hname haccepting)
    List.prefix_rfl List.prefix_rfl

lemma pruneSingles (s : System) (j : SessionId) : s.Spares s.pruneSingles j :=
  of_table (fun _ => id) (fun _ _ => id) List.prefix_rfl List.prefix_rfl

lemma notify {i : SessionId} (other : i ≠ j) (s : System) : s.Spares (s.notify i) j := by
  rw [System.notify]
  split
  · exact (onSession other s _).trans (of_quiet (.wakeIf _ _ _) j)
  · exact onSession other s _

/-! ### Submitting -/

lemma submitTask {i : SessionId} (other : i ≠ j) (s : System) (t : Task) : s.Spares (s.submitTask i t).1 j := by
  have outcome := s.submitTask_outcome i t
  generalize s.submitTask i t = x at outcome ⊢
  cases outcome with
  | strays | closed | full => exact refl s j
  | engages => exact ((onSession other s _).trans (spawn _ _ j)).trans (onSession other _ _)
  | enqueues => exact (onSession other s _).trans (notify other _)

lemma submit {i : SessionId} (other : i ≠ j) (s : System) (c : ChannelId) (r : Request) :
    s.Spares (s.submit c i r).1 j := by
  rw [submit_fst]
  exact (addContext s { request := r.id, channel := some c } j).trans (submitTask other _ _)

/-! ### Opening -/

lemma openMulti (s : System) (name : String) (c : ChannelId) (limit : Nat) (hj : j < s.sessions.length) :
    s.Spares (s.openMulti name c limit).1 j :=
  ((addSession s _ j).trans (spawn _ _ j)).trans (onSession (Nat.ne_of_gt hj) _ _)

lemma armLifetime {i : SessionId} (other : i ≠ j) (s : System) : s.Spares (s.armLifetime i) j := by
  rw [System.armLifetime]
  dsimp only
  split
  · exact refl s j
  · exact (spawn s _ j).trans (onSession other _ _)

/-- Asking for a session leaves all other ones alone, and the one that is got belongs to the channel. -/
lemma getOrCreate (s : System) (name : String) (c : ChannelId) (hj : j < s.sessions.length) :
    s.Spares (s.getOrCreate name c).1 j ∧
      ∀ i, (s.getOrCreate name c).2 = .ok i → i ≠ j ∨ s.isBound j c = true := by
  have outcome := s.getOrCreate_outcome name c
  generalize s.getOrCreate name c = x at outcome ⊢
  cases outcome with
  | @finds i known bound =>
    refine ⟨prune s j, fun i' hi' => ?_⟩
    cases hi'
    by_cases hij : i = j
    · exact .inr (hij ▸ bound)
    · exact .inl hij
  | elsewhere | full => exact ⟨prune s j, fun i hi => by cases hi⟩
  | opens =>
    refine ⟨(((prune s j).trans (openMulti s.prune name c _ hj)).trans
      (armLifetime (Nat.ne_of_gt hj) _)).trans (insert _ _ _ j), fun i hi => ?_⟩
    cases hi
    exact .inl (Nat.ne_of_gt hj)

lemma single (s : System) (c : ChannelId) (j : SessionId) : s.Spares (s.single c).1 j :=
  ((addSession s _ j).trans (pruneSingles _ j)).trans (insertSingle _ _ j)

/-- Closing the session with a name leaves all other sessions alone. -/
lemma closeSession (s : System) (name : String) (other : s.table.find? name ≠ some j) :
    s.Spares (s.closeSession name).1 j := by
  rw [System.closeSession]
  split
  · exact refl s j
  next i hi =>
    have hij : i ≠ j := by
      rintro rfl
      exact other hi
    have herase : s.Spares { s with table := s.table.erase name } j :=
      of_table (fun _ => id) (fun name' _ hname' => by
          rw [SessionTable.find?_erase_of_ne, hname']
          rintro rfl
          exact other hname')
        List.prefix_rfl List.prefix_rfl
    exact (herase.trans (onSession hij _ _)).trans (notify hij _)

end Spares

/-! ### Requests -/

/-- A request closes a session: it names it in an order to close. -/
def Closes (s : System) (r : Request) (j : SessionId) : Prop :=
  r.op = Request.closeOp ∧ ∃ name, r.session? = some name ∧ s.table.find? name = some j

/-- Two states of a server between which a session was closed: it accepts nothing more and its worker was notified of
it, its name is free, and all else about it is as it was. -/
structure Shuts (s s' : System) (j : SessionId) : Prop where
  session : ∀ x, s.sessions[j]? = some x → s'.sessions[j]? = some (x.stopAccepting.setNotified true)
  lost : ∀ name, s'.findSession? name ≠ some j
  processes : s'.processes = s.processes
  contexts : s'.contexts = s.contexts

lemma notify_sessions (s : System) (i : SessionId) :
    (s.notify i).sessions = (s.onSession i (·.setNotified true)).sessions ∧ (s.notify i).processes = s.processes ∧
      (s.notify i).contexts = s.contexts := by
  rw [System.notify]
  split
  next worker _ =>
    have hquiet := Quiet.wakeIf (s.onSession i (·.setNotified true)) worker (·.isResting)
    exact ⟨hquiet.sessions, hquiet.processes, hquiet.contexts⟩
  next => exact ⟨rfl, rfl, rfl⟩

lemma closeSession_shuts (s : System) {name : String} {j : SessionId} (h : s.table.find? name = some j) :
    s.Shuts (s.closeSession name).1 j := by
  rw [closeSession, h]
  dsimp only
  obtain ⟨hsessions, hprocesses, hcontexts⟩ :=
    notify_sessions (onSession { s with table := s.table.erase name } j Session.stopAccepting) j
  have hsession (x : Session) (hx : s.sessions[j]? = some x) :
      (closeMulti { s with table := s.table.erase name } j).sessions[j]? =
        some (x.stopAccepting.setNotified true) := by
    rw [closeMulti, hsessions]
    change ((s.sessions.modify j _).modify j _)[j]? = _
    rw [List.getElem?_modify_eq, List.getElem?_modify_eq, hx]
    rfl
  refine ⟨hsession, fun name' hfound => ?_, hprocesses, hcontexts⟩
  have haccepting := (findSession?_eq_some_iff.mp hfound).2
  cases hx : s.sessions[j]? with
  | none =>
    rw [isAccepting, closeMulti, hsessions] at haccepting
    change (((s.sessions.modify j _).modify j _)[j]?.any _) = true at haccepting
    rw [List.getElem?_modify_eq, List.getElem?_modify_eq, hx] at haccepting
    cases haccepting
  | some x =>
    rw [isAccepting, hsession x hx] at haccepting
    cases haccepting

/-- A request that arrives over a channel leaves every session of another channel exactly as it was, whatever it
asks for and also with the reply to it, unless it is the order to close that session: whoever gives it, the session
then accepts nothing more and leaves the table, and is otherwise as it was. -/
theorem route_spares (s : System) (c : ChannelId) (r : Request) {j : SessionId} {x : Session}
    (hx : s.sessions[j]? = some x) (elsewhere : x.channel ≠ c) :
    (¬ s.Closes r j → s.Spares (s.route c r).1 j ∧ ∀ p response, (s.route c r).2 = some response →
      s.Spares ((s.route c r).1.sendResponse p c response).1 j) ∧
    (s.Closes r j → s.Shuts (s.route c r).1 j) := by
  have hj : j < s.sessions.length := (List.getElem?_eq_some_iff.mp hx).1
  have hunbound : ¬ s.isBound j c = true := by
    rw [isBound, hx, Option.any_some, beq_iff_eq]
    exact elsewhere
  constructor
  · intro hopen
    have hroute : s.Spares (s.route c r).1 j := by
      have outcome := s.route_outcome c r
      generalize s.route c r = y at outcome ⊢
      cases outcome with
      | lone => exact (Spares.single s c j).trans (.submit (Nat.ne_of_gt hj) _ c r)
      | @closes name named closes => exact .closeSession s name fun found => hopen ⟨closes, name, named, found⟩
      | @enters name i named works got =>
        obtain ⟨spares, found⟩ := Spares.getOrCreate s name c hj
        exact spares.trans (.submit ((found i got).resolve_right hunbound) _ c r)
      | @refused name => exact (Spares.getOrCreate s name c hj).1
    exact ⟨hroute, fun p response _ => hroute.trans (.of_quiet (.sendResponse _ p c response) j)⟩
  · rintro ⟨hop, name, hname, hfind⟩
    rw [route, hname]
    dsimp only
    rw [if_pos hop]
    exact s.closeSession_shuts hfind

/-- A server on whose second channel the session `s` was opened. -/
def hosting : System :=
  ((({} : System).addChannel {}).1.addChannel {}).1.getOrCreate "s" 1 |>.1

/-- The order to close the session `s`. -/
def closing : Request :=
  ⟨.nil, Request.closeOp, "", Fields.empty.insert Request.sessionArg (.string "s")⟩

/-- A request over the first channel for a session of its own, and the order to close the session of the second one. -/
theorem route_spares_hosted :
    ∃ x, hosting.sessions[0]? = some x ∧ x.channel ≠ 0 ∧
      ¬ hosting.Closes { closing with op := "eval" } 0 ∧
      hosting.Spares (hosting.route 0 { closing with op := "eval" }).1 0 ∧
      hosting.Closes closing 0 ∧ hosting.Shuts (hosting.route 0 closing).1 0 := by
  have hsession : ∃ x, hosting.sessions[0]? = some x ∧ x.channel ≠ 0 := ⟨_, rfl, by decide⟩
  obtain ⟨x, hx, helsewhere⟩ := hsession
  have hopen : ¬ hosting.Closes { closing with op := "eval" } 0 := fun h => absurd h.1 (by decide)
  have hcloses : hosting.Closes closing 0 := ⟨rfl, "s", by decide, by decide⟩
  exact ⟨x, hx, helsewhere, hopen, ((route_spares hosting 0 _ hx helsewhere).1 hopen).1, hcloses,
    (route_spares hosting 0 _ hx helsewhere).2 hcloses⟩

/-- The order to close a session of the second channel, given over the first one, is carried out. -/
theorem route_closes_hosted :
    hosting.isBound 0 1 = true ∧ hosting.isAccepting 0 = true ∧ hosting.findSession? "s" = some 0 ∧
      (hosting.route 0 closing).1.isAccepting 0 = false ∧ (hosting.route 0 closing).1.findSession? "s" = none := by
  decide

end System

end GraphServer
