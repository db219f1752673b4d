import GraphServer.Proofs.Server.Admitting
import GraphServer.Proofs.Server.Annals

/-!
What the table of sessions says about all sessions that were ever opened.

Entries leave the table late and for different reasons, and sessions stop accepting tasks on their own. Still, whatever
happened:

* `System.openSessions`: the sessions for many tasks that accept tasks;
* `System.Listed.perm_openSessions`: once it is pruned, the table names exactly those;
* `System.Admission`: what asking for a session by its name leads to, read off those sessions alone;
* `Annals.directory`: **at most the allowed number of them accept tasks, one for each name, they are counted and found,
  and who asks for one is answered accordingly**.
-/

namespace GraphServer

namespace System

variable {own : SessionId → ProcessId → Prop} {s : System} {i j : SessionId} {x : Session} {name : String} {c : ChannelId}

/-- The sessions for many tasks that accept tasks. -/
def openSessions (s : System) : List SessionId :=
  (List.range s.sessions.length).filter fun i => s.sessions[i]?.any fun x => x.accepting && x.backlog.isSome

/-- The name of a session. -/
def name? (s : System) (i : SessionId) : Option String :=
  s.sessions[i]?.map (·.name)

/-- What asking for the session with a name over a channel leads to: the server after it, and the answer. The cases
exclude each other. -/
inductive Admission (s : System) (name : String) (c : ChannelId) : System → Except Error SessionId → Prop
  /-- There is one, which is bound to the channel. -/
  | found {s' : System} {i : SessionId} (open_ : i ∈ s.openSessions) (named : s.name? i = some name)
      (bound : s.isBound i c = true) (same : s'.sessions = s.sessions) : Admission s name c s' (.ok i)
  /-- There is one, which is bound to another channel. -/
  | elsewhere {s' : System} {i : SessionId} (open_ : i ∈ s.openSessions) (named : s.name? i = some name)
      (bound : s.isBound i c = false) (same : s'.sessions = s.sessions) :
      Admission s name c s' (.error (.rejected (.boundElsewhere name)))
  /-- There is none, and room for one more, which is bound to the channel and has no tasks yet. -/
  | opened {s' : System} {x : Session} (absent : ∀ i ∈ s.openSessions, s.name? i ≠ some name)
      (room : s.openSessions.length < s.service.settings.maxConcurrentSessions)
      (named : x.name = name) (bound : x.channel = c) (accepting : x.accepting = true)
      (backlog : x.backlog = some { limit := max s.service.settings.maxQueuedTasks 1 })
      (new : s'.sessions = s.sessions ++ [x]) : Admission s name c s' (.ok s.sessions.length)
  /-- There is none, and no room. -/
  | full {s' : System} (absent : ∀ i ∈ s.openSessions, s.name? i ≠ some name)
      (crowded : s.service.settings.maxConcurrentSessions ≤ s.openSessions.length) (same : s'.sessions = s.sessions) :
      Admission s name c s' (.error (.rejected (.tooManySessions s.service.settings.maxConcurrentSessions)))

lemma mem_openSessions :
    i ∈ s.openSessions ↔ ∃ x, s.sessions[i]? = some x ∧ x.accepting = true ∧ x.backlog.isSome = true := by
  rw [openSessions, List.mem_filter, List.mem_range]
  constructor
  · rintro ⟨-, hany⟩
    obtain ⟨x, hx, hopen⟩ := (Option.any_eq_true _ _).mp hany
    exact ⟨x, hx, Bool.and_eq_true_iff.mp hopen⟩
  · rintro ⟨x, hx, hopen⟩
    exact ⟨(List.getElem?_eq_some_iff.mp hx).1, (Option.any_eq_true _ _).mpr ⟨x, hx, Bool.and_eq_true_iff.mpr hopen⟩⟩

lemma nodup_openSessions (s : System) : s.openSessions.Nodup :=
  List.nodup_range.filter _

/-! ### The table -/

namespace Listed

/-- A session that is open stands in the table under its name. -/
lemma mem_named (h : s.Listed) (open_ : i ∈ s.openSessions) : ∃ name, s.name? i = some name ∧ (name, i) ∈ s.table.named := by
  obtain ⟨x, hx, haccepting, hmany⟩ := mem_openSessions.mp open_
  refine ⟨x.name, by rw [name?, hx]; rfl, ?_⟩
  rcases List.mem_append.mp (h.accepting i x hx haccepting) with hnamed | hsingle
  · obtain ⟨e, he, rfl⟩ := List.mem_map.mp hnamed
    obtain ⟨y, hy, hname, -⟩ := h.named e he
    cases hx.symm.trans hy
    rwa [hname]
  · obtain ⟨y, hy, hone⟩ := h.lone i hsingle
    cases hx.symm.trans hy
    rw [hone] at hmany
    cases hmany

/-- An entry of the table for a session that accepts tasks is for one that is open, under its name. -/
lemma open_of_mem (h : s.Listed) (he : (name, i) ∈ s.table.named) (accepting : s.isAccepting i = true) :
    i ∈ s.openSessions ∧ s.name? i = some name := by
  obtain ⟨x, hx, hname, hmany⟩ := h.named _ he
  rw [isAccepting, hx] at accepting
  exact ⟨mem_openSessions.mpr ⟨x, hx, accepting, hmany⟩, by rw [name?, hx]; exact congrArg some hname⟩

lemma isAccepting_of_open (open_ : i ∈ s.openSessions) : s.isAccepting i = true := by
  obtain ⟨x, hx, haccepting, -⟩ := mem_openSessions.mp open_
  rw [isAccepting, hx]
  exact haccepting

lemma find?_eq_some_iff (h : s.Listed) : s.table.find? name = some i ↔ (name, i) ∈ s.table.named :=
  ⟨SessionTable.mem_of_find?, fun he => lookup_of_nodup h.names he⟩

/-- Two sessions in the table are different, as their names are. -/
lemma nodup_sessions (h : s.Listed) : (s.table.named.map (·.2)).Nodup := by
  refine h.names.of_map _ |>.map_on fun e he e' he' same => Prod.ext ?_ same
  obtain ⟨x, hx, hname, -⟩ := h.named e he
  obtain ⟨x', hx', hname', -⟩ := h.named e' he'
  rw [same] at hx
  cases hx.symm.trans hx'
  exact hname.symm.trans hname'

/-- Once it is pruned, the table names exactly the sessions that are open. -/
lemma perm_openSessions (h : s.Listed) : (s.prune.table.named.map (·.2)).Perm s.openSessions := by
  have hpruned : s.prune.table.named.Sublist s.table.named := List.filter_sublist
  refine (List.perm_ext_iff_of_nodup ((hpruned.map _).nodup h.nodup_sessions) s.nodup_openSessions).mpr fun i =>
    ⟨fun hi => ?_, fun hi => ?_⟩
  · obtain ⟨e, he, rfl⟩ := List.mem_map.mp hi
    obtain ⟨hbefore, haccepting⟩ := List.mem_filter.mp he
    exact (h.open_of_mem hbefore haccepting).1
  · obtain ⟨name, -, he⟩ := h.mem_named hi
    exact List.mem_map.mpr ⟨(name, i), List.mem_filter.mpr ⟨he, isAccepting_of_open hi⟩, rfl⟩

lemma length_pruned (h : s.Listed) : s.prune.table.named.length = s.openSessions.length := by
  rw [← h.perm_openSessions.length_eq, List.length_map]

lemma length_openSessions_le (h : s.Listed) : s.openSessions.length ≤ s.service.settings.maxConcurrentSessions :=
  calc s.openSessions.length
      = s.prune.table.named.length := h.length_pruned.symm
    _ ≤ s.table.named.length := List.filter_sublist.length_le
    _ ≤ s.service.settings.maxConcurrentSessions := h.limited

/-- There is at most one open session with a name. -/
lemma eq_of_name? (h : s.Listed) (hi : i ∈ s.openSessions) (hj : j ∈ s.openSessions) (same : s.name? i = s.name? j) :
    i = j := by
  obtain ⟨name, hname, he⟩ := h.mem_named hi
  obtain ⟨name', hname', he'⟩ := h.mem_named hj
  cases hname.symm.trans (same.trans hname')
  exact Option.some.inj ((h.find?_eq_some_iff.mpr he).symm.trans (h.find?_eq_some_iff.mpr he'))

/-- An entry for a session that accepts tasks is found, and only such an entry. -/
lemma findSession?_eq_some_iff (h : s.Listed) :
    s.findSession? name = some i ↔ i ∈ s.openSessions ∧ s.name? i = some name := by
  rw [findSession?, Option.filter_eq_some_iff, h.find?_eq_some_iff]
  constructor
  · rintro ⟨he, haccepting⟩
    exact h.open_of_mem he haccepting
  · rintro ⟨hopen, hname⟩
    obtain ⟨name', hname', he⟩ := h.mem_named hopen
    cases hname.symm.trans hname'
    exact ⟨he, isAccepting_of_open hopen⟩

/-- What the pruned table finds. -/
lemma find?_prune (h : s.Listed) :
    s.prune.table.find? name = some i ↔ i ∈ s.openSessions ∧ s.name? i = some name := by
  have hnames : (s.prune.table.named.map (·.1)).Nodup := (List.filter_sublist.map _).nodup h.names
  constructor
  · intro hfind
    obtain ⟨he, haccepting⟩ := List.mem_filter.mp (SessionTable.mem_of_find? hfind)
    exact h.open_of_mem he haccepting
  · rintro ⟨hopen, hname⟩
    obtain ⟨name', hname', he⟩ := h.mem_named hopen
    cases hname.symm.trans hname'
    exact lookup_of_nodup hnames (List.mem_filter.mpr ⟨he, isAccepting_of_open hopen⟩)

end Listed

/-! ### Asking for a session -/

/-- The watch over its lifetime changes no more of a new session than that it knows the watch. -/
lemma sessions_armLifetime {xs : List Session} (s : System) (hs : s.sessions = xs ++ [x]) :
    ∃ hook, (s.armLifetime xs.length).sessions = xs ++ [{ x with cancelFuture := hook }] := by
  rw [armLifetime]
  dsimp only
  split
  · exact ⟨x.cancelFuture, hs⟩
  · refine ⟨some (x.cancelFuture.getD s.processes.length), ?_⟩
    rw [onSession, sessions_spawn, hs, modify_concat]
    exact congrArg (fun y => xs ++ [y]) (setHook_cancelFuture x _)

lemma Listed.admission (h : s.Listed) (name : String) (c : ChannelId) :
    s.Admission name c (s.getOrCreate name c).1 (s.getOrCreate name c).2 := by
  have absent (unknown : s.prune.table.find? name = none) (i : SessionId) (hopen : i ∈ s.openSessions)
      (hname : s.name? i = some name) : False := by
    cases unknown.symm.trans (h.find?_prune.mpr ⟨hopen, hname⟩)
  have outcome := s.getOrCreate_outcome name c
  generalize s.getOrCreate name c = z at outcome ⊢
  cases outcome with
  | finds known bound =>
    obtain ⟨hopen, hname⟩ := h.find?_prune.mp known
    exact .found hopen hname bound rfl
  | elsewhere known unbound =>
    obtain ⟨hopen, hname⟩ := h.find?_prune.mp known
    exact .elsewhere hopen hname unbound rfl
  | full unknown full => exact .full (absent unknown) (h.length_pruned ▸ full) rfl
  | opens unknown room =>
    rw [enroll, openMulti_eq]
    obtain ⟨hook, hsessions⟩ := sessions_armLifetime _ (sessions_spawn (s.prune.addSession _).1 _)
    exact .opened (absent unknown) (h.length_pruned ▸ room) rfl rfl rfl rfl hsessions

end System

/-! ### Every history -/

/-- **The table of sessions.** Whatever happened to a server, where a turn may be cut after any of its steps, at most
the allowed number of its sessions for many tasks accept tasks, no two of them with one name; they are counted, each is
found under its name and nothing else is, and asking for a name finds the session, is rejected because it is bound to
another channel, opens a new one if there is room, or is rejected because there is none. -/
theorem Annals.directory (service : Service) (past : List Happening) :
    let s := ((start service).play past).system
    s.openSessions.length ≤ service.settings.maxConcurrentSessions ∧
      (∀ i ∈ s.openSessions, ∀ j ∈ s.openSessions, s.name? i = s.name? j → i = j) ∧
      s.sessionCount.2 = s.openSessions.length ∧
      (∀ name i, s.findSession? name = some i ↔ i ∈ s.openSessions ∧ s.name? i = some name) ∧
      s.service = service ∧
      ∀ name c, s.Admission name c (s.getOrCreate name c).1 (s.getOrCreate name c).2 := by
  intro s
  have hlisted : s.Listed := (faithful_play service past).managed.toSound.listed
  have hservice : s.service = service := ((faithful_start service).play past).2.1.service
  exact ⟨hservice ▸ hlisted.length_openSessions_le, fun i hi j hj same => hlisted.eq_of_name? hi hj same,
    hlisted.length_pruned, fun name i => hlisted.findSession?_eq_some_iff, hservice, hlisted.admission⟩

end GraphServer
