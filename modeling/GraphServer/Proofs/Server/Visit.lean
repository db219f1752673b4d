import GraphServer.Proofs.Server.Casebook
import GraphServer.Proofs.Server.Hearing

/-!
One client on a server of which nobody else makes use.

* `System.Enlists`: processes were only added, and nothing happened to the connections;
* `Visit`: how the server stands while the client is connected. Its sessions are tended, its books are kept, and it hears
  of all that arrives;
* `Visit.others`, `Visit.ambles`, `Visit.handles`: the steps of other processes, those of the connection's process in which
  no message is handled, and those in which one is;
* `Visit.step`, `Visit.turn`: **every step that delivers, and every turn of such steps, leaves the server as it has to stand**.
-/

namespace GraphServer

open GraphServer.System

namespace System

variable {held : SessionId → ContextId → Prop} {s s' s'' : System} {p : ProcessId} {P N : Program} {y : Process}
  {turn : Turn Program} {turning turning' : Option ProcessId}

/-! ### Starting processes -/

/-- Between two states of a server processes were only added, and nothing happened to its connections. -/
structure Enlists (s s' : System) : Prop where
  service : s'.service = s.service
  connections : s'.connections = s.connections
  processes : s.processes <+: s'.processes

namespace Enlists

lemma of_same (service : s'.service = s.service) (connections : s'.connections = s.connections)
    (processes : s'.processes = s.processes) : s.Enlists s' :=
  ⟨service, connections, by rw [processes]⟩

@[refl] lemma refl (s : System) : s.Enlists s := of_same rfl rfl rfl

lemma trans (h : s.Enlists s') (h' : s'.Enlists s'') : s.Enlists s'' :=
  ⟨h'.service.trans h.service, h'.connections.trans h.connections, h.processes.trans h'.processes⟩

lemma of_rouses (h : s.Rouses s') : s.Enlists s' := of_same h.service h.connections h.processes

lemma getElem?_processes (h : s.Enlists s') (hp : s.processes[p]? = some y) : s'.processes[p]? = some y := by
  obtain ⟨new, hnew⟩ := h.processes
  rw [← hnew, List.getElem?_append_left (List.getElem?_eq_some_iff.mp hp).1, hp]

lemma spawn (s : System) (P : Program) : s.Enlists (s.spawn P).1 := by
  have added : s.Enlists (s.addProcess P).1 := ⟨rfl, rfl, List.prefix_append _ _⟩
  exact added.trans (.of_rouses (.wake _ _))

lemma onSession (s : System) (i : SessionId) (f : Session → Session) : s.Enlists (s.onSession i f) :=
  of_same rfl rfl rfl

lemma notify (s : System) (i : SessionId) : s.Enlists (s.notify i) := by
  rw [System.notify]
  split
  · exact (onSession s i _).trans (.of_rouses (.wakeIf _ _ _))
  · exact onSession s i _

lemma armLifetime (s : System) (i : SessionId) : s.Enlists (s.armLifetime i) := by
  rw [System.armLifetime]
  dsimp only
  split
  · exact refl s
  · exact (spawn s _).trans (onSession _ i _)

lemma openMulti (s : System) (name : String) (c : ChannelId) (limit : Nat) : s.Enlists (s.openMulti name c limit).1 := by
  have added (x : Session) : s.Enlists (s.addSession x).1 := of_same rfl rfl rfl
  rw [openMulti_eq]
  exact (added _).trans (spawn _ _)

lemma getOrCreate (s : System) (name : String) (c : ChannelId) : s.Enlists (s.getOrCreate name c).1 := by
  have pruned : s.Enlists s.prune := of_same rfl rfl rfl
  have outcome := s.getOrCreate_outcome name c
  generalize s.getOrCreate name c = x at outcome ⊢
  cases outcome with
  | finds | elsewhere | full => exact pruned
  | opens => exact ((pruned.trans (openMulti s.prune name c _)).trans (armLifetime _ _)).trans (of_same rfl rfl rfl)

lemma submitTask (s : System) (i : SessionId) (t : Task) : s.Enlists (s.submitTask i t).1 := by
  have outcome := s.submitTask_outcome i t
  generalize s.submitTask i t = x at outcome ⊢
  cases outcome with
  | strays | closed | full => exact refl s
  | engages => exact ((onSession s i _).trans (spawn _ _)).trans (onSession _ i _)
  | enqueues => exact (onSession s i _).trans (notify _ i)

lemma submit (s : System) (c : ChannelId) (i : SessionId) (request : Request) : s.Enlists (s.submit c i request).1 := by
  have made : s.Enlists (s.makeTask request c).1 := of_same rfl rfl rfl
  rw [submit_fst]
  exact made.trans (submitTask _ i _)

lemma closeSession (s : System) (name : String) : s.Enlists (s.closeSession name).1 := by
  rw [System.closeSession]
  split
  · exact refl s
  · exact (of_same rfl rfl rfl : s.Enlists { s with table := s.table.erase name }).trans
      ((onSession _ _ _).trans (notify _ _))

lemma route (s : System) (c : ChannelId) (request : Request) : s.Enlists (s.route c request).1 := by
  have outcome := s.route_outcome c request
  generalize s.route c request = x at outcome ⊢
  cases outcome with
  | lone => exact (of_same rfl rfl rfl : s.Enlists (s.single c).1).trans (submit _ c _ request)
  | closes => exact closeSession s _
  | enters => exact (getOrCreate s _ c).trans (submit _ c _ request)
  | refused => exact getOrCreate s _ c

lemma outcome (e : Entry) : e.system.Enlists e.outcome.1 := by
  rw [Entry.outcome]
  split
  · exact refl _
  next request _ =>
    have routed := route e.system e.channel request
    split <;> next heq =>
      rw [heq] at routed
      exact routed

end Enlists

/-! ### Going on -/

/-- A process goes on to a program that has not ended. -/
lemma lasts_step (s : System) (p : ProcessId) (unfinished : P.isFinished = false) : Turn.Lasts (s.step p P).2 := by
  cases P with
  | lifetime i milliseconds due =>
    have outcome := s.stepLifetime_outcome i milliseconds due
    rw [step]
    generalize s.stepLifetime i milliseconds due = z at outcome ⊢
    cases outcome with
    | sets | rings => exact Turn.lasts_go _ rfl
    | waits => exact Turn.lasts_wait _ rfl
  | finished result => cases unfinished
  | _ => exact Turn.lasts_map _ fun _ => rfl

/-- Going on puts nothing into a queue. -/
lemma Goes.sent (g : s.Goes p turn turning s') (c : ChannelId) : s'.sentOver c = s.sentOver c := by
  cases g with
  | go N => rfl
  | wait N => exact (Calm.suspend s p N).sent c
  | done result => exact (Calm.finish s p (some result)).sent c

/-- A process that has ended needs no turn. -/
lemma Tidy.rests (h : Tidy held (some p) none s) (ended : ∀ y, s.processes[p]? = some y → y.program.isFinished = true) :
    Tidy held none none s :=
  { h with
    tended := fun i x hi hx => by
      obtain ⟨q, y, future, hy, lives, hands, alert⟩ := (h.tended i x hi hx).staffed
      refine ⟨q, y, future, hy, lives, hands, .inr (alert.elim (fun turn => ?_) id)⟩
      cases turn
      exact .inr (.finished (ended y hy)) }

end System

/-! ### The visit -/

/-- How the server stands with its only client: what it accepted is in hands, the books are kept, and the process of the
connection goes on. -/
structure Visit (service : Service) (bodies : List Bytes) (arrived : Bytes) (ended : Bool) (turning : Option ProcessId)
    (a : Annals) : Prop where
  tidy : Tidy a.Holds turning none a.system
  reckoned : a.Reckoned
  hears : Hears service bodies arrived ended (a.entries.map (·.body)) turning a.system
  served : ∀ e ∈ a.entries, e.system.service = service

namespace Visit

variable {service : Service} {bodies : List Bytes} {arrived arrived' : Bytes} {ended ended' : Bool}
  {turning turning' : Option ProcessId} {a : Annals} {p : ProcessId} {y : Process} {x : Step} {s' s'' : System}

/-- What happens without any steps. -/
lemma quiet (h : Visit service bodies arrived ended turning a) (tidy : Tidy a.Holds turning' none s')
    (contexts : s'.contexts = a.system.contexts) (sent : s'.sentOver 0 = a.system.sentOver 0)
    (hears : Hears service bodies arrived' ended' (a.entries.map (·.body)) turning' s') :
    Visit service bodies arrived' ended' turning' { a with system := s' } :=
  ⟨tidy, h.reckoned.quiet contexts sent, hears, h.served⟩

/-- A step in which nothing is handled. -/
lemma take (h : Visit service bodies arrived ended turning a) (unhandled : x.entered? = none)
    (records : Records a.Holds a.system x s') (tidy : Tidy a.Holds turning' none s')
    (hears : Hears service bodies arrived ended (a.entries.map (·.body)) turning' s') :
    Visit service bodies arrived ended turning' (a.take p x s') := by
  have entries : (a.take p x s').entries = a.entries := by
    rw [Annals.entries_take, unhandled, Option.toList_none, List.append_nil]
  refine ⟨tidy.congr fun i k => ?_, h.reckoned.record p records, ?_, ?_⟩
  · rw [Annals.Holds, Annals.Holds, entries]
  · rw [entries]
    exact hears
  · rw [entries]
    exact h.served

/-- A step of a process other than the connection's. -/
lemma others (h : Visit service bodies arrived ended (some p) a) (hy : a.system.processes[p]? = some y)
    (unfinished : y.program.isFinished = false) (apart : ∀ n point, y.program ≠ .connection n point)
    (hx : x = ⟨a.system, y.program, (a.system.step p y.program).1, some (a.system.step p y.program).2⟩)
    (delivers : x.Delivers 0) (spares : x.Spares)
    (g : (a.system.step p y.program).1.Goes p (a.system.step p y.program).2 turning s'') :
    Visit service bodies arrived ended turning (a.take p x s'') := by
  have idle : (a.system.step p y.program).2.program.handover? = none := by
    have waits := delivers.1
    rwa [hx] at waits
  have inTime : ∀ z ∈ (a.system.step p y.program).1.sessions, z.timedOut = none := by
    rw [hx] at spares
    exact fun z hz => (spares z hz).1
  have m := g.moves (lasts_step a.system p unfinished)
  have records := h.tidy.records hy apart hx delivers spares
  obtain ⟨⟨i, d⟩, -⟩ := h.tidy.deals_step hy apart inTime idle
  refine h.take ?_ (records.quiet m.contexts (g.sent 0)) (h.tidy.step hy unfinished apart inTime idle g) ?_
  · rw [hx]
    exact Step.entered?_eq_none fun n frame rest => apart n _
  · obtain ⟨other, dealt⟩ := h.hears.deals hy unfinished apart d
    exact dealt.moves other m turning

/-! #### The connection -/

section Connection

variable {y' z : Connection} {P : Program} {point : ConnectionPoint} {turn : Turn ConnectionPoint} {handled : List Bytes}
  {held : SessionId → ContextId → Prop} {s : System}

/-- The process of the connection goes on, ends, or waits where it may sleep. -/
lemma converses (tidy : Tidy held (some 0) none s') (hP : s'.processes[0]? = some { program := .connection 0 point })
    (idle : (turn.map (.connection 0)).program.handover? = none)
    (listens : Listens service bodies arrived ended handled (s'.setProgram 0 (turn.map (.connection 0)).program) z
      (turn.map (.connection 0)).program)
    (rests : ∀ point, turn = .wait point → s'.allowance = 0 ∨ MaySleep z (.connection 0 point))
    (g : s'.Goes 0 (turn.map (.connection 0)) turning s'') :
    Tidy held turning none s'' ∧ Hears service bodies arrived ended handled turning s'' := by
  have m := g.moves (Turn.lasts_map turn fun _ => rfl)
  have known : s'.Known held 0 { program := (turn.map (.connection 0)).program } := by
    refine ⟨?_, idle, nofun⟩
    cases turn with
    | go | wait => exact ⟨rfl, rfl⟩
    | done => trivial
  refine ⟨tidy.move m hP rfl (fun _ h => by cases h) (fun _ h => by cases h) (fun h => by cases h) known turning,
    z, _, listens.congr m.service m.connections (by rw [m.processes]; rfl), ?_⟩
  cases turn with
  | go point =>
    cases g
    exact .inl rfl
  | wait point =>
    cases g
    exact .inr ((rests point rfl).imp_left isAwake_suspend)
  | done result => exact .inr (.inr (.finished _))

/-- A process is at another point of its program. -/
lemma getElem?_setProgram {N : Program} (hP : s.processes[0]? = some { program := P }) :
    (s.setProgram 0 N).processes[0]? = some { program := N } := by
  rw [setProgram, onProcess, List.getElem?_modify_eq, hP]
  rfl

/-- What the process of the connection does in a step in which it handles no message. -/
structure Ambles (service : Service) (bodies : List Bytes) (arrived : Bytes) (ended : Bool) (handled : List Bytes)
    (s s' : System) (turn : Turn ConnectionPoint) : Prop where
  tidy : ∀ held, Tidy held (some 0) none s → Tidy held (some 0) none s'
  adds : s.Adds s'
  dull : ∃ ms, s'.sentOver 0 = s.sentOver 0 ++ ms ∧ ∀ m ∈ ms, m.answer? = none
  process : s'.processes[0]? = s.processes[0]?
  listens : ∃ z, Listens service bodies arrived ended handled (s'.setProgram 0 (turn.map (.connection 0)).program) z
    (turn.map (.connection 0)).program ∧ ∀ point, turn = .wait point → s'.allowance = 0 ∨ MaySleep z (.connection 0 point)

/-- Nothing is put into the queue. -/
lemma silent (same : s'.sentOver 0 = s.sentOver 0) :
    ∃ ms, s'.sentOver 0 = s.sentOver 0 ++ ms ∧ ∀ m ∈ ms, m.answer? = none :=
  ⟨[], same.trans (List.append_nil _).symm, fun _ hm => absurd hm List.not_mem_nil⟩

/-- The writer is started. -/
lemma ambles_start (h : Listens service bodies arrived ended handled s z (.connection 0 .start)) :
    Ambles service bodies arrived ended handled s (s.stepConnection 0 0 .start).1 (s.stepConnection 0 0 .start).2 := by
  have steps : s.stepConnection 0 0 .start = (s.spawnWriter 0, .go .reading) := by
    rw [stepConnection, h.connections]
    dsimp only [List.getElem?_cons_zero]
    rw [h.channel]
  have enlists : s.Enlists (s.spawnWriter 0) := (Enlists.spawn s (.writer 0)).trans (.of_rouses (.onChannel _ 0 _))
  have calm : s.Calm (s.spawnWriter 0) := .spawnWriter s 0
  have process : (s.spawnWriter 0).processes[0]? = s.processes[0]? :=
    (enlists.getElem?_processes h.program).trans h.program.symm
  obtain ⟨pending, stands, progress⟩ := h.progress
  cases stands
  rw [steps]
  refine ⟨fun held tidy => ?_, calm.toAdds, silent (calm.sent 0), process, z, ?_, fun _ h => by cases h⟩
  · have started : Tidy held (some 0) none (s.spawn (.writer 0)).1 :=
      tidy.deals (.spawn s s.sessions.length ⟨trivial, rfl, fun h => absurd h Bool.false_ne_true⟩)
        fun _ _ _ hx => ((List.getElem?_eq_some_iff.mp hx).1).ne
    exact started.rouses (.onChannel _ 0 _)
  · exact { h with
      serves := enlists.service.trans h.serves
      connections := enlists.connections.trans h.connections
      program := getElem?_setProgram (process.trans h.program)
      progress := ⟨[], .reading, progress⟩ }

/-- Bytes are read, or the process waits for them. -/
lemma ambles_reading (h : Listens service bodies arrived ended handled s z (.connection 0 .reading))
    (within : (Greedy.of arrived).Within service.settings.maxFrameSize) :
    Ambles service bodies arrived ended handled s (s.stepConnection 0 0 .reading).1 (s.stepConnection 0 0 .reading).2 := by
  obtain ⟨pending, stands, progress⟩ := h.progress
  cases stands
  have steps : s.stepConnection 0 0 .reading = s.read 0 z := by
    rw [stepConnection, h.connections]
    rfl
  have outcome := s.read_outcome 0 z
  rw [steps]
  generalize s.read 0 z = x at outcome ⊢
  cases outcome with
  | waits rests =>
    refine ⟨fun _ => id, .refl s, silent rfl, rfl, z, ?_, fun point heq => ?_⟩
    · exact { h with program := getElem?_setProgram h.program, progress := ⟨[], .reading, progress⟩ }
    · cases heq
      exact rests.imp_right fun idle => .reading (List.isEmpty_iff.mp idle.1) idle.2
  | ends spent read closed =>
    have rouses := Rouses.spend? spent
    refine ⟨fun held tidy => tidy.rouses rouses, .of_quiet rouses.toQuiet, silent (Mute.spend? spent |>.sent 0),
      congrArg (·[0]?) rouses.processes, z, ?_, fun _ h => by cases h⟩
    exact { h with
      serves := rouses.service.trans h.serves
      connections := rouses.connections.trans h.connections
      program := getElem?_setProgram ((congrArg (·[0]?) rouses.processes).trans h.program)
      progress := ⟨[], .ending (List.isEmpty_iff.mp read) closed, progress⟩ }
  | @jams _ e spent arrived pushed =>
    obtain ⟨frames, splitter, push, -⟩ := progress.read within readLimit
    cases (congrArg Prod.fst push).symm.trans pushed
  | @cuts s' frames spent arrived pushed =>
    obtain ⟨_, splitter, push, progress⟩ := progress.read within readLimit
    rw [push] at pushed ⊢
    cases pushed
    have rouses := Rouses.spend? spent
    refine ⟨fun held tidy => ?_, .of_quiet (rouses.toQuiet.trans (.onConnection _ 0 _)), silent (Mute.spend? spent |>.sent 0),
      congrArg (·[0]?) rouses.processes, { z with splitter, inbound := z.inbound.drop readLimit }, ?_,
      fun _ h => by cases h⟩
    · exact (tidy.rouses rouses).carry rfl rfl
        ⟨[], (List.append_nil _).symm, fun _ h => absurd h List.not_mem_nil⟩ fun _ => id
    · refine ⟨rouses.service.trans h.serves, ?_, h.channel, h.process, h.inboundEnded,
        getElem?_setProgram ((congrArg (·[0]?) rouses.processes).trans h.program), frames, .handling frames, progress⟩
      rw [setProgram, onProcess, onConnection, rouses.connections, h.connections]
      rfl

/-- All frames that were cut off were handled. -/
lemma ambles_handled (h : Listens service bodies arrived ended handled s z (.connection 0 (.handling []))) :
    Ambles service bodies arrived ended handled s (s.stepConnection 0 0 (.handling [])).1
      (s.stepConnection 0 0 (.handling [])).2 := by
  have steps : s.stepConnection 0 0 (.handling []) = (s, .go .reading) := by
    rw [stepConnection, h.connections]
    rfl
  obtain ⟨pending, stands, progress⟩ := h.progress
  cases stands
  rw [steps]
  refine ⟨fun _ => id, .refl s, silent rfl, rfl, z, ?_, fun _ h => by cases h⟩
  exact { h with program := getElem?_setProgram h.program, progress := ⟨[], .reading, progress⟩ }

/-- If no session is killed when those of a channel are to end, then there were none in the table. -/
lemma closeBoundTo_eq {c : ChannelId} (spared : ∀ x ∈ (s.closeBoundTo c).sessions, x.killed = false) :
    ∃ table, s.closeBoundTo c = { s with table } := by
  rw [closeBoundTo] at spared ⊢
  dsimp only at spared ⊢
  cases bound : s.table.all.filter (s.isBound · c) with
  | nil => exact ⟨_, rfl⟩
  | cons i is =>
    have mem : i ∈ s.table.all.filter (s.isBound · c) := by
      rw [bound]
      exact List.mem_cons_self
    obtain ⟨x, hx, -⟩ := (Option.any_eq_true _ _).mp (List.mem_filter.mp mem).2
    obtain ⟨x', hx', follows⟩ := killAll_mem mem hx
    cases (spared x' (List.mem_of_getElem? hx')).symm.trans (follows.killed rfl)

/-- The connection is at its end. -/
lemma ambles_ending (h : Listens service bodies arrived ended handled s z (.connection 0 (.ending (.ok ()))))
    (idle : ((s.stepConnection 0 0 (.ending (.ok ()))).2.map (.connection 0)).program.handover? = none)
    (spared : ∀ x ∈ (s.stepConnection 0 0 (.ending (.ok ()))).1.sessions, x.killed = false) :
    Ambles service bodies arrived ended handled s (s.stepConnection 0 0 (.ending (.ok ()))).1
      (s.stepConnection 0 0 (.ending (.ok ()))).2 := by
  have rouses := Rouses.closeChannel (s.closeBoundTo 0) 0 0
  have posts := closeChannel_posts (s.closeBoundTo 0) 0 0
  rw [stepConnection, h.connections] at idle spared ⊢
  dsimp only [List.getElem?_cons_zero] at idle spared ⊢
  rw [h.channel] at idle spared ⊢
  rcases hclose : (s.closeBoundTo 0).closeChannel 0 0 with ⟨s', r | w⟩ <;> rw [hclose] at idle spared rouses posts
  case waiting => cases idle
  dsimp only at spared rouses posts ⊢
  obtain ⟨table, kept⟩ := closeBoundTo_eq (s := s) (c := 0) (rouses.sessions ▸ spared)
  rw [kept] at rouses posts
  obtain ⟨pending, stands, progress⟩ := h.progress
  cases stands with
  | ending read closed =>
    have retabled : s.Calm { s with table } := .retable s table
    refine ⟨fun held tidy => ?_, ?_, ?_, ?_, z, ?_, fun _ h => by cases h⟩
    · exact (tidy.retable table).rouses rouses
    · exact retabled.toAdds.trans (.of_quiet rouses.toQuiet)
    · obtain already | ⟨s₁, mute, posts⟩ := posts
      · cases already
        exact silent (retabled.sent 0)
      · have before : s₁.sentOver 0 = s.sentOver 0 := (mute.sent 0).trans (retabled.sent 0)
        cases posts with
        | put quiet sent =>
          refine ⟨[.close], (sent 0).trans (by rw [before]; rfl), fun m hm => ?_⟩
          obtain rfl := List.mem_singleton.mp hm
          rfl
        | refused mute' e => exact silent ((mute'.sent 0).trans before)
    · rw [rouses.processes]
    · exact { h with
        serves := rouses.service.trans h.serves
        connections := rouses.connections.trans h.connections
        program := getElem?_setProgram (by rw [rouses.processes]; exact h.program)
        progress := ⟨[], .finished read closed _, progress⟩ }

/-- A step in which no message is handled. -/
lemma ambles (h : Visit service bodies arrived ended (some 0) a)
    (hP : a.system.processes[0]? = some { program := .connection 0 point })
    (quiet : ∀ frame rest, point ≠ .handling (frame :: rest))
    (hx : x = ⟨a.system, .connection 0 point, (a.system.stepConnection 0 0 point).1,
      some ((a.system.stepConnection 0 0 point).2.map (.connection 0))⟩)
    (delivers : x.Delivers 0)
    (done : Ambles service bodies arrived ended (a.entries.map (·.body)) a.system (a.system.stepConnection 0 0 point).1
      (a.system.stepConnection 0 0 point).2)
    (g : (a.system.stepConnection 0 0 point).1.Goes 0 ((a.system.stepConnection 0 0 point).2.map (.connection 0)) turning
      s'') : Visit service bodies arrived ended turning (a.take 0 x s'') := by
  have unhandled : x.entered? = none := by
    refine Step.entered?_eq_none fun n frame rest heq => ?_
    rw [hx] at heq
    cases heq
    exact quiet frame rest rfl
  have idle : ((a.system.stepConnection 0 0 point).2.map (.connection 0)).program.handover? = none := by
    have waits := delivers.1
    rwa [hx] at waits
  have takes : Docket.Balanced.Takes a.system (.connection 0 point) (a.system.stepConnection 0 0 point).1 x := by
    rw [hx]
    exact ⟨rfl, rfl, rfl, fun _ => rfl⟩
  have records : Records a.Holds a.system x (a.system.stepConnection 0 0 point).1 :=
    .of_dull done.adds unhandled (takes.concluded? done.adds) done.dull
  obtain ⟨z, listens, rests⟩ := done.listens
  obtain ⟨tidy, hears⟩ := converses (done.tidy a.Holds h.tidy) (done.process.trans hP) idle listens rests g
  have m := g.moves (Turn.lasts_map _ fun _ => rfl)
  exact h.take unhandled (records.quiet m.contexts (g.sent 0)) tidy hears

/-- The step in which a message is handled. -/
lemma handles {frame : Bytes} {rest : List Bytes} (h : Visit service bodies arrived ended (some 0) a)
    (listens : Listens service bodies arrived ended (a.entries.map (·.body)) a.system z
      (.connection 0 (.handling (frame :: rest))))
    (sends : Sends service.settings bodies arrived)
    (hx : x = ⟨a.system, .connection 0 (.handling (frame :: rest)),
      (a.system.stepConnection 0 0 (.handling (frame :: rest))).1,
      some ((a.system.stepConnection 0 0 (.handling (frame :: rest))).2.map (.connection 0))⟩)
    (delivers : x.Delivers 0)
    (g : (a.system.stepConnection 0 0 (.handling (frame :: rest))).1.Goes 0
      ((a.system.stepConnection 0 0 (.handling (frame :: rest))).2.map (.connection 0)) turning s'') :
    Visit service bodies arrived ended turning (a.take 0 x s'') := by
  obtain ⟨pending, stands, progress⟩ := listens.progress
  cases stands
  obtain ⟨body, handshake, opened, progress⟩ := progress.handle sends
  have hn : a.system.connections[0]? = some z := by
    rw [listens.connections]
    rfl
  obtain ⟨handled, goesOn, rouses, records⟩ :=
    records_handling hn listens.channel (listens.serves ▸ opened) hx delivers
  generalize he : (⟨a.system.onConnection 0 fun y => { y with handshake }, 0, body⟩ : Entry) = e at handled rouses
  have entries : (a.take 0 x s'').entries = a.entries ++ [e] := by
    rw [Annals.entries_take, handled, Option.toList_some]
  have before : Tidy a.Holds (some 0) none e.system := by
    rw [← he]
    exact h.tidy.carry rfl rfl ⟨[], (List.append_nil _).symm, fun _ h => absurd h List.not_mem_nil⟩ fun _ => id
  have tidy := (Entry.tidy before (by rw [← he])).rouses rouses
  have enlists := (Enlists.outcome e).trans (.of_rouses rouses)
  have process : (a.system.stepConnection 0 0 (.handling (frame :: rest))).1.processes[0]? =
      some { program := .connection 0 (.handling (frame :: rest)) } :=
    enlists.getElem?_processes (by rw [← he]; exact listens.program)
  have after : Listens service bodies arrived ended ((a.take 0 x s'').entries.map (·.body))
      ((a.system.stepConnection 0 0 (.handling (frame :: rest))).1.setProgram 0 (.connection 0 (.handling rest)))
      { z with handshake } (.connection 0 (.handling rest)) := by
    refine ⟨?_, ?_, listens.channel, listens.process, listens.inboundEnded, getElem?_setProgram process, rest,
      .handling rest, ?_⟩
    · refine enlists.service.trans ?_
      rw [← he]
      exact listens.serves
    · refine enlists.connections.trans ?_
      rw [← he, onConnection, listens.connections]
      rfl
    · rw [entries, List.map_append, ← he]
      exact progress
  have m := g.moves (Turn.lasts_map _ fun _ => rfl)
  rw [goesOn] at g
  obtain ⟨tidy, hears⟩ := converses tidy process rfl after (fun _ h => by cases h) g
  refine ⟨tidy.congr fun i k => ?_, h.reckoned.record 0 (records.quiet m.contexts (g.sent 0)), hears, ?_⟩
  · rw [Annals.holds_take, handled]
    simp
  · rw [entries]
    intro e' he'
    obtain before | now := List.mem_append.mp he'
    · exact h.served e' before
    · obtain rfl := List.mem_singleton.mp now
      rw [← he]
      exact listens.serves

end Connection

/-! #### Turns -/

/-- Every step that delivers leaves the server as it has to stand. -/
lemma step (h : Visit service bodies arrived ended (some p) a) (sends : Sends service.settings bodies arrived)
    (hy : a.system.processes[p]? = some y) (unfinished : y.program.isFinished = false)
    (hx : x = ⟨a.system, y.program, (a.system.step p y.program).1, some (a.system.step p y.program).2⟩)
    (delivers : x.Delivers 0) (spares : x.Spares)
    (g : (a.system.step p y.program).1.Goes p (a.system.step p y.program).2 turning s'') :
    Visit service bodies arrived ended turning (a.take p x s'') := by
  cases hP : y.program with
  | connection n point =>
    have expected := (h.tidy.known p y hy).expected
    rw [hP] at expected
    obtain ⟨rfl, rfl⟩ := expected
    obtain ⟨z, P, listens, -⟩ := h.hears.listens
    obtain rfl := Option.some.inj (hy.symm.trans listens.program)
    obtain rfl : P = .connection 0 point := hP
    obtain ⟨pending, stands, -⟩ := listens.progress
    cases stands with
    | start => exact h.ambles hy (by rintro _ _ ⟨⟩) hx delivers (ambles_start listens) g
    | reading => exact h.ambles hy (by rintro _ _ ⟨⟩) hx delivers (ambles_reading listens sends.within) g
    | handling =>
      cases pending with
      | nil => exact h.ambles hy (by rintro _ _ ⟨⟩) hx delivers (ambles_handled listens) g
      | cons frame rest => exact h.handles listens sends hx delivers g
    | ending =>
      have idle := delivers.1
      rw [hx] at idle spares
      exact h.ambles hy (by rintro _ _ ⟨⟩) hx delivers (ambles_ending listens idle fun z hz => (spares z hz).2) g
  | _ => exact h.others hy unfinished (by rw [hP]; rintro _ _ ⟨⟩) hx delivers spares g

/-- The turn of a process is over, as it has ended. -/
lemma rests (h : Visit service bodies arrived ended (some p) a)
    (done : ∀ z, a.system.processes[p]? = some z → z.program.isFinished = true) :
    Visit service bodies arrived ended none a :=
  ⟨h.tidy.rests done, h.reckoned, h.hears.rests done, h.served⟩

/-- A turn of a process, step by step. -/
lemma run (h : Visit service bodies arrived ended (some p) a) (sends : Sends service.settings bodies arrived) (steps : Nat)
    (unfinished : ∀ z, a.system.processes[p]? = some z → z.program.isFinished = false)
    (fair : ∀ x ∈ stepsOf p steps a.system, x.Delivers 0 ∧ x.Spares) :
    Visit service bodies arrived ended none
      { system := System.run p steps a.system, steps := a.steps ++ (stepsOf p steps a.system).map (p, ·) } := by
  induction steps generalizing a with
  | zero =>
    have woken := Rouses.wake a.system p
    rw [stepsOf, List.map_nil, List.append_nil]
    exact h.quiet h.tidy.pauses woken.contexts ((Mute.wake a.system p).sent 0) h.hears.pauses
  | succ steps ih =>
    rw [stepsOf] at fair ⊢
    rw [System.run]
    cases hP : a.system.program? p with
    | none =>
      rw [List.map_nil, List.append_nil]
      exact h.rests fun z hz => by cases hP.symm.trans (program?_of_getElem? hz)
    | some P =>
      obtain ⟨y, hy, rfl⟩ := exists_process hP
      have lasts := lasts_step a.system p (unfinished y hy)
      rw [hP] at fair
      dsimp only at fair ⊢
      rcases hstep : a.system.step p y.program with ⟨s', turn⟩
      rw [hstep] at fair lasts
      have taken {turning : Option ProcessId} {s'' : System} (g : s'.Goes p turn turning s'')
          (delivers : (⟨a.system, y.program, s', some turn⟩ : Step).Delivers 0)
          (spares : (⟨a.system, y.program, s', some turn⟩ : Step).Spares) :
          Visit service bodies arrived ended turning (a.take p ⟨a.system, y.program, s', some turn⟩ s'') :=
        h.step sends hy (unfinished y hy) (by rw [hstep]) delivers spares (by rw [hstep]; exact g)
      cases turn with
      | go next =>
        obtain ⟨⟨delivers, spares⟩, fair⟩ := List.forall_mem_cons.mp fair
        rw [List.map_cons, List.append_cons]
        refine ih (taken (.go next) delivers spares) (fun z hz => ?_) fair
        rw [Annals.take, setProgram, onProcess, List.getElem?_modify_eq, Option.map_eq_map, Option.map_eq_some_iff] at hz
        obtain ⟨z, -, rfl⟩ := hz
        exact lasts.unfinished (by simp)
      | wait next =>
        obtain ⟨delivers, spares⟩ := fair _ List.mem_cons_self
        exact taken (.wait next) delivers spares
      | done result =>
        obtain ⟨delivers, spares⟩ := fair _ List.mem_cons_self
        exact taken (.done result) delivers spares

/-- A process ends that was stopped. -/
lemma cancel (h : Visit service bodies arrived ended (some p) a) (hy : a.system.processes[p]? = some y)
    (unfinished : y.program.isFinished = false) (stopped : y.cancelled = true) :
    Visit service bodies arrived ended none
      (a.take p ⟨a.system, y.program, a.system.cancel p y.program, none⟩ (a.system.cancel p y.program)) := by
  have known := h.tidy.known p y hy
  obtain ⟨z, P, listens, -⟩ := h.hears.listens
  have other : p ≠ 0 := by
    rintro rfl
    obtain rfl := Option.some.inj (hy.symm.trans listens.program)
    cases stopped
  have unhandled : (⟨a.system, y.program, a.system.cancel p y.program, none⟩ : Step).entered? = none := by
    refine Step.entered?_eq_none fun n frame rest hP => ?_
    dsimp only at hP
    have expected := known.expected
    rw [hP] at expected
    exact other expected.2
  obtain ⟨s₁, mute, -, takes, cancels⟩ := Docket.Balanced.exists_cancel a.system p y.program
  have records : Records a.Holds a.system ⟨a.system, y.program, a.system.cancel p y.program, none⟩ s₁ :=
    .of_silent takes (.of_quiet mute.toQuiet) unhandled (mute.sent 0)
  have m : a.system.Moves p (.finished none) (a.system.cancel p y.program) := by
    rw [System.cancel, known.idle]
    exact .finish a.system p none
  refine h.take unhandled (records.quiet ?_ ?_) (h.tidy.cancel hy unfinished stopped) (h.hears.moves other m none)
  · exact m.contexts.trans mute.contexts.symm
  · rw [cancels]
    exact (Calm.finish s₁ p none).sent 0

/-- A process has its turn. -/
lemma turn (h : Visit service bodies arrived ended none a) (sends : Sends service.settings bodies arrived) (p : ProcessId)
    (allowance more : Nat)
    (fair : ∀ e ∈ (a.next (.turn p allowance more)).steps, e.2.Delivers 0 ∧ e.2.Spares) :
    Visit service bodies arrived ended none (a.next (.turn p allowance more)) := by
  have given (allowance : Nat) : Visit service bodies arrived ended (some p)
      { a with system := { a.system with ready := a.system.ready.erase p, allowance } } :=
    h.quiet (h.tidy.takesTurn p allowance) rfl rfl (h.hears.takesTurn p allowance)
  have none_ (done : ∀ z, a.system.processes[p]? = some z → z.program.isFinished = true) :
      Visit service bodies arrived ended none
        { system := { a.system with ready := a.system.ready.erase p }, steps := a.steps ++ [] } := by
    rw [List.append_nil]
    exact (given a.system.allowance).rests done
  rw [Annals.next] at fair ⊢
  dsimp only [System.turn] at fair ⊢
  cases hy : a.system.processes[p]? with
  | none =>
    dsimp only
    exact none_ fun z hz => by cases hy.symm.trans hz
  | some y =>
    rw [hy] at fair
    dsimp only at fair ⊢
    by_cases finished : y.program.isFinished = true
    · rw [if_pos finished]
      refine none_ fun z hz => ?_
      cases hy.symm.trans hz
      exact finished
    · rw [if_neg finished] at fair ⊢
      have unfinished := Bool.eq_false_iff.mpr finished
      by_cases stopped : y.cancelled = true
      · rw [if_pos stopped]
        exact (given a.system.allowance).cancel hy unfinished stopped
      · rw [if_neg stopped] at fair ⊢
        refine (given allowance).run sends (more + 1) (fun z hz => ?_) fun x hx => ?_
        · cases hy.symm.trans hz
          exact unfinished
        · exact fair (p, x) (List.mem_append_right _ (List.mem_map_of_mem hx))

end Visit

end GraphServer
