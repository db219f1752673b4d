import GraphServer.Proofs.Server.Serving

/-!
The history of a server with any number of sessions.

* `Happening`: what can happen next; sessions are opened and ended by the manager only, and any process may have a
  turn, of any length and with any allowance;
* `Annals`: where the server stands, and the steps taken;
* `Annals.Faithful`: the server is managed, and no handler has taken a step in a session that was over;
* `Annals.faithful_play`: this holds whatever happens.
-/

namespace GraphServer

/-- What can happen to a server. -/
inductive Happening where
  /-- A channel to a transport is opened. -/
  | openChannel (transport : Transport)
  /-- The session with a name is asked for over a channel. -/
  | getOrCreate (name : String) (c : ChannelId)
  /-- A session for one task is asked for over a channel. -/
  | single (c : ChannelId)
  /-- A request is submitted to a session, to be answered over a channel. -/
  | submit (i : SessionId) (r : Request) (c : ChannelId)
  /-- A session is to accept nothing more. -/
  | close (i : SessionId)
  /-- The session with a name is to accept nothing more. -/
  | closeNamed (name : String)
  /-- The sessions of a channel are to end. -/
  | closeBoundTo (c : ChannelId)
  /-- The named sessions that accept tasks are counted. -/
  | countNamed
  /-- The sessions for single tasks that are not terminated are counted. -/
  | countSingles
  /-- Somebody declares that the time of a session or of the task in it is up. -/
  | timeout (i : SessionId) (elapsed : Nat) (ofSession : Bool)
  /-- A process has its turn, of at most so many steps after the first one. -/
  | turn (p : ProcessId) (allowance more : Nat)
  /-- The processes that were set aside come back. -/
  | bringBack
  /-- The timers reach a time. -/
  | ring (now : Nat)
  /-- The clock on which the patience of senders is measured reaches a time. -/
  | wait (wall : Nat)
  /-- Something is to be put into the queue of a channel. -/
  | deliver (c : ChannelId) (d : Delivery)
  /-- A transport stalls, goes on or changes in any other way. -/
  | transport (c : ChannelId) (f : Transport → Transport)
  /-- Nobody is left who could send over a channel. -/
  | abandon (c : ChannelId)
  /-- A client connects over a transport. -/
  | connect (transport : Transport)
  /-- Bytes arrive from a client. -/
  | receive (n : ConnectionId) (bytes : Bytes)
  /-- No more bytes will arrive from a client. -/
  | endInbound (n : ConnectionId)
  /-- A client goes away. -/
  | disconnect (n : ConnectionId)

/-- The history of a server. -/
structure Annals where
  system : System
  /-- The steps taken, in order, each with the process that took it. -/
  steps : List (ProcessId × Step) := []

namespace Annals

/-- The beginning of the history. -/
def start (service : Service) : Annals :=
  { system := { service } }

/-- The annals after something happened. -/
def next (a : Annals) : Happening → Annals
  | .openChannel transport => { a with system := (a.system.openChannel transport).1 }
  | .getOrCreate name c => { a with system := (a.system.getOrCreate name c).1 }
  | .single c => { a with system := (a.system.single c).1 }
  | .submit i r c => { a with system := (a.system.submit c i r).1 }
  | .close i => { a with system := a.system.closeMulti i }
  | .closeNamed name => { a with system := (a.system.closeSession name).1 }
  | .closeBoundTo c => { a with system := a.system.closeBoundTo c }
  | .countNamed => { a with system := a.system.sessionCount.1 }
  | .countSingles => { a with system := a.system.runningSingles.1 }
  | .timeout i elapsed ofSession => { a with system := (a.system.spawn (.timeout i elapsed ofSession .start)).1 }
  | .turn p allowance more =>
    let (s, taken) := { a.system with ready := a.system.ready.erase p }.turn p allowance (more + 1)
    { system := s, steps := a.steps ++ taken.map (p, ·) }
  | .bringBack => { a with system := a.system.bringBack }
  | .ring now => { a with system := a.system.ring now }
  | .wait wall => { a with system := { a.system with wall } }
  | .deliver c d => { a with system := (a.system.spawn (.delivery c d .start)).1 }
  | .transport c f => { a with system := a.system.onTransport c f }
  | .abandon c => { a with system := a.system.abandon c }
  | .connect transport => { a with system := (a.system.connect transport).1 }
  | .receive n bytes => { a with system := a.system.receive n bytes }
  | .endInbound n => { a with system := a.system.endInbound n }
  | .disconnect n => { a with system := a.system.disconnect n }

/-- The annals after all that happened. -/
def play (a : Annals) (happenings : List Happening) : Annals :=
  happenings.foldl next a

/-- The handlers that were started for a session. -/
def Handles (a : Annals) : SessionId → ProcessId → Prop :=
  System.With (fun _ _ => False) (a.steps.map (·.2))

/-- The server is managed, all that took steps are known, and no handler of a session that was over took one. -/
structure Faithful (a : Annals) : Prop where
  managed : System.Managed a.Handles a.system
  known : ∀ e ∈ a.steps, e.1 < a.system.processes.length
  told : ∀ e ∈ a.steps, e.2.turn.isSome = true → ∀ i, a.Handles i e.1 →
    ∀ x, e.2.before.sessions[i]? = some x → x.isOver = false

end Annals

/-! ### What reaches the server -/

namespace System

variable {own : SessionId → ProcessId → Prop} {s s' : System}

namespace Quiet

lemma wakeReader (s : System) (n : ConnectionId) : s.Quiet (s.wakeReader n) := by
  rw [System.wakeReader]
  split
  · exact wakeIf s _ _
  · exact refl s

lemma receive (s : System) (n : ConnectionId) (bytes : Bytes) : s.Quiet (s.receive n bytes) :=
  (onConnection s n _).trans (wakeReader _ n)

lemma endInbound (s : System) (n : ConnectionId) : s.Quiet (s.endInbound n) :=
  (onConnection s n _).trans (wakeReader _ n)

lemma disconnect (s : System) (n : ConnectionId) : s.Quiet (s.disconnect n) := by
  rw [System.disconnect]
  split
  · exact refl s
  · exact (endInbound s n).trans (onChannel _ _ _)

lemma onTransport (s : System) (c : ChannelId) (f : Transport → Transport) : s.Quiet (s.onTransport c f) :=
  (onChannel s c _).trans (wakeAll _ _)

lemma abandon (s : System) (c : ChannelId) : s.Quiet (s.abandon c) :=
  (onChannel s c _).trans (wakeReceiver _ c)

end Quiet

/-- What happens to a server is a turn of a process, or within a relation that comprises what the manager does. -/
lemma Comprises.next {R : System → System → Prop} (h : Comprises R) (a : Annals) (happening : Happening) :
    (∃ p allowance more, happening = .turn p allowance more) ∨
      R a.system (a.next happening).system ∧ (a.next happening).steps = a.steps := by
  cases happening with
  | turn p allowance more => exact .inl ⟨p, allowance, more, rfl⟩
  | openChannel transport => exact .inr ⟨h.openChannel _ transport, rfl⟩
  | getOrCreate name c => exact .inr ⟨h.getOrCreate _ name c, rfl⟩
  | single c => exact .inr ⟨h.single _ c, rfl⟩
  | submit i r c => exact .inr ⟨h.submit _ c i r, rfl⟩
  | close i => exact .inr ⟨h.closeMulti _ i, rfl⟩
  | closeNamed name => exact .inr ⟨h.closeSession _ name, rfl⟩
  | closeBoundTo c => exact .inr ⟨h.closeBoundTo _ c, rfl⟩
  | countNamed => exact .inr ⟨h.sessionCount _, rfl⟩
  | countSingles => exact .inr ⟨h.runningSingles _, rfl⟩
  | timeout i elapsed ofSession => exact .inr ⟨h.spawn _ fun _ => rfl, rfl⟩
  | bringBack => exact .inr ⟨h.still (Quiet.bringBack _).toStill, rfl⟩
  | ring now => exact .inr ⟨h.still (Quiet.ring _ now).toStill, rfl⟩
  | wait wall => exact .inr ⟨h.still ⟨rfl, rfl, rfl, rfl⟩, rfl⟩
  | deliver c d => exact .inr ⟨h.spawn _ fun _ => rfl, rfl⟩
  | transport c f => exact .inr ⟨h.still (Quiet.onTransport _ c f).toStill, rfl⟩
  | abandon c => exact .inr ⟨h.still (Quiet.abandon _ c).toStill, rfl⟩
  | connect transport => exact .inr ⟨h.connect _ transport, rfl⟩
  | receive n bytes => exact .inr ⟨h.still (Quiet.receive _ n bytes).toStill, rfl⟩
  | endInbound n => exact .inr ⟨h.still (Quiet.endInbound _ n).toStill, rfl⟩
  | disconnect n => exact .inr ⟨h.still (Quiet.disconnect _ n).toStill, rfl⟩

end System

namespace Annals

open GraphServer.System

variable {a : Annals} {s' : System}

/-! ### The history -/

/-- An empty server is managed. -/
lemma faithful_start (service : Service) : (start service).Faithful where
  managed := by
    have hhandles (i : SessionId) (p : ProcessId) (hp : (start service).Handles i p) : False :=
      System.with_nil.mp hp
    have hunattended (i : SessionId) : (start service).system.Unattended i := fun p program hp => by
      cases hp
    refine ⟨⟨fun i => ⟨fun p hp => (hhandles i p hp).elim, fun _ => ⟨hunattended i, fun p hp => (hhandles i p hp).elim⟩,
      fun p q program _ hp => ?_, fun p hp => (hhandles i p hp).elim, fun x hx => ?_, fun x hx => ?_, fun x hx => ?_⟩,
      ⟨List.nodup_nil, fun i x hx => ?_, fun i x hx => ?_, nofun, nofun, Nat.zero_le _⟩⟩,
      fun i p hp => (hhandles i p hp).elim⟩
    · cases hp
    all_goals cases hx
  known _ he := absurd he List.not_mem_nil
  told _ he := absurd he List.not_mem_nil

lemma handles_append (a : Annals) (s' : System) (p : ProcessId) (taken : List Step) {i : SessionId} {q : ProcessId} :
    (⟨s', a.steps ++ taken.map (p, ·)⟩ : Annals).Handles i q ↔ With a.Handles taken i q := by
  rw [Handles, List.map_append, with_append, List.map_map]
  exact iff_of_eq (congrArg (With _ · i q) (List.map_id taken))

/-- When a process took steps, each of which found a later state, all that took steps are known, and no handler of a
session that was over took one. -/
lemma told_append {p : ProcessId} {taken : List Step} (known : ∀ e ∈ a.steps, e.1 < a.system.processes.length)
    (told : ∀ e ∈ a.steps, e.2.turn.isSome = true → ∀ i, a.Handles i e.1 →
      ∀ x, e.2.before.sessions[i]? = some x → x.isOver = false)
    (later : a.system.Later s') (before : ∀ x ∈ taken, a.system.Later x.before)
    (knownNow : ∀ x ∈ taken, p < a.system.processes.length)
    (toldNow : ∀ x ∈ taken, x.turn.isSome = true → ∀ i, a.Handles i p →
      ∀ y, x.before.sessions[i]? = some y → y.isOver = false) :
    let b : Annals := ⟨s', a.steps ++ taken.map (p, ·)⟩
    (∀ e ∈ b.steps, e.1 < s'.processes.length) ∧ ∀ e ∈ b.steps, e.2.turn.isSome = true → ∀ i, b.Handles i e.1 →
      ∀ x, e.2.before.sessions[i]? = some x → x.isOver = false := by
  intro b
  -- The handlers that were just started have taken no steps.
  have hold (i : SessionId) (q : ProcessId) (hq : q < a.system.processes.length) (hhandler : b.Handles i q) :
      a.Handles i q := by
    refine ((a.handles_append s' p taken).mp hhandler).resolve_right fun ⟨x, hx, hstarts⟩ => Nat.not_le.mpr hq ?_
    exact (before x hx).grows.trans (new_of_starts hstarts).1.1
  refine ⟨fun e he => ?_, fun e he hturn i hhandler y hy => ?_⟩
  · rcases List.mem_append.mp he with hpast | hnow
    · exact (known e hpast).trans_le later.grows
    · obtain ⟨x, hx, rfl⟩ := List.mem_map.mp hnow
      exact (knownNow x hx).trans_le later.grows
  · rcases List.mem_append.mp he with hpast | hnow
    · exact told e hpast hturn i (hold i e.1 (known e hpast) hhandler) y hy
    · obtain ⟨x, hx, rfl⟩ := List.mem_map.mp hnow
      exact toldNow x hx hturn i (hold i p (knownNow x hx) hhandler) y hy

namespace Faithful

/-- What happens without any steps. -/
lemma of_onward (h : a.Faithful) (kept : Sound a.Handles s' ∧ a.system.Onward s') :
    ({ a with system := s' } : Annals).Faithful where
  managed := h.managed.of_onward kept
  known e he := (h.known e he).trans_le kept.2.grows
  told := h.told

/-- A process takes steps, each of which finds a later state. -/
lemma of_taken (h : a.Faithful) {p : ProcessId} {taken : List Step} (managed : Managed (With a.Handles taken) s')
    (later : a.system.Later s') (before : ∀ x ∈ taken, a.system.Later x.before)
    (known : ∀ x ∈ taken, p < a.system.processes.length)
    (told : ∀ x ∈ taken, x.turn.isSome = true → ∀ i, a.Handles i p →
      ∀ y, x.before.sessions[i]? = some y → y.isOver = false) :
    (⟨s', a.steps ++ taken.map (p, ·)⟩ : Annals).Faithful :=
  have htold := told_append h.known h.told later before known told
  ⟨managed.mono fun _ _ => (a.handles_append s' p taken).mp, htold.1, htold.2⟩

/-- A process has its turn. -/
lemma turn (h : a.Faithful) (p : ProcessId) (allowance more : Nat) :
    (a.next (.turn p allowance more)).Faithful ∧ a.system.Later (a.next (.turn p allowance more)).system ∧
      ∃ taken, (a.next (.turn p allowance more)).steps = a.steps ++ taken ∧
        ∀ e ∈ taken, a.system.Later e.2.before := by
  have hready : a.system.Still { a.system with ready := a.system.ready.erase p } := ⟨rfl, rfl, rfl, rfl⟩
  have hlater : a.system.Later { a.system with ready := a.system.ready.erase p } := .of_onward (.of_still hready)
  obtain ⟨hturn, hafter, hbefore, hknown, htold⟩ := (h.managed.of_still hready).turn p allowance (more + 1)
  have hfound (x : Step) (hx : x ∈ _) := hlater.trans (hbefore x hx)
  refine ⟨h.of_taken hturn (hlater.trans hafter) hfound hknown htold, hlater.trans hafter, _, rfl, fun e he => ?_⟩
  obtain ⟨x, hx, rfl⟩ := List.mem_map.mp he
  exact hfound x hx

/-- Whatever happens, the annals stay faithful, and sessions only go on. -/
lemma next (h : a.Faithful) (happening : Happening) :
    (a.next happening).Faithful ∧ a.system.Later (a.next happening).system ∧
      ∃ taken, (a.next happening).steps = a.steps ++ taken ∧ ∀ e ∈ taken, a.system.Later e.2.before := by
  obtain ⟨p, allowance, more, rfl⟩ | ⟨kept, steps⟩ := (Sound.comprises a.Handles).next a happening
  · exact h.turn p allowance more
  · have hkept := kept h.managed.toSound
    have hnext : a.next happening = { a with system := (a.next happening).system } := congrArg (Annals.mk _) steps
    refine ⟨hnext ▸ h.of_onward hkept, .of_onward hkept.2, [], ?_, fun _ he => absurd he List.not_mem_nil⟩
    rw [steps, List.append_nil]

lemma play (h : a.Faithful) (happenings : List Happening) :
    (a.play happenings).Faithful ∧ a.system.Later (a.play happenings).system ∧
      ∃ taken, (a.play happenings).steps = a.steps ++ taken ∧ ∀ e ∈ taken, a.system.Later e.2.before := by
  induction happenings generalizing a with
  | nil => exact ⟨h, .refl _, [], (List.append_nil _).symm, fun _ he => absurd he List.not_mem_nil⟩
  | cons happening happenings ih =>
    obtain ⟨hnext, hlater, taken, htaken, hbefore⟩ := h.next happening
    obtain ⟨hplay, hlater', taken', htaken', hbefore'⟩ := ih hnext
    refine ⟨hplay, hlater.trans hlater', taken ++ taken', ?_, fun e he => ?_⟩
    · exact (htaken'.trans (by rw [htaken, List.append_assoc]) :)
    · exact (List.mem_append.mp he).elim (hbefore e) fun hrest => hlater.trans (hbefore' e hrest)

end Faithful

/-- The annals of a server are faithful. -/
lemma faithful_play (service : Service) (happenings : List Happening) : ((start service).play happenings).Faithful :=
  ((faithful_start service).play happenings).1

end Annals

end GraphServer
