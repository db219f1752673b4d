import GraphServer.Proofs.System.Quiet
import GraphServer.Proofs.Server.Affects
import GraphServer.System.Connection

/-!
What the operations on a server are made of.

Requests are routed, connections are served and channels are opened by what the manager of sessions does and by changes
that concern no session. So a relation between states of a server that comprises these comprises the rest.

* `System.Comprises`: a relation comprises what the manager does;
* `System.Comprises.stepConnection`: it comprises every step of a connection.
-/

namespace GraphServer.System

/-- A relation between states of a server comprises what the manager of sessions does, and what concerns no session. -/
structure Comprises (R : System → System → Prop) : Prop where
  still : ∀ {s s' : System}, s.Still s' → R s s'
  trans : ∀ {s s' s'' : System}, R s s' → R s' s'' → R s s''
  spawn : ∀ (s : System) {program : Program}, (∀ i, program.attends i = false) → R s (s.spawn program).1
  submit : ∀ (s : System) (c : ChannelId) (i : SessionId) (r : Request), R s (s.submit c i r).1
  getOrCreate : ∀ (s : System) (name : String) (c : ChannelId), R s (s.getOrCreate name c).1
  single : ∀ (s : System) (c : ChannelId), R s (s.single c).1
  closeMulti : ∀ (s : System) (i : SessionId), R s (s.closeMulti i)
  closeSession : ∀ (s : System) (name : String), R s (s.closeSession name).1
  closeBoundTo : ∀ (s : System) (c : ChannelId), R s (s.closeBoundTo c)
  sessionCount : ∀ s : System, R s s.sessionCount.1
  runningSingles : ∀ s : System, R s s.runningSingles.1

namespace Comprises

variable {R : System → System → Prop}

/-! ### Requests -/

lemma route (h : Comprises R) (s : System) (c : ChannelId) (r : Request) : R s (s.route c r).1 := by
  have outcome := s.route_outcome c r
  generalize s.route c r = x at outcome ⊢
  cases outcome with
  | lone => exact h.trans (h.single s c) (h.submit _ c _ r)
  | closes => exact h.closeSession s _
  | enters => exact h.trans (h.getOrCreate s _ c) (h.submit _ c _ r)
  | refused => exact h.getOrCreate s _ c

/-! ### Channels and connections -/

lemma spawnWriter (h : Comprises R) (s : System) (c : ChannelId) : R s (s.spawnWriter c) :=
  h.trans (h.spawn s fun _ => rfl) (h.still (Quiet.onChannel _ c _).toStill)

lemma openChannel (h : Comprises R) (s : System) (transport : Transport) : R s (s.openChannel transport).1 :=
  have hadd : R s (s.addChannel transport).1 := h.still ⟨rfl, rfl, rfl, rfl⟩
  h.trans hadd (h.spawnWriter _ _)

lemma connect (h : Comprises R) (s : System) (transport : Transport) : R s (s.connect transport).1 := by
  have hadd : R s (s.addChannel transport).1 := h.still ⟨rfl, rfl, rfl, rfl⟩
  have hspawn : R (s.addChannel transport).1
      ((s.addChannel transport).1.spawn (.connection s.connections.length .start)).1 := h.spawn _ fun _ => rfl
  exact h.trans (h.trans hadd hspawn) (h.still ⟨rfl, rfl, rfl, rfl⟩)

lemma read (h : Comprises R) (s : System) (n : ConnectionId) (x : Connection) : R s (s.read n x).1 := by
  have outcome := s.read_outcome n x
  generalize s.read n x = y at outcome ⊢
  cases outcome with
  | waits => exact h.still (.refl s)
  | ends spent => exact h.still (Quiet.spend? spent).toStill
  | cuts spent | jams spent => exact h.still ((Quiet.spend? spent).trans (Quiet.onConnection _ n _)).toStill

lemma handle (h : Comprises R) (s : System) (p : ProcessId) (n : ConnectionId) (x : Connection) (frame : Bytes)
    (rest : List Bytes) : R s (s.handle p n x frame rest).1 := by
  have shaken : s.Quiet (s.shake n x frame) := .onConnection s n _
  have routed (r : Request) : R s ((s.shake n x frame).route x.channel r).1 :=
    h.trans (h.still shaken.toStill) (h.route _ x.channel r)
  have outcome := s.handle_outcome p n x frame rest
  generalize s.handle p n x frame rest = y at outcome ⊢
  cases outcome with
  | unopened | undecoded =>
    rw [Transit.turn_fst]
    exact h.still (shaken.trans (.sendResponse _ p x.channel _)).toStill
  | accepts => exact routed _
  | replies =>
    rw [Transit.turn_fst]
    exact h.trans (routed _) (h.still (Quiet.sendResponse _ p x.channel _).toStill)

/-- Whatever comprises what the manager does comprises every step of a connection. -/
lemma stepConnection (h : Comprises R) (s : System) (p : ProcessId) (n : ConnectionId) (point : ConnectionPoint) :
    R s (s.stepConnection p n point).1 := by
  have outcome := s.stepConnection_outcome p n point
  generalize s.stepConnection p n point = y at outcome ⊢
  cases outcome with
  | strays | handled => exact h.still (.refl s)
  | starts => exact h.spawnWriter s _
  | reads => exact h.read s n _
  | handles => exact h.handle s p n _ _ _
  | replies | excuses =>
    rw [Transit.turn_fst]
    exact h.still (Quiet.resume s p _).toStill
  | @ends x =>
    rw [hangUp_fst]
    exact h.trans (h.closeBoundTo s x.channel) (h.still (Quiet.closeChannel _ p x.channel).toStill)
  | closes =>
    rw [hangUp_fst]
    exact h.still (Quiet.resume s p _).toStill

end Comprises

end GraphServer.System
