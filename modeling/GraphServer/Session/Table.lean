import GraphServer.Session.Basic

/-!
The sessions of a server: those that clients named, by their names, and those for single tasks.

Sessions that no longer accept tasks leave the table of names when it is next used; those for single
tasks leave when they are terminated.
-/

namespace GraphServer

/-- The sessions of a server. -/
structure SessionTable where
  named : List (String × SessionId) := []
  singles : List SessionId := []
  deriving DecidableEq, Repr

namespace SessionTable

/-- Drops the named sessions that do not satisfy a condition. -/
def keepNamed (t : SessionTable) (keep : SessionId → Bool) : SessionTable :=
  { t with named := t.named.filter fun e => keep e.2 }

/-- Drops the sessions for single tasks that do not satisfy a condition. -/
def keepSingles (t : SessionTable) (keep : SessionId → Bool) : SessionTable :=
  { t with singles := t.singles.filter keep }

/-- The session with a name. -/
def find? (t : SessionTable) (name : String) : Option SessionId :=
  t.named.lookup name

/-- Adds a named session. -/
def insert (t : SessionTable) (name : String) (s : SessionId) : SessionTable :=
  { t with named := t.named ++ [(name, s)] }

/-- Takes the session with a name out. -/
def erase (t : SessionTable) (name : String) : SessionTable :=
  { t with named := t.named.filter fun e => e.1 != name }

/-- Adds a session for a single task. -/
def insertSingle (t : SessionTable) (s : SessionId) : SessionTable :=
  { t with singles := t.singles ++ [s] }

/-- All sessions of the table, the named ones first. -/
def all (t : SessionTable) : List SessionId :=
  t.named.map (·.2) ++ t.singles

end SessionTable

end GraphServer
