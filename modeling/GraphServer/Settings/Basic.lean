import GraphServer.Buffer.Allocator
import GraphServer.Frame.Handshake
import GraphServer.Frame.Splitter
import GraphServer.Settings.Document

/-!
The settings of a server and of its parts, their defaults, and how they are read from a configuration.
All durations are milliseconds.
-/

namespace GraphServer

/-! ### The queue of outgoing frames -/

/-- How many frames may wait for the transport, and for how long a sender waits for room. -/
structure WriterSettings where
  /-- How many frames may be on their way before senders have to wait. -/
  maxPendingFrames : Nat := 1024
  /-- How many frames the queue itself holds. -/
  channelCapacity : Nat := 1024
  /-- How long a sender waits while too many frames are on their way. -/
  backpressureTimeout : Nat := 5000
  deriving DecidableEq, Repr, Inhabited

/-- Changes the settings of a queue as a configuration says. -/
def WriterSettings.update? (s : WriterSettings) (d : Document) : Option WriterSettings := do
  match ← d.fields? ["max_pending_frames", "channel_capacity", "backpressure_timeout"] with
  | [pending, capacity, timeout] =>
    return {
      maxPendingFrames := ← Document.field Document.word64? s.maxPendingFrames pending
      channelCapacity := ← Document.field Document.word64? s.channelCapacity capacity
      backpressureTimeout := ← Document.field Document.word64? s.backpressureTimeout timeout }
  | _ => none

/-- Reads the settings of a queue. -/
def WriterSettings.ofDocument? : Document → Option WriterSettings :=
  WriterSettings.update? {}

/-- The configuration that sets everything as it is. -/
def WriterSettings.toDocument (s : WriterSettings) : Document :=
  .object [("max_pending_frames", .natural s.maxPendingFrames),
    ("channel_capacity", .natural s.channelCapacity),
    ("backpressure_timeout", .natural s.backpressureTimeout)]

/-! ### Sessions -/

/-- The limits on sessions. -/
structure SessionLimits where
  /-- How many sessions may accept tasks at a time. -/
  maxConcurrentSessions : Nat := 1024
  /-- How many tasks may wait in one session. -/
  maxQueuedTasks : Nat := 256
  /-- How long a session lives; zero for ever. -/
  lifetime : Nat := 600000
  deriving DecidableEq, Repr, Inhabited

/-- Changes the limits on sessions as a configuration says. -/
def SessionLimits.update? (s : SessionLimits) (d : Document) : Option SessionLimits := do
  match ← d.fields?
      ["max_concurrent_sessions", "max_queued_tasks_per_session", "session_lifetime_timeout"] with
  | [sessions, queued, lifetime] =>
    return {
      maxConcurrentSessions := ← Document.field Document.word64? s.maxConcurrentSessions sessions
      maxQueuedTasks := ← Document.field Document.word64? s.maxQueuedTasks queued
      lifetime := ← Document.field Document.word64? s.lifetime lifetime }
  | _ => none

/-- Reads the limits on sessions. -/
def SessionLimits.ofDocument? : Document → Option SessionLimits :=
  SessionLimits.update? {}

/-- The configuration that sets everything as it is. -/
def SessionLimits.toDocument (s : SessionLimits) : Document :=
  .object [("max_concurrent_sessions", .natural s.maxConcurrentSessions),
    ("max_queued_tasks_per_session", .natural s.maxQueuedTasks),
    ("session_lifetime_timeout", .natural s.lifetime)]

/-! ### The server -/

/-- The settings of a server. -/
structure ServerSettings where
  /-- The time limit of a request that sets none; zero for no limit. -/
  evaluationTimeout : Nat := 30000
  sessionLifetime : Nat := 600000
  maxQueuedTasks : Nat := 256
  maxConcurrentSessions : Nat := 1024
  contentType : String := defaultContentType
  maxFrameSize : Nat := FrameSplitter.defaultMaximum
  maxValueDepth : Nat := 256
  allocator : AllocatorKind := .pooledHeap
  writer : WriterSettings := {}
  deriving DecidableEq, Repr, Inhabited

namespace ServerSettings

/-- The names of the settings in a configuration, in their order. -/
def names : List String :=
  ["evaluation_timeout", "session_lifetime_timeout", "max_queued_tasks_per_session",
    "max_concurrent_sessions", "content_type", "max_frame_size", "max_value_depth", "allocator", "writer"]

/-- Changes the settings of a server as a configuration says. -/
def update? (s : ServerSettings) (d : Document) : Option ServerSettings := do
  match ← d.fields? names with
  | [evaluation, lifetime, queued, sessions, contentType, frame, depth, allocator, writer] =>
    return {
      evaluationTimeout := ← Document.field Document.word64? s.evaluationTimeout evaluation
      sessionLifetime := ← Document.field Document.word64? s.sessionLifetime lifetime
      maxQueuedTasks := ← Document.field Document.word64? s.maxQueuedTasks queued
      maxConcurrentSessions := ← Document.field Document.word64? s.maxConcurrentSessions sessions
      contentType := ← Document.field Document.text? s.contentType contentType
      maxFrameSize := ← Document.field Document.word32? s.maxFrameSize frame
      maxValueDepth := ← Document.field Document.word64? s.maxValueDepth depth
      allocator := ← Document.field (fun d => d.keyword?.bind AllocatorKind.ofKeyword?) s.allocator allocator
      writer := ← Document.field WriterSettings.ofDocument? s.writer writer }
  | _ => none

/-- Reads the settings of a server. -/
def ofDocument? : Document → Option ServerSettings :=
  update? {}

/-- The configuration that sets everything as it is. -/
def toDocument (s : ServerSettings) : Document :=
  .object (names.zip [.natural s.evaluationTimeout, .natural s.sessionLifetime, .natural s.maxQueuedTasks,
    .natural s.maxConcurrentSessions, .text s.contentType, .natural s.maxFrameSize,
    .natural s.maxValueDepth, .text s.allocator.keyword, s.writer.toDocument])

/-- The limits on the sessions of a server. -/
def limits (s : ServerSettings) : SessionLimits :=
  { maxConcurrentSessions := s.maxConcurrentSessions
    maxQueuedTasks := s.maxQueuedTasks
    lifetime := s.sessionLifetime }

/-- Fails unless a server can run under these settings: its content type has to fit an announcement. -/
def validate (s : ServerSettings) : Except Error ServerSettings := do
  checkContentType s.contentType
  return s

end ServerSettings

end GraphServer
