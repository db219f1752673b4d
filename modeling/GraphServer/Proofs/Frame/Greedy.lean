import GraphServer.Frame.Splitter
import Mathlib.Tactic

/-!
A stream is cut into the same frames however it is chunked.

* `Greedy.of`: a whole stream taken apart from its start, one frame after the other;
* `Greedy.of_append`: what was taken off a part of it stays taken off;
* `FrameSplitter.drain_within`: the steps of a splitter take a stream apart in this way;
* `FrameSplitter.pushAll_within`: **so they do chunk by chunk**, as long as no prefix is above the maximum.
-/

namespace GraphServer

/-! ### Streams -/

/-- A stream taken apart from its start. -/
structure Greedy where
  /-- The bodies of its complete frames. -/
  bodies : List Bytes
  /-- Whether what is behind them lacks a length prefix or a body. -/
  state : FrameState
  /-- The bytes that are there of it. -/
  rest : Bytes
  deriving DecidableEq, Repr

namespace Greedy

/-- With a body in front. -/
def cons (body : Bytes) (g : Greedy) : Greedy :=
  { g with bodies := body :: g.bodies }

/-- With bodies in front. -/
def prepend (bodies : List Bytes) (g : Greedy) : Greedy :=
  { g with bodies := bodies ++ g.bodies }

@[simp] lemma prepend_nil (g : Greedy) : prepend [] g = g := rfl

@[simp] lemma prepend_cons (body : Bytes) (bodies : List Bytes) (g : Greedy) :
    prepend (body :: bodies) g = cons body (prepend bodies g) := rfl

/-- Takes a stream apart: four bytes spell a length, as many bytes as it says are a body, and the same again
as long as both are there. -/
def of (stream : Bytes) : Greedy :=
  let announced := Bytes.toNat (stream.take 4)
  let behind := stream.drop 4
  if stream.length < 4 then ⟨[], .length, stream⟩
  else if behind.length < announced then ⟨[], .body announced, behind⟩
  else (of (behind.drop announced)).cons (behind.take announced)
termination_by stream.length
decreasing_by
  simp only [List.length_drop]
  omega

/-- Takes apart what comes when a prefix may have been taken off before. -/
def resume : FrameState → Bytes → Greedy
  | .length, stream => of stream
  | .body announced, stream =>
    if stream.length < announced then ⟨[], .body announced, stream⟩
    else (of (stream.drop announced)).cons (stream.take announced)

lemma of_short {stream : Bytes} (h : stream.length < 4) : of stream = ⟨[], .length, stream⟩ := by
  rw [of]
  exact if_pos h

lemma of_nil : of [] = ⟨[], .length, []⟩ :=
  of_short (by decide)

lemma of_announced {stream : Bytes} (h : 4 ≤ stream.length) :
    of stream = resume (.body (Bytes.toNat (stream.take 4))) (stream.drop 4) := by
  rw [of, resume]
  exact if_neg (Nat.not_lt.mpr h)

lemma resume_starved {announced : Nat} {stream : Bytes} (h : stream.length < announced) :
    resume (.body announced) stream = ⟨[], .body announced, stream⟩ :=
  if_pos h

lemma resume_served {announced : Nat} {stream : Bytes} (h : announced ≤ stream.length) :
    resume (.body announced) stream = (of (stream.drop announced)).cons (stream.take announced) :=
  if_neg (Nat.not_lt.mpr h)

/-- A property of every stream in every state, from what it follows from: a body that is there was taken off
before the rest of the stream is looked at. -/
lemma resume_induction {P : FrameState → Bytes → Prop} (short : ∀ stream, stream.length < 4 → P .length stream)
    (announced : ∀ stream, 4 ≤ stream.length → P (.body (Bytes.toNat (stream.take 4))) (stream.drop 4) → P .length stream)
    (starved : ∀ n stream, stream.length < n → P (.body n) stream)
    (served : ∀ n stream, n ≤ stream.length → P .length (stream.drop n) → P (.body n) stream)
    (state : FrameState) (stream : Bytes) : P state stream := by
  -- the stream gets shorter with a prefix, and not longer with a body, after which the state is another one
  have hbody (limit : Nat) (ih : ∀ stream : Bytes, stream.length ≤ limit → P .length stream) (n : Nat)
      (stream : Bytes) (h : stream.length ≤ limit) : P (.body n) stream := by
    rcases Nat.lt_or_ge stream.length n with hlt | hle
    · exact starved n stream hlt
    · exact served n stream hle (ih _ (by rw [List.length_drop]; omega))
  have hlength (limit : Nat) : ∀ stream : Bytes, stream.length ≤ limit → P .length stream := by
    induction limit with
    | zero => exact fun stream h => short stream (by omega)
    | succ limit ih =>
      intro stream h
      rcases Nat.lt_or_ge stream.length 4 with hlt | hle
      · exact short stream hlt
      · exact announced stream hle (hbody limit ih _ _ (by rw [List.length_drop]; omega))
  cases state with
  | length => exact hlength _ stream le_rfl
  | body n => exact hbody _ (hlength stream.length) n stream le_rfl

/-- What is behind the last complete frame is too short. -/
def Waits : FrameState → Bytes → Prop
  | .length, rest => rest.length < 4
  | .body announced, rest => rest.length < announced

lemma resume_waits (state : FrameState) (stream : Bytes) :
    Waits (resume state stream).state (resume state stream).rest := by
  induction state, stream using resume_induction with
  | short stream h => rwa [resume, of_short h]
  | announced stream h ih => rwa [resume, of_announced h]
  | starved n stream h => rwa [resume_starved h]
  | served n stream h ih => rwa [resume_served h]

/-- What was taken off the first part of a stream stays taken off, and the rest is taken apart with the second
part. -/
lemma resume_append (state : FrameState) (first second : Bytes) :
    resume state (first ++ second) =
      (resume (resume state first).state ((resume state first).rest ++ second)).prepend (resume state first).bodies := by
  induction state, first using resume_induction with
  | short stream h => rw [show resume .length stream = _ from of_short h, prepend_nil]
  | announced stream h ih =>
    have hlong : 4 ≤ (stream ++ second).length := by rw [List.length_append]; omega
    calc resume .length (stream ++ second)
      _ = resume (.body (Bytes.toNat (stream.take 4))) (stream.drop 4 ++ second) := by
        rw [resume, of_announced hlong, List.take_append_of_le_length h, List.drop_append_of_le_length h]
      _ = _ := ih
      _ = _ := by rw [show resume .length stream = _ from of_announced h]
  | starved n stream h => rw [resume_starved h, prepend_nil]
  | served n stream h ih =>
    have hlong : n ≤ (stream ++ second).length := by rw [List.length_append]; omega
    calc resume (.body n) (stream ++ second)
      _ = (of (stream.drop n ++ second)).cons (stream.take n) := by
        rw [resume_served hlong, List.take_append_of_le_length h, List.drop_append_of_le_length h]
      _ = _ := congrArg (cons (stream.take n)) ih
      _ = _ := by rw [resume_served h]; rfl

/-- What was taken off the first part of a stream stays taken off. -/
lemma of_append (first second : Bytes) :
    of (first ++ second) = (resume (of first).state ((of first).rest ++ second)).prepend (of first).bodies :=
  resume_append .length first second

/-! ### Greatest lengths -/

/-- No prefix that was reached is above a maximum. -/
structure Within (maximum : Nat) (g : Greedy) : Prop where
  bodies : ∀ body ∈ g.bodies, body.length ≤ maximum
  pending : ∀ announced, g.state = .body announced → announced ≤ maximum

variable {maximum : Nat} {g : Greedy}

lemma within_cons {body : Bytes} : (g.cons body).Within maximum ↔ body.length ≤ maximum ∧ g.Within maximum := by
  constructor
  · rintro ⟨hbodies, hpending⟩
    exact ⟨hbodies body List.mem_cons_self, fun b hb => hbodies b (List.mem_cons_of_mem _ hb), hpending⟩
  · rintro ⟨hbody, hbodies, hpending⟩
    exact ⟨List.forall_mem_cons.mpr ⟨hbody, hbodies⟩, hpending⟩

lemma Within.of_prepend {bodies : List Bytes} (h : (g.prepend bodies).Within maximum) : g.Within maximum := by
  induction bodies with
  | nil => exact h
  | cons body bodies ih => exact ih (within_cons.mp h).2

lemma Within.announced {n : Nat} {stream : Bytes} (h : (resume (.body n) stream).Within maximum) : n ≤ maximum := by
  rcases Nat.lt_or_ge stream.length n with hlt | hle
  · rw [resume_starved hlt] at h
    exact h.pending n rfl
  · rw [resume_served hle] at h
    have hbody := (within_cons.mp h).1
    rwa [List.length_take_of_le hle] at hbody

/-- A part of a stream reaches no prefix that the whole does not reach. -/
lemma Within.of_append {first second : Bytes} (h : (of (first ++ second)).Within maximum) : (of first).Within maximum := by
  rw [Greedy.of_append] at h
  refine ⟨fun body hbody => h.bodies body (List.mem_append_left _ hbody), fun n hn => ?_⟩
  have hrest := h.of_prepend
  rw [hn] at hrest
  exact hrest.announced

end Greedy

namespace FrameSplitter

variable {maximum : Nat}

/-! ### Steps -/

/-- The splitter that stands where a stream was taken apart so far. -/
def behind (maximum : Nat) (g : Greedy) : FrameSplitter :=
  { maximum, buffered := g.rest, state := g.state }

/-- The splitter has too few bytes for what it waits for. -/
def Waits (s : FrameSplitter) : Prop :=
  Greedy.Waits s.state s.buffered

lemma decode?_short {bytes : Bytes} (h : bytes.length < 4) : LengthPrefix.decode? bytes = none := by
  rw [LengthPrefix.decode?, List.length_take, LengthPrefix.width, if_pos (by omega)]

lemma decode?_announced {bytes : Bytes} (h : 4 ≤ bytes.length) :
    LengthPrefix.decode? bytes = some (Bytes.toNat (bytes.take 4)) := by
  rw [LengthPrefix.decode?, List.length_take, LengthPrefix.width, if_neg (by omega)]

lemma cut_short {stream : Bytes} (h : stream.length < 4) : cut { maximum, buffered := stream } = .starved := by
  rw [cut, decode?_short h]

lemma cut_announced {stream : Bytes} (h : 4 ≤ stream.length) (le : Bytes.toNat (stream.take 4) ≤ maximum) :
    cut { maximum, buffered := stream } =
      .announced { maximum, buffered := stream.drop 4, state := .body (Bytes.toNat (stream.take 4)) } := by
  rw [cut, decode?_announced h]
  exact if_neg (Nat.not_lt.mpr le)

lemma cut_starved {n : Nat} {stream : Bytes} (h : stream.length < n) :
    cut { maximum, buffered := stream, state := .body n } = .starved := by
  rw [cut]
  dsimp only
  rw [cut.splitBody, List.length_take, if_pos (by omega)]

lemma cut_served {n : Nat} {stream : Bytes} (h : n ≤ stream.length) :
    cut { maximum, buffered := stream, state := .body n } =
      .frame (stream.take n) { maximum, buffered := stream.drop n } := by
  rw [cut]
  dsimp only
  rw [cut.splitBody, List.length_take, if_neg (by omega)]

/-- How many steps are enough: two for a frame, of which the first takes four bytes. -/
def enough : FrameState → Bytes → Nat
  | .length, stream => stream.length + 1
  | .body _, stream => stream.length + 2

/-- The steps of a splitter take a stream apart greedily. -/
lemma drain_within (state : FrameState) (stream : Bytes) (within : (Greedy.resume state stream).Within maximum)
    (steps : Nat) (h : enough state stream ≤ steps) :
    drain steps { maximum, buffered := stream, state } =
      (.ok (Greedy.resume state stream).bodies, behind maximum (Greedy.resume state stream)) := by
  induction state, stream using Greedy.resume_induction generalizing steps with
  | short stream hlt =>
    obtain ⟨k, rfl⟩ : ∃ k, steps = k + 1 := Nat.exists_eq_add_of_le' (le_trans (by rw [enough]; omega) h)
    rw [drain, cut_short hlt, Greedy.resume, Greedy.of_short hlt]
    rfl
  | announced stream hle ih =>
    have hresume : Greedy.resume .length stream = _ := Greedy.of_announced hle
    rw [hresume] at within ⊢
    obtain ⟨k, rfl⟩ : ∃ k, steps = k + 1 := Nat.exists_eq_add_of_le' (le_trans (by rw [enough]; omega) h)
    rw [drain, cut_announced hle within.announced]
    refine ih within k ?_
    rw [enough, List.length_drop]
    rw [enough] at h
    omega
  | starved n stream hlt =>
    obtain ⟨k, rfl⟩ : ∃ k, steps = k + 1 := Nat.exists_eq_add_of_le' (le_trans (by rw [enough]; omega) h)
    rw [drain, cut_starved hlt, Greedy.resume_starved hlt]
    rfl
  | served n stream hle ih =>
    rw [Greedy.resume_served hle] at within ⊢
    obtain ⟨k, rfl⟩ : ∃ k, steps = k + 1 := Nat.exists_eq_add_of_le' (le_trans (by rw [enough]; omega) h)
    have hdrain := ih (Greedy.within_cons.mp within).2 k (by rw [enough, List.length_drop]; rw [enough] at h; omega)
    rw [drain, cut_served hle]
    dsimp only
    rw [hdrain]
    rfl

/-! ### Chunks -/

/-- Adds chunks of a stream one after the other: what each of them yields, and the splitter after them. -/
def pushAll : FrameSplitter → List Bytes → List (Except Error (List Bytes)) × FrameSplitter
  | s, [] => ([], s)
  | s, chunk :: chunks => ((s.push chunk).1 :: (pushAll (s.push chunk).2 chunks).1, (pushAll (s.push chunk).2 chunks).2)

/-- Another part of a stream takes a splitter from where the first part was taken apart to where both are. -/
lemma push_behind (first chunk : Bytes) (within : (Greedy.of (first ++ chunk)).Within maximum) :
    ∃ bodies, (behind maximum (Greedy.of first)).push chunk = (.ok bodies, behind maximum (Greedy.of (first ++ chunk))) ∧
      (Greedy.of (first ++ chunk)).bodies = (Greedy.of first).bodies ++ bodies := by
  rw [Greedy.of_append] at within ⊢
  refine ⟨_, drain_within _ _ within.of_prepend _ ?_, rfl⟩
  change enough _ ((Greedy.of first).rest ++ chunk) ≤ ((Greedy.of first).rest ++ chunk).length + 2
  cases (Greedy.of first).state with
  | length => exact Nat.le_succ _
  | body n => exact le_rfl

lemma pushAll_behind (chunks : List Bytes) (first : Bytes) (within : (Greedy.of (first ++ chunks.flatten)).Within maximum) :
    ∃ yields : List (List Bytes), pushAll (behind maximum (Greedy.of first)) chunks =
        (yields.map .ok, behind maximum (Greedy.of (first ++ chunks.flatten))) ∧
      (Greedy.of (first ++ chunks.flatten)).bodies = (Greedy.of first).bodies ++ yields.flatten := by
  induction chunks generalizing first with
  | nil =>
    rw [List.flatten_nil, List.append_nil]
    exact ⟨[], rfl, (List.append_nil _).symm⟩
  | cons chunk chunks ih =>
    rw [List.flatten_cons, ← List.append_assoc] at within ⊢
    obtain ⟨bodies, hpush, hbodies⟩ := push_behind first chunk within.of_append
    obtain ⟨yields, hpushAll, hyields⟩ := ih (first ++ chunk) within
    refine ⟨bodies :: yields, ?_, ?_⟩
    · rw [pushAll, hpush, hpushAll]
      rfl
    · rw [hyields, hbodies, List.flatten_cons, List.append_assoc]

/-- A new splitter cuts a stream into the frames of which it consists, however it is chunked. -/
lemma pushAll_within (chunks : List Bytes) (within : (Greedy.of chunks.flatten).Within maximum) :
    ∃ yields : List (List Bytes), pushAll { maximum } chunks = (yields.map .ok, behind maximum (Greedy.of chunks.flatten)) ∧
      yields.flatten = (Greedy.of chunks.flatten).bodies := by
  have hnew : behind maximum (Greedy.of []) = { maximum } := by
    rw [Greedy.of_nil]
    rfl
  obtain ⟨yields, hpushAll, hyields⟩ := pushAll_behind chunks [] within
  rw [hnew] at hpushAll
  rw [Greedy.of_nil] at hyields
  exact ⟨yields, hpushAll, hyields.symm⟩

/-- What the chunks of a stream come to: in all, the frames of which the stream consists and the splitter that
it leaves when it comes at once; and after each of them, too few bytes for another frame. -/
structure CutsGreedily (maximum : Nat) (chunks : List Bytes) : Prop where
  yields : ∃ yields : List (List Bytes),
    (pushAll { maximum } chunks).1 = yields.map .ok ∧ yields.flatten = (Greedy.of chunks.flatten).bodies
  leaves : (pushAll { maximum } chunks).2 = (push { maximum } chunks.flatten).2
  waits : ∀ arrived, arrived <+: chunks → (pushAll { maximum } arrived).2.Waits

lemma cutsGreedily (chunks : List Bytes) (within : (Greedy.of chunks.flatten).Within maximum) :
    CutsGreedily maximum chunks where
  yields := by
    obtain ⟨yields, hpushAll, hyields⟩ := pushAll_within chunks within
    exact ⟨yields, by rw [hpushAll], hyields⟩
  leaves := by
    obtain ⟨_, hpushAll, -⟩ := pushAll_within chunks within
    obtain ⟨_, honce, -⟩ := pushAll_within [chunks.flatten] (by rwa [List.flatten_singleton])
    rw [List.flatten_singleton] at honce
    calc (pushAll { maximum } chunks).2
      _ = behind maximum (Greedy.of chunks.flatten) := by rw [hpushAll]
      _ = (pushAll { maximum } [chunks.flatten]).2 := by rw [honce]
      _ = (push { maximum } chunks.flatten).2 := rfl
  waits := by
    rintro arrived ⟨later, rfl⟩
    rw [List.flatten_append] at within
    obtain ⟨_, hpushAll, -⟩ := pushAll_within arrived within.of_append
    rw [hpushAll]
    exact Greedy.resume_waits .length arrived.flatten

end FrameSplitter

end GraphServer
