import GraphServer.Proofs.Frame.Exchange

/-!
A prefix above the maximum behind complete frames.

The chunk that brings the last byte of such a prefix is refused, and the frames that it completes are lost with it;
every later chunk is refused too.

* `Greedy.bodies_of_first`: a first part of the bytes of frames has those of them that are complete in it;
* `FrameSplitter.Jammed.pushAll`: a splitter that stands at such a prefix refuses every chunk and stays there;
* `FrameSplitter.push_overlong`: the chunk that completes such a prefix is refused, whatever else it completes;
* `FrameSplitter.pushAll_overlong`: **the frames are handed out that are complete in the chunks before the refused
  one, and so all of them only if nothing of them is in the refused one**.
-/

namespace GraphServer

namespace Bytes

/-- A body behind the four bytes that spell its length. -/
def framed (body : Bytes) : Bytes :=
  ofNat LengthPrefix.width body.length ++ body

lemma length_framed (body : Bytes) : (framed body).length = 4 + body.length := by
  rw [framed, List.length_append, length_ofNat, LengthPrefix.width]

/-- The first ones of framed bodies that are complete in a number of bytes. -/
def completeIn : (bodies : List Bytes) → (available : Nat) → List Bytes
  | [], _ => []
  | body :: bodies, available =>
    if (framed body).length ≤ available then body :: completeIn bodies (available - (framed body).length) else []

/-- All framed bodies are complete only in as many bytes as they have. -/
lemma completeIn_eq_self_iff {bodies : List Bytes} {available : Nat} :
    completeIn bodies available = bodies ↔ (bodies.flatMap framed).length ≤ available := by
  induction bodies generalizing available with
  | nil => simp [completeIn]
  | cons body bodies ih =>
    rw [completeIn, List.flatMap_cons, List.length_append]
    split
    case isTrue h =>
      rw [List.cons.injEq, ih, Nat.le_sub_iff_add_le' h]
      exact and_iff_right rfl
    case isFalse h => exact iff_of_false (List.cons_ne_nil _ _).symm (by omega)

end Bytes

namespace Greedy

/-! ### Framed bodies -/

variable {body : Bytes} {bodies : List Bytes}

lemma of_framed (spelled : body.length < 256 ^ 4) (stream : Bytes) : of (body.framed ++ stream) = (of stream).cons body :=
  of_prefixed (Bytes.length_ofNat _ _) (Bytes.toNat_ofNat_of_lt spelled) stream

lemma of_flatMap_framed (spelled : ∀ body ∈ bodies, body.length < 256 ^ 4) :
    of (bodies.flatMap Bytes.framed) = ⟨bodies, .length, []⟩ := by
  induction bodies with
  | nil => exact of_nil
  | cons body bodies ih =>
    obtain ⟨hbody, hbodies⟩ := List.forall_mem_cons.mp spelled
    rw [List.flatMap_cons, of_framed hbody, ih hbodies]
    rfl

/-- A stream that ends inside its first frame has no complete one. -/
lemma bodies_of_unfinished (spelled : body.length < 256 ^ 4) {first stream : Bytes} (start : first <+: body.framed ++ stream)
    (short : first.length < body.framed.length) : (of first).bodies = [] := by
  rcases Nat.lt_or_ge first.length 4 with hlt | hle
  · rw [of_short hlt]
  · have htake : first.take 4 = Bytes.ofNat LengthPrefix.width body.length := by
      have hpart : first.take 4 = (body.framed ++ stream).take 4 := by
        obtain ⟨second, hsecond⟩ := start
        rw [← hsecond, List.take_append_of_le_length hle]
      rw [hpart, Bytes.framed, List.append_assoc]
      exact List.take_left' (Bytes.length_ofNat _ _)
    have hstarved : (first.drop 4).length < body.length := by
      rw [Bytes.length_framed] at short
      rw [List.length_drop]
      omega
    have hspelled : Bytes.toNat (first.take 4) = body.length := htake ▸ Bytes.toNat_ofNat_of_lt spelled
    rw [of_announced hle, hspelled, resume_starved hstarved]

/-- A first part of the bytes of framed bodies, and of less than a prefix behind them, has those bodies that are
complete in it. -/
lemma bodies_of_first (spelled : ∀ body ∈ bodies, body.length < 256 ^ 4) {first behind : Bytes}
    (start : first <+: bodies.flatMap Bytes.framed ++ behind)
    (short : first.length < (bodies.flatMap Bytes.framed).length + 4) :
    (of first).bodies = Bytes.completeIn bodies first.length := by
  induction bodies generalizing first with
  | nil =>
    rw [List.flatMap_nil, List.length_nil, Nat.zero_add] at short
    rw [of_short short, Bytes.completeIn]
  | cons body bodies ih =>
    obtain ⟨hbody, hbodies⟩ := List.forall_mem_cons.mp spelled
    rw [List.flatMap_cons, List.append_assoc] at start
    rw [List.flatMap_cons, List.length_append] at short
    rw [Bytes.completeIn]
    split
    case isTrue h =>
      obtain ⟨first, rfl⟩ : body.framed <+: first :=
        List.prefix_of_prefix_length_le (List.prefix_append _ _) start h
      rw [List.prefix_append_right_inj] at start
      rw [List.length_append] at short
      rw [of_framed hbody, List.length_append, Nat.add_sub_cancel_left]
      exact congrArg (body :: ·) (ih hbodies start (by omega))
    case isFalse h => exact bodies_of_unfinished hbody start (Nat.not_le.mp h)

end Greedy

namespace FrameSplitter

variable {maximum length : Nat}

/-! ### The refused chunk and those after it -/

/-- A prefix above the maximum stands at the front of what is not cut yet. -/
structure Jammed (s : FrameSplitter) (length : Nat) : Prop where
  state : s.state = .length
  announced : LengthPrefix.decode? s.buffered = some length
  above : s.maximum < length

namespace Jammed

variable {s : FrameSplitter}

lemma drain (h : s.Jammed length) (steps : Nat) :
    s.drain (steps + 1) = (.error (.protocol (.frameTooLarge length s.maximum)), s) := by
  have hcut : s.cut = .refused (.protocol (.frameTooLarge length s.maximum)) := by
    rw [cut, h.state]
    dsimp only
    rw [h.announced]
    exact if_pos h.above
  rw [FrameSplitter.drain, hcut]

lemma feed (h : s.Jammed length) (chunk : Bytes) : Jammed { s with buffered := s.buffered ++ chunk } length where
  state := h.state
  announced := by
    have hlong : 4 ≤ s.buffered.length := by
      by_contra hlt
      have hnone := decode?_short (Nat.not_le.mp hlt)
      rw [h.announced] at hnone
      cases hnone
    have hread := h.announced
    rw [decode?_announced hlong] at hread
    rw [decode?_announced (by rw [List.length_append]; omega), List.take_append_of_le_length hlong, hread]
  above := h.above

lemma push (h : s.Jammed length) (chunk : Bytes) :
    s.push chunk = (.error (.protocol (.frameTooLarge length s.maximum)), { s with buffered := s.buffered ++ chunk }) :=
  (h.feed chunk).drain _

/-- Every chunk is refused, and is put behind the prefix. -/
lemma pushAll (h : s.Jammed length) (chunks : List Bytes) :
    s.pushAll chunks = (chunks.map fun _ => .error (.protocol (.frameTooLarge length s.maximum)),
      { s with buffered := s.buffered ++ chunks.flatten }) := by
  induction chunks generalizing s with
  | nil => rw [List.flatten_nil, List.append_nil]; rfl
  | cons chunk chunks ih =>
    rw [FrameSplitter.pushAll, h.push chunk, ih (h.feed chunk), List.flatten_cons, List.map_cons, List.append_assoc]

end Jammed

/-- The frames before a prefix above the maximum are taken off and lost. -/
lemma drain_jammed (state : FrameState) (stream : Bytes) {jam : Bytes} (jammed : Jammed { maximum, buffered := jam } length)
    (cuts : (Greedy.resume state stream).state = .length ∧ (Greedy.resume state stream).rest = [])
    (within : (Greedy.resume state stream).Within maximum) (steps : Nat) (h : enough state (stream ++ jam) ≤ steps) :
    drain steps { maximum, buffered := stream ++ jam, state } =
      (.error (.protocol (.frameTooLarge length maximum)), { maximum, buffered := jam }) := by
  induction state, stream using Greedy.resume_induction generalizing steps with
  | short stream hlt =>
    obtain ⟨k, rfl⟩ : ∃ k, steps = k + 1 := Nat.exists_eq_add_of_le' (le_trans (by rw [enough]; omega) h)
    rw [Greedy.resume, Greedy.of_short hlt] at cuts
    rw [show stream = [] from cuts.2]
    exact jammed.drain k
  | announced stream hle ih =>
    have hresume : Greedy.resume .length stream = _ := Greedy.of_announced hle
    rw [hresume] at cuts within
    obtain ⟨k, rfl⟩ : ∃ k, steps = k + 1 := Nat.exists_eq_add_of_le' (le_trans (by rw [enough]; omega) h)
    have hlong : 4 ≤ (stream ++ jam).length := by rw [List.length_append]; omega
    have htake : (stream ++ jam).take 4 = stream.take 4 := List.take_append_of_le_length hle
    rw [drain, cut_announced hlong (by rw [htake]; exact within.announced), htake, List.drop_append_of_le_length hle]
    refine ih cuts within k ?_
    rw [enough, List.length_append, List.length_drop]
    rw [enough, List.length_append] at h
    omega
  | starved n stream hlt =>
    rw [Greedy.resume_starved hlt] at cuts
    cases cuts.1
  | served n stream hle ih =>
    rw [Greedy.resume_served hle] at cuts within
    obtain ⟨k, rfl⟩ : ∃ k, steps = k + 1 := Nat.exists_eq_add_of_le' (le_trans (by rw [enough]; omega) h)
    rw [enough, List.length_append] at h
    have hdrain := ih cuts (Greedy.within_cons.mp within).2 k
      (by rw [enough, List.length_append, List.length_drop]; omega)
    rw [drain, cut_served (by rw [List.length_append]; omega), List.drop_append_of_le_length hle]
    dsimp only
    rw [hdrain]

/-- Wherever in the frames before it or in the prefix itself a chunk starts that completes a prefix above the
maximum, the chunk is refused. -/
lemma push_overlong {frames jam first chunk : Bytes} (jammed : Jammed { maximum, buffered := jam } length)
    (cuts : (Greedy.of frames).state = .length ∧ (Greedy.of frames).rest = []) (within : (Greedy.of frames).Within maximum)
    (stream : first ++ chunk = frames ++ jam) (short : first.length < frames.length + 4) :
    (Greedy.of first).Within maximum ∧ (behind maximum (Greedy.of first)).push chunk =
      (.error (.protocol (.frameTooLarge length maximum)), { maximum, buffered := jam }) := by
  rcases List.append_eq_append_iff.mp stream with ⟨missing, rfl, rfl⟩ | ⟨start, rfl, rfl⟩
  · refine ⟨within.of_append, ?_⟩
    rw [Greedy.of_append] at cuts within
    rw [push, behind]
    dsimp only
    rw [← List.append_assoc]
    refine drain_jammed _ _ jammed cuts within.of_prepend _ ?_
    rw [stepsFor]
    cases (Greedy.of first).state with
    | length => exact Nat.le_succ _
    | body n => exact le_rfl
  · have hstart : start.length < 4 := by
      rw [List.length_append] at short
      omega
    have hof : Greedy.of (frames ++ start) = ⟨(Greedy.of frames).bodies, .length, start⟩ := by
      rw [Greedy.of_append, cuts.1, cuts.2, List.nil_append]
      change Greedy.prepend _ (Greedy.of start) = _
      rw [Greedy.of_short hstart, Greedy.prepend, List.append_nil]
    rw [hof]
    exact ⟨⟨within.bodies, fun n hn => by cases hn⟩, jammed.drain _⟩

/-! ### Streams -/

/-- The chunk with which a number of bytes is there. -/
lemma exists_completing {chunks : List Bytes} {n : Nat} (positive : 0 < n) (there : n ≤ chunks.flatten.length) :
    ∃ before completing after, chunks = before ++ completing :: after ∧ before.flatten.length < n ∧
      n ≤ (before.flatten ++ completing).length := by
  induction chunks generalizing n with
  | nil => exact absurd there (Nat.not_le.mpr positive)
  | cons chunk chunks ih =>
    rcases Nat.lt_or_ge chunk.length n with hlt | hle
    · rw [List.flatten_cons, List.length_append] at there
      obtain ⟨before, completing, after, rfl, hbefore, hcompleting⟩ := ih (n := n - chunk.length) (by omega) (by omega)
      refine ⟨chunk :: before, completing, after, rfl, ?_, ?_⟩
      · rw [List.flatten_cons, List.length_append]
        omega
      · rw [List.flatten_cons, List.append_assoc, List.length_append]
        omega
    · exact ⟨[], chunk, chunks, rfl, positive, hle⟩

/-- What comes of a stream that starts with framed bodies and a prefix above the maximum, by the chunks before the
one that completes this prefix, that chunk, and those after it. -/
structure CutsOverlong (maximum length : Nat) (bodies before : List Bytes) (completing : Bytes) (after : List Bytes) :
    Prop where
  /-- The chunk is the one that completes the prefix. -/
  incomplete : before.flatten.length < (bodies.flatMap Bytes.framed).length + 4
  complete : (bodies.flatMap Bytes.framed).length + 4 ≤ (before.flatten ++ completing).length
  /-- The chunks before it hand out what is complete in them, and it is refused, like every chunk after it. -/
  yields : ∃ yields : List (List Bytes), yields.flatten = Bytes.completeIn bodies before.flatten.length ∧
    (pushAll { maximum } (before ++ completing :: after)).1 =
      yields.map .ok ++ (completing :: after).map fun _ => .error (.protocol (.frameTooLarge length maximum))
  /-- Every further chunk is refused until the splitter is cleared, and then it is as new. -/
  refuses : ∀ chunks, ((pushAll { maximum } (before ++ completing :: after)).2.pushAll chunks).1 =
    chunks.map fun _ => .error (.protocol (.frameTooLarge length maximum))
  clears : (pushAll { maximum } (before ++ completing :: after)).2.clear = { maximum }

lemma pushAll_append (s : FrameSplitter) (first second : List Bytes) :
    s.pushAll (first ++ second) =
      ((s.pushAll first).1 ++ ((s.pushAll first).2.pushAll second).1, ((s.pushAll first).2.pushAll second).2) := by
  induction first generalizing s with
  | nil => rfl
  | cons chunk first ih => rw [List.cons_append, pushAll, ih, pushAll, List.cons_append]

/-- However a stream is chunked that starts with framed bodies, none of them above the maximum, and a prefix above
it: the chunks before the one that completes this prefix hand out in order the bodies that are complete in them, that
one and every later one is refused, until the splitter is cleared; and so all bodies are handed out if and only if
all of them are complete before the refused chunk. -/
theorem pushAll_overlong {bodies : List Bytes} (short : ∀ body ∈ bodies, body.length ≤ maximum) {announced : Bytes}
    (width : announced.length = 4) (above : maximum < Bytes.toNat announced) {behind : Bytes} {chunks : List Bytes}
    (stream : chunks.flatten = bodies.flatMap Bytes.framed ++ announced ++ behind) :
    ∃ before completing after, chunks = before ++ completing :: after ∧
      CutsOverlong maximum (Bytes.toNat announced) bodies before completing after ∧
      (Bytes.completeIn bodies before.flatten.length = bodies ↔
        (bodies.flatMap Bytes.framed).length ≤ before.flatten.length) := by
  have hthere : (bodies.flatMap Bytes.framed).length + 4 ≤ chunks.flatten.length := by
    rw [stream, List.length_append, List.length_append, width]
    omega
  obtain ⟨before, completing, after, rfl, hbefore, hcompleting⟩ := exists_completing (by omega) hthere
  refine ⟨before, completing, after, rfl, ?_, Bytes.completeIn_eq_self_iff⟩
  have hspelled : ∀ body ∈ bodies, body.length < 256 ^ 4 := fun body hbody => by
    have hdigits := Bytes.toNat_lt announced
    rw [width] at hdigits
    exact lt_of_le_of_lt (short body hbody) (lt_trans above hdigits)
  have hof := Greedy.of_flatMap_framed hspelled
  -- the part of the stream up to the refused chunk ends behind the prefix
  rw [List.flatten_append, List.flatten_cons, ← List.append_assoc] at stream
  obtain ⟨more, hmore⟩ : bodies.flatMap Bytes.framed ++ announced <+: before.flatten ++ completing := by
    refine List.prefix_of_prefix_length_le (stream ▸ List.prefix_append _ behind) (List.prefix_append _ after.flatten) ?_
    rw [List.length_append, width]
    exact hcompleting
  rw [List.append_assoc] at hmore
  have hjam : Jammed { maximum, buffered := announced ++ more } (Bytes.toNat announced) :=
    { state := rfl
      announced := by
        rw [decode?_announced (by rw [List.length_append]; omega), ← width, List.take_left]
      above }
  obtain ⟨hwithin, hpush⟩ := push_overlong hjam (by rw [hof]; exact ⟨rfl, rfl⟩)
    (by rw [hof]; exact ⟨short, fun n hn => by cases hn⟩) hmore.symm hbefore
  obtain ⟨yields, hpushAll, hyields⟩ := pushAll_within before hwithin
  have hstart : before.flatten <+: bodies.flatMap Bytes.framed ++ (announced ++ more) :=
    hmore ▸ List.prefix_append _ _
  rw [Greedy.bodies_of_first hspelled hstart hbefore] at hyields
  -- so the splitter stands at the prefix when the chunks after the refused one come
  have hall : pushAll { maximum } (before ++ completing :: after) =
      (yields.map .ok ++
          (completing :: after).map fun _ => .error (.protocol (.frameTooLarge (Bytes.toNat announced) maximum)),
        { maximum, buffered := announced ++ more ++ after.flatten }) := by
    rw [pushAll_append, hpushAll, pushAll, hpush, hjam.pushAll after, List.map_cons]
  refine ⟨hbefore, hcompleting, ⟨yields, hyields, by rw [hall]⟩, fun chunks => ?_, by rw [hall]; rfl⟩
  rw [hall]
  exact congrArg Prod.fst ((hjam.feed after.flatten).pushAll chunks)

/-- Two bodies and a prefix of five where four is the maximum, in four chunks: the second chunk completes the first
body, the third one the second body and the prefix. -/
theorem pushAll_overlong_fourChunks :
    (∀ body ∈ [[97, 98], [99]], body.length ≤ 4) ∧ Bytes.toNat [0, 0, 0, 5] = 5 ∧
    ∃ before completing after,
      [[0, 0, 0, 2, 97], [98, 0, 0], [0, 1, 99, 0, 0, 0, 5, 1], [2]] = before ++ completing :: after ∧
      CutsOverlong 4 5 [[97, 98], [99]] before completing after ∧
      (Bytes.completeIn [[97, 98], [99]] before.flatten.length = [[97, 98], [99]] ↔
        ([[97, 98], [99]].flatMap Bytes.framed).length ≤ before.flatten.length) :=
  ⟨by decide, by decide, @pushAll_overlong 4 [[97, 98], [99]] (by decide) [0, 0, 0, 5] (by decide) (by decide) [1, 2] _
    (by decide)⟩

/-- A frame and a prefix above the maximum: the frame is handed out if it comes before the prefix, and is handed out
by no chunk if both come at once. -/
theorem pushAll_overlong_dependsOnChunks :
    (∀ body ∈ [[97, 98]], body.length ≤ 4) ∧ 4 < Bytes.toNat [0, 0, 0, 5] ∧
    [[97, 98]].flatMap Bytes.framed ++ [0, 0, 0, 5] = [0, 0, 0, 2, 97, 98, 0, 0, 0, 5] ∧
    (pushAll { maximum := 4 } [[0, 0, 0, 2, 97, 98], [0, 0, 0, 5]]).1 =
      [.ok [[97, 98]], .error (.protocol (.frameTooLarge 5 4))] ∧
    (pushAll { maximum := 4 } [[0, 0, 0, 2, 97, 98, 0, 0, 0, 5]]).1 = [.error (.protocol (.frameTooLarge 5 4))] := by
  refine ⟨by decide, by decide, by decide, ?_, ?_⟩ <;> rfl

end FrameSplitter

end GraphServer
