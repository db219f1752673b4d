import GraphServer.Frame.Handshake
import GraphServer.Outbound.Frame
import GraphServer.Proofs.Frame.Greedy
import GraphServer.Proofs.Text.Utf8
import GraphServer.Proofs.Words

/-!
Bodies that are sent in frames arrive as they were sent.

* `Greedy.of_frames`: a stream of frames is taken apart into them;
* `HandshakeDecoder.decodeAll_encodeAll`: the content type is taken off the first frame, before which it was put;
* `FrameSplitter.cutsGreedily_and_exchanges`: **every stream is cut into its frames however it is chunked, and so
  bodies behind a content type arrive in order**.
-/

namespace GraphServer

/-! ### Frames -/

namespace OutboundFrame

lemma make_eq_ok_iff {body : Bytes} {f : OutboundFrame} :
    make body = .ok f ↔ body.length ≤ LengthPrefix.maximum ∧ f = ⟨Bytes.ofNat LengthPrefix.width body.length, body⟩ := by
  change (LengthPrefix.encode body.length).bind (fun p => .ok ⟨p, body⟩) = .ok f ↔ _
  rw [LengthPrefix.encode]
  by_cases h : body.length ≤ LengthPrefix.maximum
  · rw [if_pos h]
    constructor
    · intro hf
      cases hf
      exact ⟨h, rfl⟩
    · rintro ⟨-, rfl⟩
      rfl
  · rw [if_neg h]
    exact ⟨fun hf => (by cases hf), fun hf => absurd hf.1 h⟩

/-- The frames of bodies that are short enough for a prefix. -/
lemma exists_mapM_make {bodies : List Bytes} (short : ∀ body ∈ bodies, body.length ≤ LengthPrefix.maximum) :
    ∃ frames, bodies.mapM make = .ok frames ∧ (∀ f ∈ frames, make f.body = .ok f) ∧ frames.map (·.body) = bodies := by
  induction bodies with
  | nil => exact ⟨[], rfl, fun f hf => absurd hf List.not_mem_nil, rfl⟩
  | cons body bodies ih =>
    obtain ⟨hbody, hbodies⟩ := List.forall_mem_cons.mp short
    obtain ⟨frames, hmapM, hmade, hmap⟩ := ih hbodies
    have hmake : make body = .ok ⟨Bytes.ofNat LengthPrefix.width body.length, body⟩ := make_eq_ok_iff.mpr ⟨hbody, rfl⟩
    refine ⟨⟨Bytes.ofNat LengthPrefix.width body.length, body⟩ :: frames, ?_,
      List.forall_mem_cons.mpr ⟨hmake, hmade⟩, congrArg (body :: ·) hmap⟩
    rw [List.mapM_cons, hmake, hmapM]
    rfl

end OutboundFrame

namespace Greedy

/-- A body behind a prefix that spells its length is taken off the start of a stream. -/
lemma of_prefixed {announced body : Bytes} (width : announced.length = 4) (spelled : Bytes.toNat announced = body.length)
    (stream : Bytes) : of (announced ++ body ++ stream) = (of stream).cons body := by
  have htake : (announced ++ body ++ stream).take 4 = announced := by rw [List.append_assoc, ← width, List.take_left]
  have hdrop : (announced ++ body ++ stream).drop 4 = body ++ stream := by
    rw [List.append_assoc, ← width, List.drop_left]
  have hlong : 4 ≤ (announced ++ body ++ stream).length := by
    rw [List.length_append, List.length_append, width]
    omega
  calc of (announced ++ body ++ stream)
    _ = resume (.body body.length) (body ++ stream) := by rw [of_announced hlong, htake, hdrop, spelled]
    _ = (of stream).cons body := by
      rw [resume_served (by rw [List.length_append]; omega), List.drop_left, List.take_left]

/-- A frame at the start of a stream is taken off. -/
lemma of_frame {f : OutboundFrame} (made : OutboundFrame.make f.body = .ok f) (stream : Bytes) :
    of (f.bytes ++ stream) = (of stream).cons f.body := by
  obtain ⟨hshort, hf⟩ := OutboundFrame.make_eq_ok_iff.mp made
  have hlength : f.lengthPrefix = Bytes.ofNat LengthPrefix.width f.body.length := congrArg OutboundFrame.lengthPrefix hf
  refine of_prefixed ?_ ?_ stream
  · rw [hlength]
    exact Bytes.length_ofNat _ _
  · rw [hlength]
    exact Bytes.toNat_ofNat_of_lt (lt_of_le_of_lt hshort (by decide))

/-- A stream of frames is taken apart into them. -/
lemma of_frames {frames : List OutboundFrame} (made : ∀ f ∈ frames, OutboundFrame.make f.body = .ok f) :
    of (frames.flatMap OutboundFrame.bytes) = ⟨frames.map (·.body), .length, []⟩ := by
  induction frames with
  | nil => exact of_nil
  | cons f frames ih =>
    obtain ⟨hf, hframes⟩ := List.forall_mem_cons.mp made
    rw [List.flatMap_cons, of_frame hf, ih hframes]
    rfl

end Greedy

/-- Frames of which none is too long are cut as they were sent, and nothing is left of them. -/
lemma FrameSplitter.pushAll_frames {maximum : Nat} {frames : List OutboundFrame}
    (made : ∀ f ∈ frames, OutboundFrame.make f.body = .ok f) (short : ∀ f ∈ frames, f.body.length ≤ maximum)
    {chunks : List Bytes} (stream : chunks.flatten = frames.flatMap OutboundFrame.bytes) :
    ∃ yields : List (List Bytes), pushAll { maximum } chunks = (yields.map .ok, { maximum }) ∧
      yields.flatten = frames.map (·.body) := by
  have hof : Greedy.of chunks.flatten = ⟨frames.map (·.body), .length, []⟩ := by rw [stream, Greedy.of_frames made]
  have hwithin : (Greedy.of chunks.flatten).Within maximum := by
    rw [hof]
    refine ⟨fun body hbody => ?_, fun announced h => by cases h⟩
    obtain ⟨f, hf, rfl⟩ := List.mem_map.mp hbody
    exact short f hf
  obtain ⟨yields, hpushAll, hyields⟩ := pushAll_within chunks hwithin
  rw [hof] at hpushAll hyields
  exact ⟨yields, hpushAll, hyields⟩

/-! ### Content types -/

/-- The frames in which bodies are sent one after the other. -/
def HandshakeEncoder.encodeAll : HandshakeEncoder → List Bytes → List Bytes
  | _, [] => []
  | e, body :: bodies => (e.encode body).1 :: encodeAll (e.encode body).2 bodies

/-- What frames are that arrive one after the other. -/
def HandshakeDecoder.decodeAll : HandshakeDecoder → List Bytes → List (Except Error Envelope)
  | _, [] => []
  | d, frame :: frames => (d.decode frame).1 :: decodeAll (d.decode frame).2 frames

/-- Bodies in order, the content type with the first of them only. -/
def Envelope.sequence (contentType : String) : List Bytes → List Envelope
  | [] => []
  | body :: bodies => ⟨some contentType, body⟩ :: bodies.map (⟨none, ·⟩)

lemma HandshakeEncoder.make_eq_ok {contentType : String} (positive : 1 ≤ contentType.utf8ByteSize)
    (short : contentType.utf8ByteSize ≤ maxContentType) : make contentType = .ok { contentType } := by
  have hcheck : checkContentType contentType = .ok () := if_neg (by omega)
  rw [make, hcheck]
  rfl

lemma HandshakeEncoder.encodeAll_sent {e : HandshakeEncoder} (sent : e.sent = true) (bodies : List Bytes) :
    e.encodeAll bodies = bodies := by
  induction bodies with
  | nil => rfl
  | cons body bodies ih =>
    have hencode : e.encode body = (body, e) := if_pos sent
    rw [encodeAll, hencode, ih]

namespace HandshakeDecoder

lemma decodeAll_opened {d : HandshakeDecoder} (opened : d.contentType.isSome = true) (frames : List Bytes) :
    d.decodeAll frames = frames.map fun frame => .ok ⟨none, frame⟩ := by
  induction frames with
  | nil => rfl
  | cons frame frames ih =>
    have hdecode : d.decode frame = (.ok ⟨none, frame⟩, d) := if_pos opened
    rw [decodeAll, hdecode, ih, List.map_cons]

/-- The content type is taken off the frame before which it was put. -/
lemma open_announced {contentType : String} (positive : 1 ≤ contentType.utf8ByteSize)
    (short : contentType.utf8ByteSize ≤ maxContentType) (body : Bytes) :
    open_ (UInt8.ofNat (Utf8.encode contentType).length :: Utf8.encode contentType ++ body) = .ok (contentType, body) := by
  have hlength : (UInt8.ofNat (Utf8.encode contentType).length).toNat = (Utf8.encode contentType).length := by
    rw [Utf8.length_encode]
    exact UInt8.toNat_ofNat_of_lt' (lt_of_le_of_lt short (by decide))
  rw [List.cons_append, open_, hlength, if_neg (by rw [Utf8.length_encode]; omega),
    if_neg (by rw [List.length_append]; omega), List.take_left,
    List.drop_left, Utf8.decode_encode]

/-- What was put before the first body is taken off the first frame. -/
lemma decodeAll_encodeAll {contentType : String} (positive : 1 ≤ contentType.utf8ByteSize)
    (short : contentType.utf8ByteSize ≤ maxContentType) (bodies : List Bytes) :
    decodeAll {} (HandshakeEncoder.encodeAll { contentType } bodies) = (Envelope.sequence contentType bodies).map .ok := by
  cases bodies with
  | nil => rfl
  | cons body bodies =>
    have hencode : HandshakeEncoder.encode { contentType } body =
        (UInt8.ofNat (Utf8.encode contentType).length :: Utf8.encode contentType ++ body, ⟨contentType, true⟩) := rfl
    have hdecode : decode {} (HandshakeEncoder.encode { contentType } body).1 =
        (.ok ⟨some contentType, body⟩, ⟨some contentType⟩) := by
      rw [hencode, decode, open_announced positive short]
      rfl
    rw [HandshakeEncoder.encodeAll, decodeAll, hdecode, hencode, HandshakeEncoder.encodeAll_sent rfl,
      decodeAll_opened rfl, Envelope.sequence, List.map_cons, List.map_map]
    rfl

end HandshakeDecoder

/-! ### The exchange -/

namespace FrameSplitter

/-- Every stream in which no prefix that is reached is above the maximum is cut into its frames however it is
chunked. Hence bodies that are sent in frames behind a content type arrive in order, the content type with the
first of them only, and nothing is left. -/
theorem cutsGreedily_and_exchanges (maximum : Nat) :
    (∀ chunks : List Bytes, (Greedy.of chunks.flatten).Within maximum → CutsGreedily maximum chunks) ∧
    ∀ (contentType : String) (bodies : List Bytes), 1 ≤ contentType.utf8ByteSize → contentType.utf8ByteSize ≤ 255 →
      ∃ e, HandshakeEncoder.make contentType = .ok e ∧
        ((∀ frame ∈ e.encodeAll bodies, frame.length ≤ maximum ∧ frame.length ≤ 2147483647) →
          ∃ frames, (e.encodeAll bodies).mapM OutboundFrame.make = .ok frames ∧
            ∀ chunks : List Bytes, chunks.flatten = frames.flatMap OutboundFrame.bytes →
              ∃ yields : List (List Bytes), pushAll { maximum } chunks = (yields.map .ok, { maximum }) ∧
                HandshakeDecoder.decodeAll {} yields.flatten = (Envelope.sequence contentType bodies).map .ok) := by
  refine ⟨cutsGreedily, fun contentType bodies positive short => ?_⟩
  refine ⟨_, HandshakeEncoder.make_eq_ok positive short, fun hframes => ?_⟩
  obtain ⟨frames, hmapM, hmade, hmap⟩ := OutboundFrame.exists_mapM_make fun frame hframe => (hframes frame hframe).2
  refine ⟨frames, hmapM, fun chunks hstream => ?_⟩
  have hmaximum : ∀ f ∈ frames, f.body.length ≤ maximum := fun f hf =>
    (hframes f.body (hmap ▸ List.mem_map_of_mem hf)).1
  obtain ⟨yields, hpushAll, hyields⟩ := pushAll_frames hmade hmaximum hstream
  refine ⟨yields, hpushAll, ?_⟩
  rw [hyields, hmap]
  exact HandshakeDecoder.decodeAll_encodeAll positive short bodies

/-- Two frames and the start of a third one that arrive in four chunks, one of them empty; and three bodies behind
the content type `graph-bin`, one of them empty, that are cut inside the first prefix and inside the name. -/
theorem exchanges_threeBodies :
    (Greedy.of [0, 0, 0, 2, 7, 8, 0, 0, 0, 0, 0]).Within 16 ∧
    CutsGreedily 16 [[0, 0], [0, 2, 7], [], [8, 0, 0, 0, 0, 0]] ∧
    1 ≤ "graph-bin".utf8ByteSize ∧ "graph-bin".utf8ByteSize ≤ 255 ∧
    (∀ frame ∈ HandshakeEncoder.encodeAll { contentType := "graph-bin" } [[129], [], [1, 2]],
      frame.length ≤ 16 ∧ frame.length ≤ 2147483647) ∧
    ∃ yields : List (List Bytes),
      pushAll { maximum := 16 }
          [[0, 0], [0, 11, 9, 103, 114], [97, 112, 104, 45, 98, 105, 110, 129, 0, 0, 0, 0], [0, 0, 0, 2, 1, 2]] =
        (yields.map .ok, { maximum := 16 }) ∧
      HandshakeDecoder.decodeAll {} yields.flatten =
        [.ok ⟨some "graph-bin", [129]⟩, .ok ⟨none, []⟩, .ok ⟨none, [1, 2]⟩] := by
  have hof : Greedy.of [0, 0, 0, 2, 7, 8, 0, 0, 0, 0, 0] = ⟨[[7, 8], []], .length, [0]⟩ := by cbv
  have hwithin : (Greedy.of [0, 0, 0, 2, 7, 8, 0, 0, 0, 0, 0]).Within 16 := by
    rw [hof]
    exact ⟨by decide, fun announced h => by cases h⟩
  have hshort : ∀ frame ∈ HandshakeEncoder.encodeAll { contentType := "graph-bin" } [[129], [], [1, 2]],
      frame.length ≤ 16 ∧ frame.length ≤ 2147483647 := by decide
  obtain ⟨hcuts, hexchanges⟩ := cutsGreedily_and_exchanges 16
  obtain ⟨e, hmake, hdelivers⟩ := hexchanges "graph-bin" [[129], [], [1, 2]] (by decide) (by decide)
  cases hmake
  obtain ⟨frames, hframes, harrive⟩ := hdelivers hshort
  cases hframes
  exact ⟨hwithin, hcuts _ hwithin, by decide, by decide, hshort, harrive _ (by decide)⟩

end FrameSplitter

end GraphServer
