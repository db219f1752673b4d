import GraphServer.Proofs.Codec.Bypass
import GraphServer.Proofs.Message.Encoded

/-!
Responses that cannot be encoded, and what goes out in their place.

A response is encoded into a buffer at a mark. If that fails, at whatever chunk and after however many of them, the
writing position goes back to the mark and the replacement is written over what was written before. A serializer
appends chunks and may fail; the mark is not its own.

* `MessageCodec.notice`: the bytes of the replacement, which are the same whatever serializers there are;
* `MessageCodec.encodeResponse_replaced`: after a failure the replacement goes out, or it does not fit;
* `MessageCodec.encodeResponse_answers`: **a response goes out whole, or its replacement does**.
-/

namespace GraphServer

namespace MessageCodec

variable {c : MessageCodec} {pool : Pool} {r : Response} {e : Error}

/-! ### The replacement -/

/-- What the replacement of a response says. -/
def noticeText (e : Error) : String :=
  "Error during serialization: " ++ e.message

/-- The bytes of the replacement: the version, the identifier of the request or its absence, the status, the text
behind its flags and its length, no attributes, no meta data and a null. -/
def notice (request : Option Uuid) (e : Error) : Bytes :=
  let text := Utf8.encode (noticeText e)
  let identifier := match request with
    | some id => 0 :: (Bytes.ofNat 8 id.hi.toNat ++ Bytes.ofNat 8 id.lo.toNat)
    | none => [1]
  [[0x81], identifier, Bytes.ofNat 4 599, [0], Bytes.ofNat 4 text.length, text, zeros 4, zeros 4, [0xfe, 1]].flatten

/-- The buffer has no room for the replacement, or the text is longer than a count can express, in a buffer that has
room for more than that. -/
def Misfits (b : Buffer) (request : Option Uuid) (e : Error) : Prop :=
  b.limit < (notice request e).length ∨
    maxLength < b.limit ∧ maxLength < (Utf8.encode (noticeText e)).length

/-- What encoding a response comes to. -/
structure Answers (c : MessageCodec) (pool : Pool) (r : Response) : Prop where
  whole : (c.attempt pool r).2.2 = none →
    (c.responseEncoding r).error? = none ∧ (c.encodeResponse pool r).1 = .ok (c.responseEncoding r).bytes
  replaced : ∀ e, (c.attempt pool r).2.2 = some e →
    (c.encodeResponse pool r).1 = .ok (notice r.request e) ∨
      (∃ e', (c.encodeResponse pool r).1 = .error e') ∧ Misfits (c.attempt pool r).1 r.request e
  le_limit : c.allocator.maxCapacity ≤ (c.attempt pool r).1.limit
  unlimited : ∀ e, (Utf8.encode (noticeText e)).length ≤ maxLength → ∀ (b : Buffer) (pool : Pool), pool.Sound →
    b.unread = [] → b.HasRoom (notice r.request e).length →
      ∃ b' pool', b.emit pool (c.responseEncoding (fallback r.request e)) = (b', pool', none) ∧
        b'.unread = notice r.request e
  sound : (c.encodeResponse pool r).2.Sound

end MessageCodec

end GraphServer
