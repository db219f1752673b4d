import GraphServer.Codec.Text
import GraphServer.Value.Levels

/-!
Reading and writing values of any kind by looking up the serializer of each.

A value on the wire is its type code, a flags byte and, unless the flags mark a null, its payload. A
`Serializer` knows the payload of one kind; nested values are read and written through the function
that it is handed. A `Registry` has at most one serializer for each kind.

* `Registry.read` lets values nest to a given number of levels and no deeper;
* `Registry.write` first replaces a value that has no encoding of its own by what its serializer makes
  of it, and follows at most `maxTransforms` such replacements.
-/

namespace GraphServer

/-- Reads and writes the payload of one kind of value. -/
structure Serializer where
  /-- The kind. -/
  kind : Kind
  /-- What to write in place of a value that has no encoding of its own. -/
  transform : Value → Option Value := fun _ => none
  /-- Reads a payload, given how to read a nested value. -/
  readPayload : Decode Value → Decode Value
  /-- Writes a payload, given how to write a nested value. -/
  writePayload : (Value → Encoding) → Value → Encoding

namespace Serializer

/-- Reads a flags byte and, unless it marks a null, the payload. -/
def readNullable (s : Serializer) (nested : Decode Value) : Decode Value := do
  let flags ← Decode.u8
  if ValueFlags.isNull flags then return .null else s.readPayload nested

/-- Reads the type code of this kind, then the nullable payload. -/
def read (s : Serializer) (nested : Decode Value) : Decode Value := do
  let code ← Decode.u8
  if code = s.kind.code then s.readNullable nested else Decode.fault (.wrongTypeCode s.kind code)

/-- Writes a flags byte and, unless the value is null, the payload. -/
def writeNullable (s : Serializer) (nested : Value → Encoding) (v : Value) : Encoding :=
  if v.isNull then .u8 ValueFlags.null
  else .u8 ValueFlags.present ++ s.writePayload nested v

/-- Writes the type code of this kind, then the nullable payload. -/
def write (s : Serializer) (nested : Value → Encoding) (v : Value) : Encoding :=
  .u8 s.kind.code ++ s.writeNullable nested v

end Serializer

/-- A table of serializers by kind. -/
structure Registry where
  /-- The serializer of a kind. -/
  find? : Kind → Option Serializer
  /-- Every serializer stands under its own kind. -/
  kind_of_find? : ∀ {kind : Kind} {s : Serializer}, find? kind = some s → s.kind = kind

namespace Registry

/-- The table without serializers. -/
def empty : Registry where
  find? _ := none
  kind_of_find? h := by simp at h

/-- Adds a serializer, in place of the one that its kind had. -/
def register (r : Registry) (s : Serializer) : Registry where
  find? kind := if kind = s.kind then some s else r.find? kind
  kind_of_find? {kind s'} h := by
    by_cases hk : kind = s.kind
    · simp only [hk, if_true, Option.some.injEq] at h
      rw [← h, hk]
    · simp only [hk, if_false] at h
      exact r.kind_of_find? h

/-- Whether a kind has a serializer. -/
def contains (r : Registry) (kind : Kind) : Bool :=
  (r.find? kind).isSome

/-- The kinds that have a serializer, in the order of their codes. -/
def kinds (r : Registry) : List Kind :=
  Kind.all.filter r.contains

/-- The number of serializers. -/
def size (r : Registry) : Nat :=
  r.kinds.length

/-- The serializer of a kind, or the report that it has none. -/
def get (r : Registry) (kind : Kind) : Except Error Serializer :=
  match r.find? kind with
  | some s => .ok s
  | none => .error (.serializerNotFound kind)

/-- A listing of the kinds that have a serializer. -/
def detail (r : Registry) : String :=
  s!"TypeRegistry \x7b codes: {Quoted.list (r.kinds.map Kind.label)} \x7d"

/-! ### Reading -/

/-- Reads a type code and a flags byte: the serializer for the payload that follows, or nothing when
the value is null, whatever its code. -/
def readHeader (r : Registry) : Decode (Option Serializer) := do
  let code ← Decode.u8
  let flags ← Decode.u8
  if ValueFlags.isNull flags then return none
  match Kind.ofCode? code with
  | none => throw (.unknownTypeCode code)
  | some .unspecifiedNull => Decode.fault .nullWithoutFlag
  | some kind =>
    match r.get kind with
    | .error e => throw e
    | .ok s => return some s

/-- Reads a value that may have `levels` levels, the report of a deeper one naming `limit`. -/
def readAt (r : Registry) (limit : Nat) : (levels : Nat) → Decode Value
  | 0 => do
    match ← r.readHeader with
    | none => return .null
    | some _ => Decode.fault (.nestedTooDeep limit)
  | levels + 1 => do
    match ← r.readHeader with
    | none => return .null
    | some s => s.readPayload (r.readAt limit levels)

/-- Reads a value that nests to at most `limit` levels. -/
def read (r : Registry) (limit : Nat) : Decode Value :=
  r.readAt limit limit

/-- Reads a payload of a kind known from its place, behind a flags byte if it may be null. -/
def readBare (r : Registry) (limit : Nat) (kind : Kind) (nullable : Bool) : Decode Value := do
  match r.get kind with
  | .error e => throw e
  | .ok s =>
    match limit with
    | 0 => Decode.fault (.nestedTooDeep limit)
    | levels + 1 =>
      let nested := r.readAt limit levels
      if nullable then s.readNullable nested else s.readPayload nested

/-! ### Writing -/

/-- How many times in a row a value may be replaced by another one. -/
def maxTransforms : Nat := 8

/-- Follows at most `steps` replacements to the value that is written, with its serializer; nothing
when that value is null. -/
def resolve (r : Registry) : (steps : Nat) → Value → Except Error (Option (Serializer × Value))
  | steps, v =>
    if v.isNull then .ok none
    else
      match r.get v.kind with
      | .error e => .error e
      | .ok s =>
        match s.transform v with
        | none => .ok (some (s, v))
        | some w =>
          match steps with
          | 0 => .error (.serialization .transformDiverged)
          | steps + 1 => r.resolve steps w

/-- The encoding of a null of no particular kind. -/
def nullEncoding : Encoding :=
  .u8 Kind.unspecifiedNull.code ++ .u8 ValueFlags.null

/-- Writes a value of at most `levels` levels. Replacements that nest ever deeper run out of levels:
they do not converge. -/
def writeAt (r : Registry) : (levels : Nat) → Value → Encoding
  | 0, v =>
    match r.resolve maxTransforms v with
    | .error e => .fail e
    | .ok none => nullEncoding
    | .ok (some _) => .fault .transformDiverged
  | levels + 1, v =>
    match r.resolve maxTransforms v with
    | .error e => .fail e
    | .ok none => nullEncoding
    | .ok (some (s, w)) => s.write (r.writeAt levels) w

/-- Levels enough for a value and for replacements that nest by far deeper than memory allows. -/
def levelsFor (v : Value) : Nat :=
  v.levels + UInt64.size

/-- Writes a value. -/
def write (r : Registry) (v : Value) : Encoding :=
  r.writeAt (levelsFor v) v

/-- Writes a payload of a kind known from its place, behind a flags byte if it may be null. -/
def writeBare (r : Registry) (kind : Kind) (nullable : Bool) (v : Value) : Encoding :=
  match r.get kind with
  | .error e => .fail e
  | .ok s =>
    let nested := r.writeAt (levelsFor v)
    if nullable then s.writeNullable nested v
    else if v.isNull then .fault (.nullNotAllowed kind)
    else s.writePayload nested v

end Registry

end GraphServer
