import GraphServer.Codec.Registry

/-!
The serializers of containers: a count and then the items in order, each with its own type code and
flags. A bulk set has the multiplicity of each item after it. A map entry lives in maps only: written
alone it becomes the map of that entry, and it is never read alone.
-/

namespace GraphServer.Serializer

/-- Reads a count and as many values. -/
def readItems (widths : Widths) (what : Counted) (nested : Decode Value) : Decode (List Value) := do
  let n ← Decode.length widths what
  Decode.times n nested

/-- Writes a count and the values. -/
def writeItems (nested : Value → Encoding) (items : List Value) : Encoding :=
  .length items.length ++ .each items nested

/-- A list. -/
def list (widths : Widths) : Serializer where
  kind := .list
  readPayload nested := .list <$> readItems widths .list nested
  writePayload nested
    | .list items => writeItems nested items
    | v => .fault (.mismatch .list v.kind)

/-- A set, in the order in which its items came. -/
def set (widths : Widths) : Serializer where
  kind := .set
  readPayload nested := .set <$> readItems widths .set nested
  writePayload nested
    | .set items => writeItems nested items
    | v => .fault (.mismatch .set v.kind)

/-- Reads a key and its value. -/
def readEntry (nested : Decode Value) : Decode (Value × Value) := do
  let key ← nested
  let value ← nested
  return (key, value)

/-- A map, in the order in which its entries came. -/
def map (widths : Widths) : Serializer where
  kind := .map
  readPayload nested := do
    let n ← Decode.length widths .map
    let entries ← Decode.times n (readEntry nested)
    return .map entries
  writePayload nested
    | .map entries => .length entries.length ++ .each entries fun (key, value) => nested key ++ nested value
    | v => .fault (.mismatch .map v.kind)

/-- Reads an item and its multiplicity. -/
def readCounted (nested : Decode Value) : Decode (Value × Int64) := do
  let item ← nested
  let bulk ← Decode.long
  return (item, bulk)

/-- A set whose items have multiplicities. -/
def bulkSet (widths : Widths) : Serializer where
  kind := .bulkSet
  readPayload nested := do
    let n ← Decode.length widths .bulkSet
    let items ← Decode.times n (readCounted nested)
    return .bulkSet items
  writePayload nested
    | .bulkSet items => .length items.length ++ .each items fun (item, bulk) => nested item ++ .long bulk
    | v => .fault (.mismatch .bulkSet v.kind)

/-- A lone map entry, which is written as the map of that entry. -/
def mapEntry : Serializer where
  kind := .mapEntry
  transform
    | .mapEntry key value => some (.map [(key, value)])
    | _ => none
  readPayload _ := throw (.containerOnly "A map entry should not be read individually")
  writePayload _ _ := .fail (.containerOnly "A map entry should not be written individually")

end GraphServer.Serializer
