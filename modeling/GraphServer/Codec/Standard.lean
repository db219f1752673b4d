import GraphServer.Codec.Collection
import GraphServer.Codec.Element
import GraphServer.Codec.Scalar

/-!
The standard serializers: one for every kind except the null of no particular kind, which has no payload.
-/

namespace GraphServer

/-- The standard serializer of a kind. -/
def Serializer.standard? (widths : Widths) : Kind → Option Serializer
  | .int => some .int
  | .long => some .long
  | .string => some (.string widths)
  | .date => some .date
  | .timestamp => some .timestamp
  | .class_ => some (.class_ widths)
  | .double => some .double
  | .float => some .float
  | .list => some (.list widths)
  | .map => some (.map widths)
  | .set => some (.set widths)
  | .uuid => some .uuid
  | .edge => some (.edge widths)
  | .path => some .path
  | .property => some (.property widths)
  | .vertex => some (.vertex widths)
  | .vertexProperty => some (.vertexProperty widths)
  | .traverser => some .traverser
  | .byte => some .byte
  | .byteBuffer => some (.byteBuffer widths)
  | .short => some .short
  | .boolean => some .boolean
  | .bulkSet => some (.bulkSet widths)
  | .char => some .char
  | .duration => some .duration
  | .mapEntry => some .mapEntry
  | .unspecifiedNull => none

theorem Serializer.kind_standard {widths : Widths} {kind : Kind} {s : Serializer}
    (h : Serializer.standard? widths kind = some s) : s.kind = kind := by
  cases kind <;> simp [Serializer.standard?] at h <;> subst h <;> rfl

namespace Registry

/-- The standard serializers with counts checked by given widths. -/
def standardWith (widths : Widths) : Registry where
  find? := Serializer.standard? widths
  kind_of_find? := Serializer.kind_standard

/-- The standard serializers. -/
def standard : Registry :=
  standardWith .encoded

end Registry

end GraphServer
