import GraphServer.Codec.Standard
import GraphServer.Proofs.Value.WellFormed

/-!
Which byte strings spell a value.

A `Form` relates byte strings to what they spell and says nothing of how they are read: there is no position,
no look at what follows and no order in which faults are found. Forms are put together like readers, one part
after the other.

* `Form.payload`: the payload of each kind, given what spells the values inside it;
* `Registry.Spells r n`: the spellings of values in which everything, also what is skipped, nests to at most `n`
  levels, a null taking none;
* `Registry.Spells.two_le`, `Registry.gives_spells`: a spelling has at least two bytes, and the value that it
  spells nests no deeper than the spelling.
-/

namespace GraphServer

/-- Which byte strings spell what. -/
def Form (α : Type) := Bytes → α → Prop

namespace Form

variable {α β : Type}

/-- One part after the other, where the first part may decide on the form of the second one. -/
instance : Monad Form where
  pure x := fun bytes y => bytes = [] ∧ y = x
  bind p q := fun bytes y => ∃ front x rest, bytes = front ++ rest ∧ p front x ∧ q x rest y
  map f p := fun bytes y => ∃ x, p bytes x ∧ y = f x

/-- No spelling of anything. -/
def none : Form α := fun _ _ => False

/-- Nothing more to spell, if a condition holds. -/
def provided (condition : Prop) (x : α) : Form α := fun bytes y => bytes = [] ∧ condition ∧ y = x

/-- What an encoder writes, unless it gives up. -/
def written (write : α → Encoding) : Form α := fun bytes x =>
  (write x).error? = Option.none ∧ bytes = (write x).bytes

/-- One byte, of which zero is false and anything else true. -/
def flag : Form Bool := fun bytes b => ∃ byte : UInt8, bytes = [byte] ∧ b = decide (byte.toNat ≠ 0)

/-- Bytes behind their count. -/
def octets : Form Bytes :=
  written fun bytes => .length bytes.length ++ .chunk bytes

/-- As many spellings as there are items, one after the other. -/
def each (p : Form α) : Form (List α) := fun bytes xs =>
  ∃ parts : List Bytes, bytes = parts.flatten ∧ List.Forall₂ p parts xs

/-- What stands behind its count. -/
def behind (q : Nat → Form α) : Form α := fun bytes x =>
  ∃ n rest, n ≤ maxLength ∧ bytes = Bytes.ofNat 4 n ++ rest ∧ q n rest x

/-- Items behind their count. -/
def counted (p : Form α) : Form (List α) :=
  behind fun n bytes xs => xs.length = n ∧ p.each bytes xs

/-- A list of elements as a value, null standing for none. -/
def elements (wrap : α → Value) (inside : Form Value) : Form (List α) := fun bytes xs =>
  xs = [] ∧ inside bytes .null ∨ inside bytes (.list (xs.map wrap))

/-- The label set of one step of a path. -/
def labels (step : List String) : Value :=
  .set (step.map .string)

/-- An element that another one refers to. -/
def elementRef (inside : Form Value) : Form (ElementRef Value) := do
  let id ← inside
  let label ← written .string
  return ⟨id, label⟩

/-- The payload of each kind. The values that own a property, a vertex property or an edge are spelled like any
other and left out of what is spelled. -/
def payload (inside : Form Value) : Kind → Form Value
  | .int => .int <$> written .int
  | .long => .long <$> written .long
  | .short => .short <$> written .short
  | .byte => .byte <$> written .byte
  | .boolean => .boolean <$> flag
  | .float => .float <$> written .float
  | .double => .double <$> written .double
  | .date => .date <$> written .long
  | .timestamp => .timestamp <$> written .long
  | .string => .string <$> written .string
  | .class_ => .class_ <$> written .string
  | .uuid => .uuid <$> written .uuid
  | .char => .char <$> written .char
  | .duration => do
    let seconds ← written .long
    let nanos ← written .int
    return .duration seconds nanos
  | .byteBuffer => .byteBuffer <$> octets
  | .list => .list <$> counted inside
  | .set => .set <$> counted inside
  | .map => .map <$> counted do
    let key ← inside
    let value ← inside
    return (key, value)
  | .bulkSet => .bulkSet <$> counted do
    let item ← inside
    let bulk ← written .long
    return (item, bulk)
  | .property => do
    let key ← written .string
    let value ← inside
    let _owner ← inside
    return .property ⟨key, value⟩
  | .vertexProperty => do
    let id ← inside
    let label ← written .string
    let value ← inside
    let _owner ← inside
    let properties ← elements .property inside
    return .vertexProperty ⟨id, label, value, properties⟩
  | .vertex => do
    let id ← inside
    let label ← written .string
    let properties ← elements .vertexProperty inside
    return .vertex ⟨id, label, properties⟩
  | .edge => do
    let id ← inside
    let label ← written .string
    let inVertex ← elementRef inside
    let outVertex ← elementRef inside
    let _owner ← inside
    let properties ← elements .property inside
    return .edge ⟨id, label, inVertex, outVertex, properties⟩
  | .path => do
    let steps ← elements labels inside
    let objects ← elements id inside
    provided (steps.length = objects.length) (.path ⟨steps, objects⟩)
  | .traverser => do
    let bulk ← written .long
    let value ← inside
    return .traverser ⟨bulk, value⟩
  | .mapEntry | .unspecifiedNull => none

/-- A null: any type code, and flags that mark it. -/
def null : Form Value := fun bytes v => v = .null ∧ ∃ code flags, bytes = [code, flags] ∧ ValueFlags.isNull flags

/-- A payload behind its flags, unless they mark a null. -/
def nullable (p : Form Value) : Form Value := fun bytes v => ∃ flags rest, bytes = flags :: rest ∧
  (ValueFlags.isNull flags ∧ rest = [] ∧ v = .null ∨ ValueFlags.isNull flags = false ∧ p rest v)

end Form

/-- The spellings of values of the kinds in a table that nest to at most so many levels, whatever is left out of
them included: a null, or the header of a kind and its payload, where the values inside have one level less. -/
def Registry.Spells (r : Registry) : (levels : Nat) → Form Value
  | 0 => Form.null
  | levels + 1 => fun bytes v => Form.null bytes v ∨
    ∃ kind flags rest, bytes = kind.code :: flags :: rest ∧ ValueFlags.isNull flags = false ∧ r.contains kind ∧
      Form.payload (r.Spells levels) kind rest v

/-- The spellings of values whose kind is known from their place, behind flags if they may be null. -/
def Registry.SpellsBare (r : Registry) (limit : Nat) (kind : Kind) (nullable : Bool) : Form Value := fun bytes v =>
  ∃ levels, limit = levels + 1 ∧ r.contains kind ∧ kind ≠ .unspecifiedNull ∧
    if nullable then Form.nullable (Form.payload (r.Spells levels) kind) bytes v
    else Form.payload (r.Spells levels) kind bytes v

namespace Registry

variable {r : Registry} {levels : Nat} {bytes : Bytes} {v : Value}

/-- A type code and flags at least. -/
lemma Spells.two_le (h : r.Spells levels bytes v) : 2 ≤ bytes.length := by
  have null_two (h : Form.null bytes v) : 2 ≤ bytes.length := by
    obtain ⟨-, code, flags, rfl, -⟩ := h
    exact le_rfl
  cases levels with
  | zero => exact null_two h
  | succ levels =>
    obtain h | ⟨kind, flags, rest, rfl, -⟩ := h
    · exact null_two h
    · exact Nat.le_add_left 2 rest.length

end Registry

/-! ### How deep a value nests that was spelled -/

namespace Value

/-- A value whose values inside nest to one level less than it may; at no level only null is left. -/
def NestsTo : Nat → Value → Prop
  | 0, v => v = null
  | n + 1, v => ∀ w ∈ v.parts, w.NestsTo n

lemma nestsTo_null (n : Nat) : null.NestsTo n := by
  cases n with
  | zero => rfl
  | succ n => exact fun w hw => absurd hw List.not_mem_nil

lemma NestsTo.succ {n : Nat} {v : Value} (h : v.NestsTo n) : v.NestsTo (n + 1) := by
  induction n generalizing v with
  | zero =>
    obtain rfl : v = null := h
    exact nestsTo_null 1
  | succ n ih => exact fun w hw => ih (h w hw)

/-- The items of a list nest to the level to which the list does. -/
lemma NestsTo.of_mem_list {n : Nat} {items : List Value} (h : (list items).NestsTo n) {v : Value}
    (hv : v ∈ items) : v.NestsTo n := by
  cases n with
  | zero => cases h
  | succ n => exact (h v hv).succ

end Value

namespace Form

variable {α β : Type} {P : α → Prop} {Q : β → Prop}

/-- Whatever is spelled has the property. -/
def Gives (p : Form α) (P : α → Prop) : Prop :=
  ∀ bytes x, p bytes x → P x

lemma gives_any (p : Form α) : p.Gives fun _ => True := fun _ _ _ => trivial

lemma gives_pure {x : α} (h : P x) : (pure x : Form α).Gives P := by
  rintro bytes y ⟨-, rfl⟩
  exact h

lemma Gives.bind {p : Form α} {q : α → Form β} (hp : p.Gives P) (hq : ∀ x, P x → (q x).Gives Q) :
    (p >>= q).Gives Q := by
  rintro bytes y ⟨front, x, rest, -, hx, hy⟩
  exact hq x (hp front x hx) rest y hy

/-- A part whose value does not matter, before the rest. -/
lemma gives_bind {p : Form α} {q : α → Form β} (hq : ∀ x, (q x).Gives Q) : (p >>= q).Gives Q :=
  (gives_any p).bind fun x _ => hq x

lemma Gives.map {p : Form α} {f : α → β} (hp : p.Gives P) (h : ∀ x, P x → Q (f x)) : (f <$> p).Gives Q := by
  rintro bytes y ⟨x, hx, rfl⟩
  exact h x (hp bytes x hx)

lemma Gives.each {p : Form α} (h : p.Gives P) : p.each.Gives fun xs => ∀ x ∈ xs, P x := by
  rintro bytes xs ⟨parts, -, hparts⟩
  induction hparts with
  | nil => simp
  | cons hx _ ih => exact List.forall_mem_cons.mpr ⟨h _ _ hx, ih⟩

lemma Gives.counted {p : Form α} (h : p.Gives P) : p.counted.Gives fun xs => ∀ x ∈ xs, P x := by
  rintro bytes xs ⟨n, items, -, -, -, hitems⟩
  exact h.each items xs hitems

section Payload

variable {inside : Form Value} {n : Nat}

lemma gives_elements {wrap : α → Value} (h : inside.Gives (Value.NestsTo n)) :
    (elements wrap inside).Gives fun xs => ∀ x ∈ xs, (wrap x).NestsTo n := by
  rintro bytes xs (⟨rfl, -⟩ | hlist)
  · simp
  · exact fun x hx => (h _ _ hlist).of_mem_list (List.mem_map_of_mem hx)

lemma gives_elementRef (h : inside.Gives (Value.NestsTo n)) : (elementRef inside).Gives fun e => e.id.NestsTo n :=
  h.bind fun _ hid => gives_bind fun _ => gives_pure hid

/-- A value without values inside it. -/
lemma gives_leaf {p : Form α} {wrap : α → Value} (h : ∀ x, (wrap x).parts = []) :
    (wrap <$> p).Gives (Value.NestsTo (n + 1)) :=
  (gives_any p).map fun x _ w hw => by simp [h x] at hw

/-- A payload spells a value one level deeper than what is inside it. -/
lemma gives_payload (h : inside.Gives (Value.NestsTo n)) (kind : Kind) :
    (payload inside kind).Gives (Value.NestsTo (n + 1)) := by
  cases kind with
  | list | set => exact h.counted.map fun _ hitems => hitems
  | map =>
    refine Gives.map (Gives.counted (P := fun e => e.1.NestsTo n ∧ e.2.NestsTo n) ?_) fun entries hentries w hw => ?_
    · exact h.bind fun _ hkey => h.bind fun _ hvalue => gives_pure ⟨hkey, hvalue⟩
    · obtain ⟨e, he, hw⟩ := List.mem_flatMap.mp hw
      obtain rfl | hw := List.mem_cons.mp hw
      · exact (hentries e he).1
      · obtain rfl := List.mem_singleton.mp hw
        exact (hentries e he).2
  | bulkSet =>
    refine Gives.map (Gives.counted (P := fun e => e.1.NestsTo n) ?_) fun items hitems => List.forall_mem_map.mpr hitems
    exact h.bind fun _ hitem => gives_bind fun _ => gives_pure hitem
  | property =>
    refine gives_bind fun _ => h.bind fun _ hvalue => gives_bind fun _ => gives_pure ?_
    exact List.forall_mem_singleton.mpr hvalue
  | vertexProperty =>
    refine h.bind fun _ hid => gives_bind fun _ => h.bind fun _ hvalue => gives_bind fun _ =>
      (gives_elements h).bind fun _ hproperties => gives_pure ?_
    exact List.forall_mem_cons.mpr ⟨hid, List.forall_mem_cons.mpr ⟨hvalue, List.forall_mem_map.mpr hproperties⟩⟩
  | vertex =>
    refine h.bind fun _ hid => gives_bind fun _ => (gives_elements h).bind fun _ hproperties => gives_pure ?_
    exact List.forall_mem_cons.mpr ⟨hid, List.forall_mem_map.mpr hproperties⟩
  | edge =>
    refine h.bind fun _ hid => gives_bind fun _ => (gives_elementRef h).bind fun _ hin =>
      (gives_elementRef h).bind fun _ hout => gives_bind fun _ =>
        (gives_elements h).bind fun _ hproperties => gives_pure ?_
    exact List.forall_mem_cons.mpr ⟨hid, List.forall_mem_cons.mpr ⟨hin,
      List.forall_mem_cons.mpr ⟨hout, List.forall_mem_map.mpr hproperties⟩⟩⟩
  | path =>
    refine gives_bind fun _ => (gives_elements h).bind fun objects hobjects => ?_
    rintro bytes v ⟨-, -, rfl⟩
    exact hobjects
  | traverser =>
    refine gives_bind fun _ => h.bind fun _ hvalue => gives_pure ?_
    exact List.forall_mem_singleton.mpr hvalue
  | duration => exact gives_bind fun _ => gives_bind fun _ => gives_pure fun w hw => absurd hw List.not_mem_nil
  | mapEntry | unspecifiedNull => exact fun _ _ h => h.elim
  | _ => exact gives_leaf fun _ => rfl

end Payload

end Form

/-- What is spelled within so many levels nests to so many levels. -/
lemma Registry.gives_spells (r : Registry) (levels : Nat) : (r.Spells levels).Gives (Value.NestsTo levels) := by
  induction levels with
  | zero => exact fun _ _ h => h.1
  | succ levels ih =>
    rintro bytes v (⟨rfl, -⟩ | ⟨kind, flags, rest, -, -, -, hpayload⟩)
    · exact Value.nestsTo_null (levels + 1)
    · exact Form.gives_payload ih kind rest v hpayload

end GraphServer
