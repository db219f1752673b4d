import GraphServer.Proofs.Codec.Recognised

/-!
Relations between readers that reading by parts keeps.

Two readers of values may differ in the measure that they hold counts against, and in how deep they let values
nest. `Decode.Congruence` collects what a relation has to respect for it to hold of the readers of values when it
holds of what differs.

* `Decode.Congruence.payload`, `Decode.Congruence.readWith`: payloads, and values with their headers;
* `Decode.Curbs`: one reader does what another one does or gives up with an error of its own;
* `Decode.Blames`: a reader gives up with nothing but serialization errors;
* `Decode.congruence_curbs`, `Decode.congruence_blames`: both are kept.
-/

namespace GraphServer

namespace Decode

/-- A relation between readers that the parts of the readers of values have, and that is kept from part to part.
Counts are held against one measure on the left and against another one on the right. -/
structure Congruence (R : ∀ {α : Type}, Decode α → Decode α → Prop) (widths widths' : Widths) : Prop where
  pure : ∀ {α : Type} (x : α), R (pure x) (pure x)
  throw : ∀ {α : Type} (e : Error), e.status = .serializationError → R (throw e : Decode α) (throw e)
  take : ∀ op n, R (take op n) (take op n)
  length : ∀ what, R (length widths what) (length widths' what)
  bind : ∀ {α β : Type} {d d' : Decode α} {f f' : α → Decode β}, R d d' → (∀ x, R (f x) (f' x)) →
    R (d >>= f) (d' >>= f')

namespace Congruence

variable {R : ∀ {α : Type}, Decode α → Decode α → Prop} {widths widths' : Widths} {α β : Type}

section Parts

variable (hR : Congruence R widths widths')
include hR

lemma fault (f : CodecFault) : R (fault f : Decode α) (Decode.fault f) := hR.throw _ rfl

lemma map {d d' : Decode α} (h : R d d') (f : α → β) : R (f <$> d) (f <$> d') := by
  rw [map_eq_pure_bind, map_eq_pure_bind]
  exact hR.bind h fun x => hR.pure (f x)

lemma number (op : BufferOp) (n : Nat) (f : Nat → α) : R (f <$> number op n) (f <$> Decode.number op n) :=
  hR.map (hR.map (hR.take op n) _) f

lemma uuid : R uuid Decode.uuid :=
  hR.bind (hR.map (hR.take _ _) _) fun _ => hR.bind (hR.map (hR.take _ _) _) fun _ => hR.pure _

lemma string : R (string widths) (Decode.string widths') :=
  hR.bind (hR.length _) fun _ => hR.bind (hR.take _ _) fun bytes => by
    cases Utf8.decode bytes with
    | ok text => exact hR.pure text
    | error f => exact hR.fault _

lemma char : R char Decode.char :=
  hR.bind (hR.number _ _ _) fun first => by
    cases charWidth? first with
    | none => exact hR.fault _
    | some width =>
      refine hR.bind (hR.take _ _) fun others => ?_
      split
      · exact hR.pure _
      · exact hR.fault _

lemma times {d d' : Decode α} (h : R d d') (n : Nat) : R (times n d) (Decode.times n d') := by
  induction n with
  | zero => exact hR.pure []
  | succ n ih => exact hR.bind h fun x => hR.bind ih fun xs => hR.pure (x :: xs)

lemma mapM {f : α → Decode β} (h : ∀ x, R (f x) (f x)) (xs : List α) : R (xs.mapM f) (xs.mapM f) := by
  induction xs with
  | nil => exact hR.pure []
  | cons x xs ih =>
    rw [List.mapM_cons]
    exact hR.bind (h x) fun y => hR.bind ih fun ys => hR.pure (y :: ys)

end Parts

/-! ### Payloads and values -/

section Values

variable {nested nested' : Decode Value} (hR : Congruence R widths widths')
include hR

lemma readElements (h : R nested nested') (what : String) (pick : Value → Option α) :
    R (Serializer.readElements what pick nested) (Serializer.readElements what pick nested') := by
  refine hR.bind h fun v => ?_
  split
  · exact hR.pure []
  · refine hR.mapM (fun item => ?_) _
    split
    · exact hR.pure _
    · exact hR.fault _
  · exact hR.fault _

lemma readObjects (h : R nested nested') : R (Serializer.readObjects nested) (Serializer.readObjects nested') := by
  refine hR.bind h fun v => ?_
  split
  · exact hR.pure _
  · exact hR.pure _
  · exact hR.fault _

lemma readElementRef (h : R nested nested') :
    R (Serializer.readElementRef widths nested) (Serializer.readElementRef widths' nested') :=
  hR.bind h fun _ => hR.bind hR.string fun _ => hR.pure _

lemma readItems (h : R nested nested') (what : Counted) :
    R (Serializer.readItems widths what nested) (Serializer.readItems widths' what nested') :=
  hR.bind (hR.length what) fun n => hR.times h n

/-- The payload of one kind, read with one measure of counts and with the other. -/
lemma payload (h : R nested nested') {kind : Kind} {s s' : Serializer}
    (hs : Serializer.standard? widths kind = some s) (hs' : Serializer.standard? widths' kind = some s') :
    R (s.readPayload nested) (s'.readPayload nested') := by
  cases kind <;> cases hs <;> cases hs'
  case int | long | short | byte | float | double | date | timestamp => exact hR.map (hR.number _ _ _) _
  case boolean => exact hR.map (hR.number _ _ _) _
  case uuid => exact hR.map hR.uuid _
  case char => exact hR.map hR.char _
  case string | class_ => exact hR.map hR.string _
  case duration => exact hR.bind (hR.number _ _ _) fun _ => hR.bind (hR.number _ _ _) fun _ => hR.pure _
  case byteBuffer => exact hR.bind (hR.length _) fun _ => hR.bind (hR.take _ _) fun _ => hR.pure _
  case list | set => exact hR.map (hR.readItems h _) _
  case map =>
    have entry : R (Serializer.readEntry nested) (Serializer.readEntry nested') :=
      hR.bind h fun _ => hR.bind h fun _ => hR.pure _
    exact hR.bind (hR.length _) fun n => hR.bind (hR.times entry n) fun _ => hR.pure _
  case bulkSet =>
    have counted : R (Serializer.readCounted nested) (Serializer.readCounted nested') :=
      hR.bind h fun _ => hR.bind (hR.number _ _ _) fun _ => hR.pure _
    exact hR.bind (hR.length _) fun n => hR.bind (hR.times counted n) fun _ => hR.pure _
  case property => exact hR.bind hR.string fun _ => hR.bind h fun _ => hR.bind h fun _ => hR.pure _
  case vertexProperty =>
    exact hR.bind h fun _ => hR.bind hR.string fun _ => hR.bind h fun _ => hR.bind h fun _ =>
      hR.bind (hR.readElements h _ _) fun _ => hR.pure _
  case vertex =>
    exact hR.bind h fun _ => hR.bind hR.string fun _ => hR.bind (hR.readElements h _ _) fun _ => hR.pure _
  case edge =>
    exact hR.bind h fun _ => hR.bind hR.string fun _ => hR.bind (hR.readElementRef h) fun _ =>
      hR.bind (hR.readElementRef h) fun _ => hR.bind h fun _ => hR.bind (hR.readElements h _ _) fun _ => hR.pure _
  case path =>
    refine hR.bind (hR.readElements h _ _) fun labels => hR.bind (hR.readObjects h) fun objects => ?_
    split
    · exact hR.fault _
    · exact hR.pure _
  case traverser => exact hR.bind (hR.number _ _ _) fun _ => hR.bind h fun _ => hR.pure _
  case mapEntry => exact hR.throw _ rfl

/-- Values of the same kinds, if what is done with the serializer of each kind is related. -/
lemma readWith (r : Registry) (payload payload' : Serializer → Decode Value)
    (h : ∀ kind s s', Serializer.standard? widths kind = some s → Serializer.standard? widths' kind = some s' →
      R (payload s) (payload' s')) :
    R ((r.withWidths widths).readWith payload) ((r.withWidths widths').readWith payload') := by
  rw [Registry.readWith_eq, Registry.readWith_eq]
  refine hR.bind (hR.number _ _ _) fun code => hR.bind (hR.number _ _ _) fun flags => ?_
  split
  · exact hR.pure _
  rw [Registry.dispatch, Registry.dispatch]
  split
  · exact hR.throw _ rfl
  · exact hR.fault _
  next kind _ _ =>
    obtain ⟨s, s', hs, hs', -, hfind, hfind'⟩ | ⟨-, hfind, hfind'⟩ := r.find?_withWidths widths widths' kind
    · simp only [hfind, hfind']
      exact h kind s s' hs hs'
    · simp only [hfind, hfind']
      exact hR.throw _ rfl

/-- Values to the same depth. -/
lemma readAt (r : Registry) (limit levels : Nat) :
    R ((r.withWidths widths).readAt limit levels) ((r.withWidths widths').readAt limit levels) := by
  induction levels with
  | zero => exact hR.readWith r _ _ fun _ _ _ _ _ => hR.fault _
  | succ levels ih => exact hR.readWith r _ _ fun _ _ _ hs hs' => hR.payload ih hs hs'

/-- Payloads whose kind is known from their place. -/
lemma readBare (r : Registry) (limit : Nat) (kind : Kind) (nullable : Bool) :
    R ((r.withWidths widths).readBare limit kind nullable) ((r.withWidths widths').readBare limit kind nullable) := by
  rw [Registry.readBare, Registry.readBare]
  obtain ⟨s, s', hs, hs', -, hfind, hfind'⟩ | ⟨-, hfind, hfind'⟩ := r.find?_withWidths widths widths' kind
  · simp only [Registry.get, hfind, hfind']
    cases limit with
    | zero => exact hR.fault _
    | succ levels =>
      have payload := hR.payload (hR.readAt r (levels + 1) levels) hs hs'
      cases nullable with
      | true =>
        refine hR.bind (hR.number _ _ _) fun flags => ?_
        split
        · exact hR.pure _
        · exact payload
      | false => exact payload
  · simp only [Registry.get, hfind, hfind']
    exact hR.throw _ rfl

end Values

end Congruence

/-! ### Readers that give up earlier -/

variable {α β : Type}

/-- One reader does what the other one does, or it gives up with an error of a kind of its own. -/
def Curbs (E : Error → Prop) (d d' : Decode α) : Prop :=
  ∀ c, d c = d' c ∨ ∃ e c', E e ∧ d c = .error e c'

variable {E : Error → Prop}

lemma curbs_refl (d : Decode α) : Curbs E d d := fun _ => .inl rfl

lemma curbs_throw {e : Error} (h : E e) (d : Decode α) : Curbs E (throw e) d := fun c => .inr ⟨e, c, h, rfl⟩

lemma Curbs.bind {d d' : Decode α} {f f' : α → Decode β} (hd : Curbs E d d') (hf : ∀ x, Curbs E (f x) (f' x)) :
    Curbs E (d >>= f) (d' >>= f') := by
  intro c
  change EStateM.bind d f c = EStateM.bind d' f' c ∨ ∃ e c', E e ∧ EStateM.bind d f c = .error e c'
  rw [EStateM.bind, EStateM.bind]
  obtain hsame | ⟨e, c', he, hfail⟩ := hd c
  · rw [hsame]
    cases d' c with
    | ok x c₁ => exact hf x c₁
    | error e c₁ => exact .inl rfl
  · rw [hfail]
    exact .inr ⟨e, c', he, rfl⟩

/-- Read from a buffer, one reader yields what the other one does, or it gives up. -/
lemma Curbs.decode {d d' : Decode α} (h : Curbs E d d') (b : Buffer) :
    b.decode d = b.decode d' ∨ ∃ e, E e ∧ (b.decode d).1 = .error e := by
  obtain hsame | ⟨e, c, he, hfail⟩ := h b.cursor
  · exact .inl (by rw [Buffer.decode, Buffer.decode, hsame])
  by_cases live : b.references = 0
  · exact .inl (by rw [Buffer.decode, Buffer.decode, Buffer.ensureLive, if_pos live])
  · refine .inr ⟨e, he, ?_⟩
    rw [Buffer.decode, Buffer.ensureLive, if_neg live]
    simp only [hfail]

/-- To give up earlier is kept from part to part, if it is to hold a count against a stricter measure. -/
lemma congruence_curbs {widths widths' : Widths}
    (h : ∀ what, Curbs E (length widths what) (length widths' what)) : Congruence (Curbs E) widths widths' where
  pure _ := curbs_refl _
  throw _ _ := curbs_refl _
  take _ _ := curbs_refl _
  length := h
  bind := Curbs.bind

/-! ### The errors of readers -/

/-- The reader gives up with nothing but serialization errors. -/
def Blames (d : Decode α) : Prop :=
  ∀ c e c', d c = .error e c' → e.status = .serializationError

lemma blames_pure (x : α) : (pure x : Decode α).Blames := by
  intro c e c' h
  cases h

lemma blames_throw {e : Error} (he : e.status = .serializationError) : (throw e : Decode α).Blames := by
  intro c e' c' h
  obtain ⟨rfl, -⟩ := EStateM.Result.error.inj h
  exact he

lemma Blames.bind {d : Decode α} {f : α → Decode β} (hd : d.Blames) (hf : ∀ x, (f x).Blames) :
    (d >>= f).Blames := by
  intro c e c' h
  change EStateM.bind d f c = _ at h
  rw [EStateM.bind] at h
  cases hx : d c with
  | ok x c₁ =>
    rw [hx] at h
    exact hf x c₁ e c' h
  | error e₁ c₁ =>
    rw [hx] at h
    obtain ⟨rfl, -⟩ := EStateM.Result.error.inj h
    exact hd c e₁ c₁ hx

lemma Blames.map {d : Decode α} (hd : d.Blames) (f : α → β) : (f <$> d).Blames := by
  rw [map_eq_pure_bind]
  exact hd.bind fun x => blames_pure (f x)

lemma blames_take (op : BufferOp) (n : Nat) : (take op n).Blames := by
  intro c e c' h
  rw [take] at h
  split at h
  · cases h
  · obtain ⟨rfl, -⟩ := EStateM.Result.error.inj h
    rfl

lemma blames_readable : readable.Blames := by
  intro c e c' h
  cases h

lemma congruence_blames (widths : Widths) : Congruence (fun d _ => d.Blames) widths widths where
  pure := blames_pure
  throw _ := blames_throw
  take := blames_take
  length what := by
    refine Blames.bind (((blames_take .readInt 4).map _).map _) fun n => ?_
    split
    · exact blames_throw rfl
    · refine blames_readable.bind fun left => ?_
      split
      · exact blames_throw rfl
      · exact blames_pure _
  bind hd hf := hd.bind hf

end Decode

end GraphServer
