import RtmpRelay.Amf.Amf0

/-! Two readers that are put together in the same way from steps that are alike are alike themselves. What it means to be
alike is left open: a relation of the computations of one kind with those of another will do, if it is kept when
computations follow each other. A computation that takes a byte at least may be alike in a stronger sense, which is what
is asked of the items of a loop. -/

namespace RtmpRelay.Amf

structure Likeness (m n : Type → Type) [Monad m] [Monad n] where
  Alike : {α : Type} → m α → n α → Prop
  /-- Alike, and something is taken. -/
  Takes : {α : Type} → m α → n α → Prop
  alike : ∀ {α : Type} {first : m α} {second : n α}, Takes first second → Alike first second
  pure : ∀ {α : Type} (value : α), Alike (pure value) (pure value)
  bind : ∀ {α β : Type} {first : m α} {second : n α} {next : α → m β} {other : α → n β}, Alike first second →
    (∀ value, Alike (next value) (other value)) → Alike (first >>= next) (second >>= other)
  takes_bind : ∀ {α β : Type} {first : m α} {second : n α} {next : α → m β} {other : α → n β}, Takes first second →
    (∀ value, Alike (next value) (other value)) → Takes (first >>= next) (second >>= other)

namespace Likeness
variable {m n : Type → Type} [Monad m] [Monad n] (likeness : Likeness m n)

theorem map {α β : Type} {first : m α} {second : n α} (alike : likeness.Alike first second) (change : α → β) :
    likeness.Alike (first >>= fun value => Pure.pure (change value))
      (second >>= fun value => Pure.pure (change value)) :=
  likeness.bind alike fun _ => likeness.pure _

theorem takes_map {α β : Type} {first : m α} {second : n α} (takes : likeness.Takes first second) (change : α → β) :
    likeness.Takes (first >>= fun value => Pure.pure (change value))
      (second >>= fun value => Pure.pure (change value)) :=
  likeness.takes_bind takes fun _ => likeness.pure _

theorem mapM [LawfulMonad m] [LawfulMonad n] {α β : Type} {next : α → m β} {other : α → n β} (items : List α)
    (alike : ∀ item, likeness.Alike (next item) (other item)) :
    likeness.Alike (items.mapM next) (items.mapM other) := by
  induction items with
  | nil =>
    rw [List.mapM_nil, List.mapM_nil]
    exact likeness.pure []
  | cons item items ih =>
    rw [List.mapM_cons, List.mapM_cons]
    exact likeness.bind (alike item) fun _ => likeness.map ih _

end Likeness

namespace Amf3

/-- The steps of one reader are alike to those of the other. Of the loops over entries this is asked with the names that
the readers themselves read. -/
structure Parts.Alike {m n : Type → Type} [Monad m] [Monad n] (likeness : Likeness m n) (parts : Parts m)
    (others : Parts n) : Prop where
  refuse : ∀ {α : Type} (error : Error), likeness.Alike (parts.refuse error : m α) (others.refuse error)
  repeated : ∀ {α : Type} {item : m α} {other : n α}, likeness.Takes item other →
    ∀ count, likeness.Alike (parts.repeated item count) (others.repeated other count)
  entries : ∀ {value : m Value} {other : n Value}, likeness.Takes parts.name others.name →
    likeness.Takes value other →
    likeness.Alike (parts.entries parts.name value) (others.entries others.name other)
  u29 : likeness.Takes parts.u29 others.u29
  double : likeness.Alike parts.double others.double
  text : ∀ size, likeness.Alike (parts.text size) (others.text size)
  stringAt : ∀ index, likeness.Alike (parts.stringAt index) (others.stringAt index)
  keepString : ∀ text, likeness.Alike (parts.keepString text) (others.keepString text)
  traitsAt : ∀ index, likeness.Alike (parts.traitsAt index) (others.traitsAt index)
  keepTraits : ∀ traits, likeness.Alike (parts.keepTraits traits) (others.keepTraits traits)
  objectAt : ∀ index, likeness.Alike (parts.objectAt index) (others.objectAt index)
  keepObject : ∀ value, likeness.Alike (parts.keepObject value) (others.keepObject value)
  container : ∀ {value : m Value} {other : n Value}, likeness.Alike value other →
    likeness.Alike (parts.container value) (others.container other)

namespace Parts.Alike
variable {m n : Type → Type} [Monad m] [Monad n] {likeness : Likeness m n} {parts : Parts m} {others : Parts n}

section Steps
variable (alike : Alike likeness parts others)
include alike

theorem string : likeness.Takes parts.string others.string := by
  refine likeness.takes_bind alike.u29 fun header => ?_
  split
  · exact alike.stringAt _
  refine likeness.bind (alike.text _) fun text => ?_
  exact likeness.map (alike.keepString text) _

theorem name : likeness.Takes parts.name others.name :=
  likeness.takes_map alike.string _

theorem shared {inPlace : Nat → m Value} {other : Nat → n Value}
    (each : ∀ header, likeness.Alike (inPlace header) (other header)) :
    likeness.Alike (parts.shared inPlace) (others.shared other) := by
  refine likeness.bind (likeness.alike alike.u29) fun header => ?_
  split
  · exact alike.objectAt _
  · exact each _

theorem kept (value : Value) : likeness.Alike (parts.kept value) (others.kept value) :=
  likeness.map (alike.keepObject value) _

theorem xml : likeness.Alike parts.xml others.xml :=
  alike.shared fun size => likeness.bind (alike.text size) fun _ => alike.kept _

theorem date : likeness.Alike parts.date others.date :=
  alike.shared fun _ => likeness.bind alike.double fun _ => alike.kept _

theorem readTraits (header : Nat) : likeness.Alike (parts.readTraits header) (others.readTraits header) := by
  unfold Parts.readTraits
  split
  · exact alike.traitsAt _
  split
  · exact alike.refuse _
  refine likeness.bind (likeness.alike alike.string) fun className => ?_
  refine likeness.bind (alike.repeated alike.string _) fun members => ?_
  exact likeness.map (alike.keepTraits _) _

end Steps

section Values
variable (alike : Alike likeness parts others) {value : m Value} {other : n Value}
  (values : likeness.Takes value other)
include alike values

theorem array : likeness.Alike (parts.array value) (others.array other) := by
  refine alike.shared fun size => alike.container ?_
  refine likeness.bind (alike.entries alike.name values) fun named => ?_
  exact likeness.map (alike.repeated values size) _

variable [LawfulMonad m] [LawfulMonad n]

theorem object : likeness.Alike (parts.object value) (others.object other) := by
  refine alike.shared fun header => likeness.bind (alike.readTraits header) fun traits => alike.container ?_
  have fixed : likeness.Alike (memberValues value traits.members) (memberValues other traits.members) :=
    likeness.mapM _ fun member => likeness.map (likeness.alike values) _
  refine likeness.bind fixed fun fixed => likeness.map ?_ _
  unfold furtherValues
  split
  · exact alike.entries alike.name values
  · exact likeness.pure []

theorem marked (marker : UInt8) : likeness.Alike (parts.marked value marker) (others.marked other marker) := by
  unfold Parts.marked
  split
  iterate 4 exact likeness.pure _
  next => exact likeness.map (likeness.alike alike.u29) _
  next => exact likeness.map alike.double _
  next => exact likeness.map (likeness.alike alike.string) _
  iterate 2 exact alike.xml
  next => exact alike.date
  next => exact alike.array values
  next => exact alike.object values
  all_goals exact alike.refuse _

end Values
end Parts.Alike
end Amf3

namespace Amf0

structure Parts.Alike {m n : Type → Type} [Monad m] [Monad n] (likeness : Likeness m n) (parts : Parts m)
    (others : Parts n) : Prop where
  refuse : ∀ {α : Type} (error : Error), likeness.Alike (parts.refuse error : m α) (others.refuse error)
  repeated : ∀ {α : Type} {item : m α} {other : n α}, likeness.Takes item other →
    ∀ count, likeness.Alike (parts.repeated item count) (others.repeated other count)
  entries : ∀ {value : m Value} {other : n Value}, likeness.Takes parts.name others.name →
    likeness.Takes value other →
    likeness.Alike (parts.entries parts.name value) (others.entries others.name other)
  take : ∀ count, likeness.Alike (parts.take count) (others.take count)
  takes : ∀ count, 0 < count → likeness.Takes (parts.take count) (others.take count)
  byte : likeness.Alike parts.byte others.byte

namespace Parts.Alike
variable {m n : Type → Type} [Monad m] [Monad n] {likeness : Likeness m n} {parts : Parts m} {others : Parts n}

section Steps
variable (alike : Alike likeness parts others)
include alike

theorem natural (width : Nat) : likeness.Alike (naturalVia parts.take width) (naturalVia others.take width) :=
  likeness.map (alike.take width) _

theorem double : likeness.Alike (doubleVia parts.take) (doubleVia others.take) :=
  likeness.map (alike.take 8) _

theorem text (bytes : Nat) : likeness.Alike (textVia parts.take bytes) (textVia others.take bytes) :=
  likeness.map (alike.take bytes) _

theorem sizedText {width : Nat} (positive : 0 < width) :
    likeness.Takes (sizedTextVia parts.take width) (sizedTextVia others.take width) :=
  likeness.takes_bind (likeness.takes_map (alike.takes width positive) _) fun size => alike.text size

theorem name : likeness.Takes parts.name others.name := by
  refine likeness.takes_bind (alike.sizedText Nat.two_pos) fun text => ?_
  split
  · refine likeness.bind alike.byte fun marker => ?_
    split
    · exact likeness.pure none
    · exact alike.refuse _
  · exact likeness.pure _

end Steps

section Values
variable (alike : Alike likeness parts others) {value escaped : m Value} {other otherEscaped : n Value}
  (values : likeness.Takes value other)
include alike values

theorem properties : likeness.Alike (parts.properties value) (others.properties other) :=
  likeness.map (alike.entries alike.name values) _

theorem marked (escapes : likeness.Alike escaped otherEscaped) (byte : UInt8) :
    likeness.Alike (parts.marked value escaped byte) (others.marked other otherEscaped byte) := by
  have text {width : Nat} (positive : 0 < width) := likeness.alike (alike.sizedText positive)
  unfold Parts.marked
  cases Marker.ofByte? byte with
  | none => exact alike.refuse _
  | some marker =>
    cases marker with
    | number => exact likeness.map alike.double _
    | boolean => exact likeness.map alike.byte _
    | string => exact likeness.map (text Nat.two_pos) _
    | object => exact likeness.map (alike.properties values) _
    | null | undefined => exact likeness.pure _
    | ecmaArray => exact likeness.bind (alike.natural 4) fun _ => likeness.map (alike.properties values) _
    | strictArray => exact likeness.bind (alike.natural 4) fun count => likeness.map (alike.repeated values count) _
    | date => exact likeness.bind alike.double fun _ => likeness.map (alike.take 2) _
    | longString | xmlDocument => exact likeness.map (text (Nat.succ_pos 3)) _
    | typedObject => exact likeness.bind (text Nat.two_pos) fun _ => likeness.map (alike.properties values) _
    | avmPlus => exact escapes
    | movieClip | reference | objectEnd | unsupported | recordSet => exact alike.refuse _

end Values
end Parts.Alike
end Amf0
end RtmpRelay.Amf
