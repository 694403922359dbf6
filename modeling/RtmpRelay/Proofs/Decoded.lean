import RtmpRelay.Proofs.Fields
import RtmpRelay.Proofs.Grammar
import RtmpRelay.Proofs.Sharing

/-! What the values look like that come out of the readers. A text gets longer where bytes are replaced, by two bytes
for each of them; counts come from fields that are no wider than those they are written to, and properties are a map.
The newer encoding puts texts and objects from its tables into a value, and those were bounded when they were read. -/

namespace RtmpRelay

namespace Text.Utf8

theorem length_encode_push (text : String) (char : Char) :
    (encode (text.push char)).length = (encode text).length + (String.utf8EncodeChar char).length := by
  simp [encode]

theorem length_encodeChar_le (char : Char) : (String.utf8EncodeChar char).length ≤ 4 := by
  rw [String.length_utf8EncodeChar]
  exact char.utf8Size_le_four

namespace Reading

theorem length_replacement : (String.utf8EncodeChar replacement).length = 3 := by
  decide

/-- The length of the text, together with what a character would be replaced by that stays a part. -/
def weight (reading : Reading) : Nat :=
  (encode reading.text).length + if reading.begun.isSome then 3 else 0

theorem lead_weight (text : String) (byte : Nat) : (lead text byte).weight ≤ (encode text).length + 3 := by
  have pushes {char : Char} (small : (String.utf8EncodeChar char).length ≤ 3) :
      weight ⟨text.push char, none⟩ ≤ (encode text).length + 3 := by
    rw [weight, length_encode_push]
    exact Nat.add_le_add_left small _
  have ascii : ∀ byte < 0x80, (String.utf8EncodeChar (Char.ofNat byte)).length ≤ 3 := by decide
  have replaces := pushes length_replacement.le
  have waits (bits missing low high : Nat) : (await text bits missing low high).weight ≤ (encode text).length + 3 :=
    Nat.le_refl _
  unfold lead
  split
  next small => exact pushes (ascii byte small)
  split
  · exact replaces
  split
  · exact waits _ _ _ _
  split
  · exact waits _ _ _ _
  split
  · exact waits _ _ _ _
  · exact replaces

theorem step_weight (reading : Reading) (byte : UInt8) : (reading.step byte).weight ≤ reading.weight + 3 := by
  obtain ⟨text, begun⟩ := reading
  unfold step
  cases begun with
  | none => exact lead_weight text byte.toNat
  | some begun =>
    have before : weight ⟨text, some begun⟩ = (encode text).length + 3 := rfl
    rw [before]
    dsimp only
    split
    · split
      · have small := length_encodeChar_le (Char.ofNat (begun.bits * 64 + (byte.toNat - 0x80)))
        rw [weight, length_encode_push]
        simp only [Option.isSome_none, Bool.false_eq_true, if_false]
        omega
      · exact Nat.le_add_right _ _
    · have led := lead_weight (text.push replacement) byte.toNat
      rw [length_encode_push, length_replacement] at led
      exact led

theorem finish_weight (reading : Reading) : (encode reading.finish).length = reading.weight := by
  obtain ⟨text, begun⟩ := reading
  cases begun with
  | none => rfl
  | some begun =>
    rw [finish, weight, length_encode_push, length_replacement]
    rfl

end Reading

/-- No byte becomes more than a replacement character. -/
theorem length_encode_decode_le (bytes : Bytes) : (encode (decode bytes)).length ≤ 3 * bytes.length := by
  have grown : ∀ (bytes : Bytes) (reading : Reading),
      (bytes.foldl Reading.step reading).weight ≤ reading.weight + 3 * bytes.length := by
    intro bytes
    induction bytes with
    | nil => exact fun _ => Nat.le_refl _
    | cons byte bytes ih =>
      intro reading
      have further := ih (reading.step byte)
      have stepped := reading.step_weight byte
      rw [List.foldl_cons, List.length_cons]
      omega
  rw [decode, Reading.finish_weight]
  exact (grown bytes ⟨"", none⟩).trans (Nat.le_of_eq (Nat.zero_add _))

/-- So many bytes are enough for a text. -/
def Within (limit : Nat) (text : String) : Prop :=
  (encode text).length ≤ limit

theorem Within.weaken {limit larger : Nat} {text : String} (within : Within limit text) (more : limit ≤ larger) :
    Within larger text :=
  Nat.le_trans within more

theorem length_encode_le (text : String) : (encode text).length ≤ 4 * text.length := by
  have chars : ∀ chars : List Char, (chars.flatMap String.utf8EncodeChar).length ≤ 4 * chars.length := by
    intro chars
    induction chars with
    | nil => exact Nat.le_refl _
    | cons char chars ih =>
      have small := length_encodeChar_le char
      rw [List.flatMap_cons, List.length_append, List.length_cons]
      omega
  exact chars text.toList

end Text.Utf8

namespace Assoc

theorem length_ofEntries_le {κ : Type u} {α : Type v} [DecidableEq κ] [Ord κ] [Std.LawfulEqOrd κ] [Std.TransOrd κ]
    (entries : List (κ × α)) : (ofEntries entries).length ≤ entries.length := by
  have fewer := (values_subperm entries).length_le
  rwa [List.length_map, List.length_map] at fewer

end Assoc

namespace Amf

/-- From a state that is in order one in order is left, and this holds of the result. -/
def Makes {σ α : Type} (ready : σ → Prop) (reader : EStateM Error σ α) (post : α → Prop) : Prop :=
  ∀ state, ready state → Ensures reader state fun result rest => ready rest ∧ post result

namespace Makes
variable {σ α β : Type} {ready : σ → Prop} {post : α → Prop}

theorem pure {value : α} (holds : post value) : Makes ready (pure value) post :=
  fun _ held => .pure ⟨held, holds⟩

theorem throw {error : Error} : Makes ready (throw error) post :=
  fun _ _ => .throw

theorem bind {first : EStateM Error σ β} {next : β → EStateM Error σ α} {one : β → Prop}
    (begins : Makes ready first one) (goesOn : ∀ value, one value → Makes ready (next value) post) :
    Makes ready (first >>= next) post :=
  fun state held => .bind ((begins state held).imp fun value rest ⟨still, holds⟩ => goesOn value holds rest still)

theorem map {first : EStateM Error σ β} {change : β → α} {one : β → Prop} (begins : Makes ready first one)
    (holds : ∀ value, one value → post (change value)) :
    Makes ready (first >>= fun value => Pure.pure (change value)) post :=
  begins.bind fun value began => .pure (holds value began)

theorem get {reader : σ → EStateM Error σ α}
    (makes : ∀ state, ready state → Makes ready (reader state) post) :
    Makes ready (MonadState.get >>= reader) post :=
  fun state held => .bind (.get (makes state held state held))

theorem modify {change : σ → σ} (keeps : ∀ state, ready state → ready (change state)) :
    Makes ready (modify change) fun _ => True :=
  fun state held => .modify ⟨keeps state held, trivial⟩

theorem imp {reader : EStateM Error σ α} {weaker : α → Prop} (makes : Makes ready reader post)
    (implies : ∀ result, post result → weaker result) : Makes ready reader weaker :=
  fun state held => (makes state held).imp fun result _ ⟨still, holds⟩ => ⟨still, implies result holds⟩

theorem repeatedFrom {item : EStateM Error σ α} (makes : Makes ready item post) (count : Nat) (held : Array α)
    (before : ∀ one ∈ held.toList, post one) :
    Makes ready (repeatedFrom item count held) fun items =>
      items.length = held.toList.length + count ∧ ∀ one ∈ items, post one := by
  induction count generalizing held with
  | zero => exact .pure ⟨rfl, before⟩
  | succ count ih =>
    refine makes.bind fun next holds => ?_
    have further := ih (held.push next) (by
      rw [Array.toList_push]
      exact List.forall_mem_append.mpr ⟨before, List.forall_mem_singleton.mpr holds⟩)
    refine further.imp fun items ⟨counted, all⟩ => ⟨?_, all⟩
    rw [counted, Array.toList_push, List.length_append, List.length_singleton]
    omega

theorem repeated {item : EStateM Error σ α} (makes : Makes ready item post) (count : Nat) :
    Makes ready (repeated item count) fun items => items.length = count ∧ ∀ one ∈ items, post one :=
  (makes.repeatedFrom count #[] fun _ member => (nomatch member)).imp fun _ ⟨counted, all⟩ =>
    ⟨counted.trans (Nat.zero_add count), all⟩

theorem entriesFrom {name : EStateM Error σ (Option String)} {value : EStateM Error σ Value} {named : String → Prop}
    {post : Value → Prop} (names : Makes ready name fun key => ∀ text, key = some text → named text)
    (values : Makes ready value post) (rounds : Bytes) (held : Array (String × Value))
    (before : ∀ pair ∈ held.toList, named pair.1 ∧ post pair.2) :
    Makes ready (entriesFrom name value rounds held) fun pairs =>
      pairs.length ≤ held.toList.length + rounds.length ∧ ∀ pair ∈ pairs, named pair.1 ∧ post pair.2 := by
  induction rounds generalizing held with
  | nil => exact .throw
  | cons round rounds ih =>
    refine names.bind fun key called => ?_
    cases key with
    | none => exact .pure ⟨Nat.le_add_right _ _, before⟩
    | some key =>
      refine values.bind fun next holds => ?_
      have further := ih (held.push (key, next)) (by
        rw [Array.toList_push]
        exact List.forall_mem_append.mpr ⟨before, List.forall_mem_singleton.mpr ⟨called key rfl, holds⟩⟩)
      refine further.imp fun pairs ⟨counted, all⟩ => ⟨counted.trans (Nat.le_of_eq ?_), all⟩
      rw [Array.toList_push, List.length_append, List.length_singleton, List.length_cons]
      omega

theorem entries {name : EStateM Error σ (Option String)} {value : EStateM Error σ Value} {named : String → Prop}
    {post : Value → Prop} (names : Makes ready name fun key => ∀ text, key = some text → named text)
    (values : Makes ready value post) (unread : Bytes) :
    Makes ready (entries name value unread) fun pairs =>
      pairs.length ≤ unread.length ∧ ∀ pair ∈ pairs, named pair.1 ∧ post pair.2 :=
  (names.entriesFrom values unread #[] fun _ member => (nomatch member)).imp fun _ ⟨counted, all⟩ =>
    ⟨counted.trans (Nat.le_of_eq (Nat.zero_add _)), all⟩

theorem mapM {items : List β} {reader : β → EStateM Error σ α}
    (makes : ∀ item ∈ items, Makes ready (reader item) post) :
    Makes ready (items.mapM reader) fun results => results.length = items.length ∧ ∀ one ∈ results, post one := by
  induction items with
  | nil =>
    rw [List.mapM_nil]
    exact .pure ⟨rfl, fun _ member => (nomatch member)⟩
  | cons item items ih =>
    rw [List.mapM_cons]
    refine (makes item List.mem_cons_self).bind fun next holds => ?_
    refine (ih fun other member => makes other (List.mem_cons_of_mem _ member)).map fun further ⟨counted, all⟩ => ?_
    exact ⟨congrArg Nat.succ counted, List.forall_mem_cons.mpr ⟨holds, all⟩⟩

end Makes

open Text.Utf8 (Within)
open Value (Throughout throughout_iff)

/-- The names of dense items count up to two to the 28, whatever the length of the input. -/
def nameLimit (limit : Nat) : Nat :=
  max (3 * limit) 36

/-- Properties that are read from so many bytes. -/
structure Mapped (limit : Nat) (properties : List (String × Value)) : Prop where
  ascending : Assoc.Ascending properties
  names : ∀ property ∈ properties, Within (nameLimit limit) property.1
  count : properties.length ≤ limit + 0x10000000

/-- What a value can be that is read from so many bytes, whatever is inside it. -/
def Shaped (limit : Nat) : Value → Prop
  | .string text => Within (3 * limit) text
  | .object properties | .ecmaArray properties => Mapped limit properties
  | .typedObject className properties => Within (3 * limit) className ∧ Mapped limit properties
  | .strictArray items => items.length < UInt32.size
  | .number _ | .boolean _ | .null | .undefined | .date _ => True

section Entries
variable {limit : Nat} {pairs : List (String × Value)}

theorem mapped_ofEntries (called : ∀ pair ∈ pairs, Within (nameLimit limit) pair.1 ∧ Throughout (Shaped limit) pair.2)
    (count : pairs.length ≤ limit + 0x10000000) :
    Mapped limit (Assoc.ofEntries pairs) ∧
      ∀ member ∈ (Assoc.ofEntries pairs).map Prod.snd, Throughout (Shaped limit) member := by
  refine ⟨⟨Assoc.ascending_ofEntries pairs, ?_, (Assoc.length_ofEntries_le pairs).trans count⟩, ?_⟩
  · exact fun property member => (called property (Assoc.mem_of_mem_ofEntries member)).1
  · refine List.forall_mem_map.mpr fun property member => ?_
    exact (called property (Assoc.mem_of_mem_ofEntries member)).2

theorem scalar_shaped {value : Value} (flat : value.members = []) (shaped : Shaped limit value) :
    Throughout (Shaped limit) value :=
  throughout_iff.mpr ⟨shaped, fun member inside => by rw [flat] at inside; cases inside⟩

end Entries

namespace Reader
variable {limit : Nat}

/-- Of the input there are at most so many bytes. -/
def Left (limit : Nat) (unread : Bytes) : Prop :=
  unread.length ≤ limit

theorem makes_of_suffix {reader : Reader α} (suffix : ∀ unread, Ensures reader unread fun _ rest => rest <:+ unread) :
    Makes (Left limit) reader fun _ => True :=
  fun unread left => (suffix unread).imp fun _ _ shorter => ⟨shorter.length_le.trans left, trivial⟩

theorem makes_of_takes {reader : Reader α} {holds : α → Bytes → Prop} {post : α → Prop} (takes : Takes reader holds)
    (implies : ∀ value taken, holds value taken → taken.length ≤ limit → post value) :
    Makes (Left limit) reader post := by
  intro unread left
  refine (takes unread).imp ?_
  rintro value rest ⟨taken, rfl, holds⟩
  rw [Left, List.length_append] at left
  exact ⟨Nat.le_trans (Nat.le_add_left _ _) left, implies value taken holds (Nat.le_trans (Nat.le_add_right _ _) left)⟩

theorem byte_makes : Makes (Left limit) byte fun _ => True :=
  makes_of_takes byte_takes fun _ _ _ _ => trivial

theorem natural_makes (width : Nat) : Makes (Left limit) (natural width) (· < 256 ^ width) :=
  makes_of_takes (natural_takes width) fun _ _ ⟨small, _⟩ _ => small

theorem double_makes : Makes (Left limit) double fun _ => True :=
  makes_of_suffix double_suffix

theorem text_makes (bytes : Nat) : Makes (Left limit) (text bytes) (Within (3 * limit)) := by
  have takes : Makes (Left limit) (take bytes) fun taken => taken.length ≤ limit := by
    refine makes_of_takes (take_takes bytes) ?_
    rintro taken _ ⟨rfl, _⟩ short
    exact short
  exact takes.map fun taken short =>
    (Text.Utf8.length_encode_decode_le taken).trans (Nat.mul_le_mul_left 3 short)

theorem sizedText_makes (width : Nat) : Makes (Left limit) (sizedText width) (Within (3 * limit)) :=
  (natural_makes width).bind fun size _ => text_makes size

end Reader

open Reader (Left)

namespace Amf3

structure Traits.Bounded (limit : Nat) (traits : Traits) : Prop where
  className : Within (3 * limit) traits.className
  members : ∀ member ∈ traits.members, Within (3 * limit) member
  count : traits.members.length ≤ 0x10000000

/-- What can be referred to was read from no more bytes either. -/
structure Bounded (limit : Nat) (state : State) : Prop where
  left : Left limit state.unread
  strings : ∀ text ∈ state.strings, Within (3 * limit) text
  objects : ∀ object ∈ state.objects, Throughout (Shaped limit) object
  traits : ∀ traits ∈ state.traits, traits.Bounded limit

section Values
variable {limit : Nat}

theorem raw_makes {reader : Amf.Reader α} {post : α → Prop} (makes : Makes (Left limit) reader post) :
    Makes (Bounded limit) (raw reader) post :=
  fun state bounded => raw_ensures ((makes state.unread bounded.left).imp fun _ _ ⟨left, holds⟩ =>
    ⟨⟨left, bounded.strings, bounded.objects, bounded.traits⟩, holds⟩)

/-- One group more leaves room for those that follow. -/
theorem group_within (more high byte : Nat) :
    (high * 128 + byte % 128 + 1) * (128 ^ more * 256) ≤ (high + 1) * (128 ^ (more + 1) * 256) := by
  have small := Nat.mod_lt byte (show 0 < 128 by decide)
  calc (high * 128 + byte % 128 + 1) * (128 ^ more * 256)
      ≤ (high + 1) * 128 * (128 ^ more * 256) := Nat.mul_le_mul_right _ (by omega)
    _ = (high + 1) * (128 ^ (more + 1) * 256) := by rw [Nat.mul_assoc, Nat.pow_succ', Nat.mul_assoc 128]

theorem groups_makes (more high : Nat) :
    Makes (Left limit) (groups Reader.byte more high) (· < (high + 1) * (128 ^ more * 256)) := by
  induction more generalizing high with
  | zero =>
    refine Reader.byte_makes.map fun byte _ => ?_
    have small : byte.toNat < 256 := byte.toNat_lt
    omega
  | succ more ih =>
    refine Reader.byte_makes.bind fun byte _ => ?_
    have grown := group_within more high byte.toNat
    dsimp only
    split
    · refine .pure (Nat.lt_of_lt_of_le ?_ grown)
      have factor : 0 < 128 ^ more * 256 := Nat.mul_pos (Nat.pow_pos (by decide)) (by decide)
      exact Nat.lt_of_lt_of_le (Nat.lt_succ_self _) (Nat.le_mul_of_pos_right _ factor)
    · exact (ih _).imp fun _ less => Nat.lt_of_lt_of_le less grown

theorem u29_makes : Makes (Bounded limit) parts.u29 (· < 0x20000000) :=
  raw_makes (groups_makes 3 0)

theorem entry_makes {table : State → Array α} {post : α → Prop}
    (bounds : ∀ state, Bounded limit state → ∀ held ∈ table state, post held) (index : Nat) :
    Makes (Bounded limit) (entry table index) post :=
  fun state bounded => (entry_mem table index state).imp fun held _ ⟨same, member⟩ =>
    ⟨same ▸ bounded, bounds state bounded held member⟩

theorem keepString_makes {text : String} (within : Within (3 * limit) text) :
    Makes (Bounded limit) (parts.keepString text) fun _ => True := by
  refine .modify fun state bounded => ?_
  unfold State.withString
  split
  · exact bounded
  · exact ⟨bounded.left, Array.forall_mem_push.mpr ⟨within, bounded.strings⟩, bounded.objects, bounded.traits⟩

theorem string_makes : Makes (Bounded limit) parts.string (Within (3 * limit)) := by
  refine u29_makes.bind fun header _ => ?_
  split
  · exact entry_makes (fun _ bounded => bounded.strings) _
  refine Makes.bind (raw_makes (Reader.text_makes _)) fun text within => ?_
  exact (keepString_makes within).bind fun _ _ => .pure within

theorem name_makes :
    Makes (Bounded limit) parts.name fun key => ∀ text, key = some text → Within (nameLimit limit) text := by
  refine string_makes.map fun text within other same => ?_
  split at same
  · cases same
  · cases same
    exact within.weaken (Nat.le_max_left _ _)

theorem keepObject_makes {value : Value} (shaped : Throughout (Shaped limit) value) :
    Makes (Bounded limit) (modify (State.withObject value)) fun _ => True :=
  .modify fun _ bounded => ⟨bounded.left, bounded.strings, Array.forall_mem_push.mpr ⟨shaped, bounded.objects⟩,
    bounded.traits⟩

theorem kept_makes {value : Value} (shaped : Throughout (Shaped limit) value) :
    Makes (Bounded limit) (parts.kept value) (Throughout (Shaped limit)) :=
  (keepObject_makes shaped).bind fun _ _ => .pure shaped

theorem fill_makes {value : Value} (shaped : Throughout (Shaped limit) value) (slot : Nat) :
    Makes (Bounded limit) (fill slot value) fun _ => True := by
  refine .modify fun state bounded => ⟨bounded.left, bounded.strings, fun object member => ?_, bounded.traits⟩
  rcases Array.mem_or_eq_of_mem_setIfInBounds member with before | rfl
  · exact bounded.objects object before
  · exact shaped

theorem container_makes {inside : Reader Value} (makes : Makes (Bounded limit) inside (Throughout (Shaped limit))) :
    Makes (Bounded limit) (container inside) (Throughout (Shaped limit)) := by
  have null : Throughout (Shaped limit) .null := scalar_shaped rfl trivial
  have reserved : Makes (Bounded limit) reserve fun _ => True :=
    (keepObject_makes null).bind fun _ _ => .get fun _ _ => .pure trivial
  refine reserved.bind fun slot _ => makes.bind fun value shaped => ?_
  exact (fill_makes shaped slot).bind fun _ _ => .pure shaped

theorem shared_makes {inPlace : Nat → Reader Value}
    (makes : ∀ size < 0x10000000, Makes (Bounded limit) (inPlace size) (Throughout (Shaped limit))) :
    Makes (Bounded limit) (parts.shared inPlace) (Throughout (Shaped limit)) := by
  refine u29_makes.bind fun header small => ?_
  split
  · exact entry_makes (fun _ bounded => bounded.objects) _
  · exact makes _ (by omega)

theorem xml_makes : Makes (Bounded limit) parts.xml (Throughout (Shaped limit)) := by
  refine shared_makes fun size _ => Makes.bind (raw_makes (Reader.text_makes size)) fun text within => ?_
  exact kept_makes (scalar_shaped rfl within)

theorem date_makes : Makes (Bounded limit) parts.date (Throughout (Shaped limit)) := by
  refine shared_makes fun _ _ => Makes.bind (raw_makes Reader.double_makes) fun milliseconds _ => ?_
  exact kept_makes (scalar_shaped rfl trivial)

theorem keepTraits_makes {traits : Traits} (declared : traits.Bounded limit) :
    Makes (Bounded limit) (parts.keepTraits traits) fun _ => True :=
  .modify fun _ bounded => ⟨bounded.left, bounded.strings, bounded.objects,
    Array.forall_mem_push.mpr ⟨declared, bounded.traits⟩⟩

theorem readTraits_makes {header : Nat} (small : header < 0x10000000) :
    Makes (Bounded limit) (parts.readTraits header) (Traits.Bounded limit) := by
  unfold Parts.readTraits
  split
  · exact entry_makes (fun _ bounded => bounded.traits) _
  split
  · exact .throw
  refine string_makes.bind fun className within => ?_
  refine Makes.bind (string_makes.repeated _) fun members ⟨counted, all⟩ => ?_
  have declared : Traits.Bounded limit ⟨className, header / 4 % 2 = 1, members⟩ :=
    ⟨within, all, by rw [counted]; omega⟩
  exact (keepTraits_makes declared).bind fun _ _ => .pure declared

theorem indexed_named {items : List Value} (few : items.length < 0x10000000)
    (shaped : ∀ item ∈ items, Throughout (Shaped limit) item) :
    ∀ pair ∈ indexed items, Within (nameLimit limit) pair.1 ∧ Throughout (Shaped limit) pair.2 := by
  refine List.forall_mem_map.mpr fun ⟨item, index⟩ member => ?_
  obtain ⟨_, inside, same⟩ := List.mem_zipIdx member
  have short : (toString index).length ≤ 9 := (Nat.length_repr_le_iff (by decide)).mpr (by omega)
  refine ⟨?_, shaped item ?_⟩
  · have wide := Text.Utf8.length_encode_le (toString index)
    have digits : Within 36 (toString index) := by unfold Within; omega
    exact digits.weaken (Nat.le_max_right _ _)
  · rw [same]
    exact List.getElem_mem _

variable {value : Reader Value}

theorem arrayValue_shaped {named : List (String × Value)} {dense : List Value} (counted : named.length ≤ limit)
    (called : ∀ pair ∈ named, Within (nameLimit limit) pair.1 ∧ Throughout (Shaped limit) pair.2)
    (few : dense.length < 0x10000000) (items : ∀ item ∈ dense, Throughout (Shaped limit) item) :
    Throughout (Shaped limit) (arrayValue named dense) := by
  unfold arrayValue
  split
  · exact throughout_iff.mpr ⟨show dense.length < UInt32.size from few.trans (by decide), items⟩
  · have both := List.forall_mem_append.mpr ⟨called, indexed_named few items⟩
    have sum : (named ++ indexed dense).length ≤ limit + 0x10000000 := by
      rw [List.length_append, indexed, List.length_map, List.length_zipIdx]
      omega
    exact throughout_iff.mpr (mapped_ofEntries both sum)

theorem objectValue_shaped {traits : Traits} {named : List (String × Value)}
    (className : Within (3 * limit) traits.className) (few : named.length ≤ limit + 0x10000000)
    (called : ∀ pair ∈ named, Within (nameLimit limit) pair.1 ∧ Throughout (Shaped limit) pair.2) :
    Throughout (Shaped limit) (traits.objectValue named) := by
  have mapped := mapped_ofEntries called few
  unfold Traits.objectValue
  dsimp only
  split
  · exact throughout_iff.mpr mapped
  · exact throughout_iff.mpr ⟨⟨className, mapped.1⟩, mapped.2⟩

section Members
variable {value : Reader Value} (makes : Makes (Bounded limit) value (Throughout (Shaped limit)))
include makes

theorem named_makes : Makes (Bounded limit) (parts.entries parts.name value) fun pairs => pairs.length ≤ limit ∧
    ∀ pair ∈ pairs, Within (nameLimit limit) pair.1 ∧ Throughout (Shaped limit) pair.2 :=
  .get fun state bounded => (name_makes.entries makes state.unread).imp fun _ ⟨counted, all⟩ =>
    ⟨counted.trans bounded.left, all⟩

theorem memberValues_makes {members : List String} (called : ∀ member ∈ members, Within (3 * limit) member) :
    Makes (Bounded limit) (Parts.memberValues value members) fun pairs => pairs.length = members.length ∧
      ∀ pair ∈ pairs, Within (nameLimit limit) pair.1 ∧ Throughout (Shaped limit) pair.2 :=
  .mapM fun member inside => makes.map fun _ shaped => ⟨(called member inside).weaken (Nat.le_max_left _ _), shaped⟩

theorem furtherValues_makes (isDynamic : Bool) :
    Makes (Bounded limit) (parts.furtherValues value isDynamic) fun pairs => pairs.length ≤ limit ∧
      ∀ pair ∈ pairs, Within (nameLimit limit) pair.1 ∧ Throughout (Shaped limit) pair.2 := by
  unfold Parts.furtherValues
  split
  · exact named_makes makes
  · exact .pure ⟨Nat.zero_le _, fun _ member => (nomatch member)⟩

theorem array_makes : Makes (Bounded limit) (parts.array value) (Throughout (Shaped limit)) := by
  refine shared_makes fun size few => container_makes ?_
  refine (named_makes makes).bind fun named ⟨counted, called⟩ => ?_
  refine Makes.map (makes.repeated size) fun dense ⟨sized, items⟩ => ?_
  exact arrayValue_shaped counted called (sized ▸ few) items

theorem object_makes : Makes (Bounded limit) (parts.object value) (Throughout (Shaped limit)) := by
  refine shared_makes fun header small => (readTraits_makes small).bind fun traits declared => container_makes ?_
  refine (memberValues_makes makes declared.members).bind fun fixed ⟨sized, called⟩ => ?_
  refine (furtherValues_makes makes _).map fun further ⟨counted, also⟩ => ?_
  have few : (fixed ++ further).length ≤ limit + 0x10000000 := by
    have members := declared.count
    rw [List.length_append, sized]
    omega
  exact objectValue_shaped declared.className few (List.forall_mem_append.mpr ⟨called, also⟩)

end Members

theorem value_makes (room : Nat) : Makes (Bounded limit) (Amf3.value room) (Throughout (Shaped limit)) := by
  induction room with
  | zero => exact .throw
  | succ room ih =>
    refine (raw_makes Reader.byte_makes).bind fun marker _ => ?_
    unfold Parts.marked
    split
    iterate 4 exact .pure (scalar_shaped rfl trivial)
    next => exact u29_makes.map fun _ _ => scalar_shaped rfl trivial
    next => exact Makes.map (raw_makes Reader.double_makes) fun _ _ => scalar_shaped rfl trivial
    next => exact string_makes.map fun _ within => scalar_shaped rfl within
    iterate 2 exact xml_makes
    next => exact date_makes
    next => exact array_makes ih
    next => exact object_makes ih
    all_goals exact .throw

end Values
end Amf3

namespace Amf0
variable {limit : Nat}

theorem name_makes : Makes (Left limit) parts.name fun key => ∀ text, key = some text → Within (nameLimit limit) text := by
  refine (Reader.sizedText_makes 2).bind fun text within => ?_
  split
  · refine Reader.byte_makes.bind fun marker _ => ?_
    split
    · exact .pure fun _ never => (nomatch never)
    · exact .throw
  · refine .pure fun other same => ?_
    cases same
    exact within.weaken (Nat.le_max_left _ _)

theorem properties_makes {value : Reader Value} (makes : Makes (Left limit) value (Throughout (Shaped limit))) :
    Makes (Left limit) (parts.properties value) fun properties =>
      Mapped limit properties ∧ ∀ member ∈ properties.map Prod.snd, Throughout (Shaped limit) member := by
  have listed : Makes (Left limit) (parts.entries parts.name value) fun pairs => pairs.length ≤ limit ∧
      ∀ pair ∈ pairs, Within (nameLimit limit) pair.1 ∧ Throughout (Shaped limit) pair.2 :=
    .get fun unread left => (name_makes.entries makes unread).imp fun _ ⟨counted, all⟩ => ⟨counted.trans left, all⟩
  exact listed.map fun _ ⟨counted, called⟩ => mapped_ofEntries called (Nat.le_add_right_of_le counted)

theorem escaped_makes (room : Nat) : Makes (Left limit) (escaped room) (Throughout (Shaped limit)) := by
  intro unread left value rest read
  simp only [escaped, escapedVia] at read
  split at read
  next found state answer =>
    cases read
    have began : Amf3.Bounded limit (.ofBytes unread) :=
      ⟨left, fun _ member => absurd member (Array.not_mem_empty _),
        fun _ member => absurd member (Array.not_mem_empty _),
        fun _ member => absurd member (Array.not_mem_empty _)⟩
    obtain ⟨bounded, shaped⟩ := Amf3.value_makes room _ began _ _ answer
    exact ⟨bounded.left, shaped⟩
  next => cases read

theorem value_makes (room : Nat) : Makes (Left limit) (Amf0.value room) (Throughout (Shaped limit)) := by
  induction room with
  | zero => exact .throw
  | succ room ih =>
    refine Reader.byte_makes.bind fun byte _ => ?_
    unfold Parts.marked
    cases Marker.ofByte? byte with
    | none => exact .throw
    | some marker =>
      cases marker with
      | number => exact Reader.double_makes.map fun _ _ => scalar_shaped rfl trivial
      | boolean => exact Reader.byte_makes.map fun _ _ => scalar_shaped rfl trivial
      | string => exact (Reader.sizedText_makes 2).map fun _ within => scalar_shaped rfl within
      | object => exact (properties_makes ih).map fun _ mapped => throughout_iff.mpr mapped
      | null | undefined => exact .pure (scalar_shaped rfl trivial)
      | ecmaArray =>
        refine (Reader.natural_makes 4).bind fun _ _ => ?_
        exact (properties_makes ih).map fun _ mapped => throughout_iff.mpr mapped
      | strictArray =>
        refine (Reader.natural_makes 4).bind fun count small => (ih.repeated count).map fun items ⟨counted, all⟩ => ?_
        exact throughout_iff.mpr ⟨show items.length < UInt32.size from counted ▸ small, all⟩
      | date =>
        refine Reader.double_makes.bind fun _ _ => ?_
        exact (Reader.makes_of_suffix (Reader.take_suffix 2)).map fun _ _ => scalar_shaped rfl trivial
      | longString | xmlDocument => exact (Reader.sizedText_makes 4).map fun _ within => scalar_shaped rfl within
      | typedObject =>
        refine (Reader.sizedText_makes 2).bind fun className within => ?_
        exact (properties_makes ih).map fun _ mapped => throughout_iff.mpr ⟨⟨within, mapped.1⟩, mapped.2⟩
      | avmPlus => exact escaped_makes room
      | movieClip | reference | objectEnd | unsupported | recordSet => exact .throw

/-- What is decoded has the shape that so many bytes allow, those behind it left out. -/
theorem decoded_shaped {bytes : Bytes} {value : Value} {size : Nat} (read : decode bytes = .ok (value, size)) :
    Throughout (Shaped size) value := by
  obtain ⟨taken, rest, rfl, rfl, alone⟩ := measured_taken next_exact read
  exact (value_makes maxDepth taken (Nat.le_refl _) value [] (List.append_nil taken ▸ alone [])).2

end Amf0
end Amf
end RtmpRelay
