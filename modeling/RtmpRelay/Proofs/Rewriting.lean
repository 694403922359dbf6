import RtmpRelay.Proofs.Decoded
import RtmpRelay.Proofs.Nesting

/-! What becomes of a decoded value that is written again. It can be written unless a name, a text or an ECMA array has
become too long for its field, which needs an input of thousands of bytes, and it is read back unless it has an empty
name or too many levels. Neither is possible without the newer encoding. -/

namespace RtmpRelay.Amf

namespace Value

/-- There is no empty name among the properties of a value, whatever is inside it. -/
def Named (value : Value) : Prop :=
  ∀ properties, value.properties? = some properties → ∀ property ∈ properties, property.1 ≠ ""

theorem propertiesEverywhere_iff {holds : List (String × Value) → Prop} {properties : List (String × Value)} :
    propertiesEverywhere holds properties ↔ ∀ value ∈ properties.map Prod.snd, Everywhere holds value := by
  induction properties with
  | nil => simp [propertiesEverywhere]
  | cons property properties ih =>
    obtain ⟨name, value⟩ := property
    rw [propertiesEverywhere, ih, List.map_cons, List.forall_mem_cons]

theorem everywhere_of_throughout {holds : List (String × Value) → Prop} (value : Value) :
    Throughout (fun part => ∀ properties, part.properties? = some properties → holds properties) value →
      Everywhere holds value := by
  induction value using members_induction with
  | step value ih =>
    intro throughout
    obtain ⟨here, inside⟩ := throughout_iff.mp throughout
    have members : ∀ member ∈ value.members, Everywhere holds member := fun member found =>
      ih member found (inside member found)
    cases value with
    | object properties | ecmaArray properties | typedObject _ properties =>
      exact ⟨here properties rfl, propertiesEverywhere_iff.mpr members⟩
    | strictArray items => exact itemsEverywhere_iff.mpr members
    | number | boolean | string | null | undefined | date => trivial

end Value

namespace Amf0

open Value (Throughout throughout_iff Named)

theorem items_of_denotes {room : Nat} {bytes : Bytes} {items : List Value} (listed : DenotesItems room bytes items) :
    ∀ item ∈ items, ∃ bytes, Denotes room bytes item := by
  induction items generalizing bytes with
  | nil => exact fun _ member => (nomatch member)
  | cons item items ih =>
    cases listed with
    | cons first rest => exact List.forall_mem_cons.mpr ⟨⟨_, first⟩, ih rest⟩

theorem pairs_of_denotes {room : Nat} {bytes : Bytes} {pairs : List (String × Value)}
    (listed : DenotesPairs room bytes pairs) : ∀ pair ∈ pairs, pair.1 ≠ "" ∧ ∃ bytes, Denotes room bytes pair.2 := by
  induction pairs generalizing bytes with
  | nil => exact fun _ member => (nomatch member)
  | cons pair pairs ih =>
    cases listed with
    | cons named short first rest =>
      exact List.forall_mem_cons.mpr ⟨⟨mt Text.Utf8.decode_eq_empty_iff.mp named, _, first⟩, ih rest⟩

theorem properties_of_denotes {room : Nat} {bytes : Bytes} {pairs properties : List (String × Value)}
    (listed : DenotesPairs room bytes pairs) (settled : Assoc.Settles pairs properties) :
    (∀ property ∈ properties, property.1 ≠ "") ∧
      ∀ value ∈ properties.map Prod.snd, ∃ bytes, Denotes room bytes value := by
  have kept : ∀ property ∈ properties, property ∈ pairs := by
    rw [settled.eq_ofEntries]
    exact fun property member => Assoc.mem_of_mem_ofEntries member
  have each := pairs_of_denotes listed
  exact ⟨fun property member => (each property (kept property member)).1,
    List.forall_mem_map.mpr fun property member => (each property (kept property member)).2⟩

theorem members_of_denotes {room : Nat} {bytes : Bytes} {value : Value} (denotes : Denotes (room + 1) bytes value) :
    Named value ∧ ∀ member ∈ value.members, ∃ bytes, Denotes room bytes member := by
  cases denotes with
  | number | boolean | string | null | undefined | date | longString | xmlDocument =>
    exact ⟨fun _ never => (nomatch never), fun _ member => (nomatch member)⟩
  | object listed settled | ecmaArray _ listed settled | typedObject _ listed settled =>
    obtain ⟨named, members⟩ := properties_of_denotes listed settled
    refine ⟨?_, members⟩
    rintro _ ⟨⟩
    exact named
  | strictArray counted listed => exact ⟨fun _ never => (nomatch never), items_of_denotes listed⟩

/-- A derivation goes down with the value. -/
theorem named_of_denotes {room : Nat} {bytes : Bytes} {value : Value} (denotes : Denotes room bytes value) :
    value.depth ≤ room ∧ Throughout Named value := by
  induction room generalizing bytes value with
  | zero => cases denotes
  | succ room ih =>
    obtain ⟨named, members⟩ := members_of_denotes denotes
    refine ⟨Value.depth_le_iff.mpr fun member inside => ?_, throughout_iff.mpr ⟨named, fun member inside => ?_⟩⟩
    all_goals obtain ⟨bytes, derived⟩ := members member inside
    · exact (ih derived).1
    · exact (ih derived).2

theorem named_of_plain {bytes : Bytes} {value : Value} {size : Nat} (read : decode bytes = .ok (value, size))
    (plainly : ∀ escape, decodeVia escape bytes = decode bytes) : value.depth ≤ maxDepth ∧ Throughout Named value := by
  have closed : decodeVia (fun _ => throw .nestingTooDeep) bytes = .ok (value, size) := (plainly _).trans read
  obtain ⟨rest, there, -⟩ := decodeVia_next closed
  obtain ⟨taken, _, denotes⟩ := valueVia_takes maxDepth bytes _ rest there
  exact named_of_denotes denotes

theorem fits_of_shaped {size : Nat} (small : size ≤ 21845) {value : Value} (shaped : Shaped size value) :
    FitsFields value := by
  have short {text : String} (within : Text.Utf8.Within (3 * size) text) : IsShort text :=
    Nat.le_trans within (show 3 * size ≤ 65535 by omega)
  have properties {held : List (String × Value)} (mapped : Mapped size held) :
      held.length < UInt32.size ∧ ∀ property ∈ held, IsShort property.1 := by
    refine ⟨Nat.lt_of_le_of_lt mapped.count (show size + 0x10000000 < 4294967296 by omega), fun property member => ?_⟩
    exact Nat.le_trans (mapped.names property member) (Nat.max_le.mpr ⟨show 3 * size ≤ 65535 by omega, by decide⟩)
  cases value with
  | string text => exact Nat.lt_of_le_of_lt shaped (show 3 * size < 4294967296 by omega)
  | object held => exact (properties shaped).2
  | ecmaArray held => exact properties shaped
  | strictArray items => exact shaped
  | typedObject className held => exact ⟨short shaped.1, (properties shaped.2).2⟩
  | number | boolean | null | undefined | date => trivial

theorem proper_of_shaped {size : Nat} {value : Value} (shaped : Throughout (Shaped size) value)
    (named : Throughout Named value) : value.Everywhere Value.Proper := by
  refine Value.everywhere_of_throughout value fun part found properties held => ⟨?_, named part found properties held⟩
  have shape := shaped part found
  cases part with
  | object | ecmaArray => cases held; exact shape.ascending
  | typedObject => cases held; exact shape.2.ascending
  | number | boolean | string | null | undefined | strictArray | date => cases held

/-- A decoded value is written again exactly if its names, texts and ECMA arrays fit their fields, as they do if it was
read from few enough bytes. What was written is read back, in front of anything, unless there is an empty name or a
level too many in the value; without the newer encoding there is neither, and no level too many as long as no object is
referred to. -/
theorem decoded_values_are_rewritten {bytes : Bytes} {value : Value} {size : Nat}
    (read : decode bytes = .ok (value, size)) (out : Array UInt8) :
    ((∃ written after, encode value out = .ok written after) ↔ Throughout FitsFields value) ∧
    Throughout (fun part => ∀ items, part = .strictArray items → FitsFields part) value ∧
    (size ≤ 21845 → Throughout FitsFields value) ∧
    (∀ written after, encode value out = .ok written after →
      ∃ form : Bytes, after = out ++ form ∧ written = form.length ∧
        (value.depth ≤ maxDepth → Throughout Named value →
          ∀ rest, decode (form ++ rest) = .ok (value, form.length))) ∧
    ((∀ escape, decodeVia escape bytes = decode bytes) → value.depth ≤ maxDepth ∧ Throughout Named value) ∧
    ((∀ refer, decodeVia (escapedVia refer) bytes = decode bytes) → value.depth ≤ maxDepth) := by
  have shaped := decoded_shaped read
  refine ⟨encode_ok_iff value out, shaped.imp ?_, fun small => shaped.imp fun _ => fits_of_shaped small, ?_,
    named_of_plain read, fun unshared => ?_⟩
  · rintro _ shape items rfl
    exact shape
  · intro written after encoded
    obtain ⟨form, derived, counted, appended⟩ := encode_appended out value written after encoded
    refine ⟨form, appended, counted, fun shallow named rest => ?_⟩
    exact (decode_restores derived (proper_of_shaped shaped named) rest).1 shallow
  · obtain ⟨rest, there, -⟩ := decodeVia_next ((unshared _).trans read)
    exact next_shallow there

/-- In the newer encoding, an object with a property that refers to its own name. -/
def selfNamed : Bytes :=
  [0x11, 0x0a, 0x0b, 0x01, 0x03, 0x61, 0x06, 0x00, 0x01]

theorem selfNamed_is_rewritten : decode selfNamed = .ok (.object [("a", .string "a")], 9) ∧
    ∃ form : Bytes, encode (.object [("a", .string "a")]) #[] = .ok form.length form.toArray ∧
      ∀ rest, decode (form ++ rest) = .ok (.object [("a", .string "a")], form.length) := by
  have read : decode selfNamed = .ok (.object [("a", .string "a")], 9) := rfl
  have named : Throughout Named (.object [("a", .string "a")]) := by
    refine throughout_iff.mpr ⟨?_, List.forall_mem_singleton.mpr (throughout_iff.mpr ⟨?_, fun _ found => ?_⟩)⟩
    · rintro _ ⟨⟩
      exact List.forall_mem_singleton.mpr (by decide)
    · exact fun _ never => (nomatch never)
    · cases found
  obtain ⟨written, -, small, back, -, -⟩ := decoded_values_are_rewritten read #[]
  obtain ⟨size, after, encoded⟩ := written.mpr (small (by decide))
  obtain ⟨form, rfl, rfl, reads⟩ := back size after encoded
  rw [List.toArray_appendList, List.nil_append] at encoded
  exact ⟨read, form, encoded, reads (by decide) named⟩

/-- Bytes that are no text, so many of them. -/
def invalidText (count : Nat) : Bytes :=
  List.replicate count 0xff

theorem length_invalidText (count : Nat) :
    (Text.Utf8.encode (Text.Utf8.decode (invalidText count))).length = 3 * count := by
  have grown : ∀ (count : Nat) (text : String), ∃ longer,
      (invalidText count).foldl Text.Utf8.Reading.step ⟨text, none⟩ = ⟨longer, none⟩ ∧
      (Text.Utf8.encode longer).length = (Text.Utf8.encode text).length + 3 * count := by
    intro count
    induction count with
    | zero => exact fun text => ⟨text, rfl, rfl⟩
    | succ count ih =>
      intro text
      obtain ⟨longer, same, length⟩ := ih (text.push Text.Utf8.Reading.replacement)
      refine ⟨longer, same, ?_⟩
      rw [length, Text.Utf8.length_encode_push, Text.Utf8.Reading.length_replacement]
      omega
  obtain ⟨longer, same, length⟩ := grown count ""
  rw [Text.Utf8.decode, same]
  exact length.trans (Nat.zero_add _)

/-- An instance of a class whose name is no text. -/
def invalidName (count : Nat) : Bytes :=
  0x10 :: (sized 2 (invalidText count) ++ [0x00, 0x00, 0x09])

/-- A text that is none, with a length of four bytes. -/
def invalidLongText (count : Nat) : Bytes :=
  0x0c :: sized 4 (invalidText count)

theorem decode_of_denotes {bytes : Bytes} {value : Value} (denotes : Denotes maxDepth bytes value) :
    decode bytes = .ok (value, bytes.length) := by
  have reads := denotes_reads escaped denotes []
  rw [List.append_nil] at reads
  rw [decode, decodeVia, nextVia, reads]
  rfl

theorem decode_invalidName {count : Nat} (short : count < 0x10000) : decode (invalidName count) =
    .ok (.typedObject (Text.Utf8.decode (invalidText count)) [], count + 6) := by
  have size : (invalidText count).length = count := List.length_replicate
  have denotes : Denotes maxDepth (invalidName count) (.typedObject (Text.Utf8.decode (invalidText count)) []) :=
    .typedObject (size.symm ▸ short) .nil ⟨.nil, fun _ => rfl⟩
  have length : (invalidName count).length = count + 6 := by
    simp only [invalidName, sized, List.length_cons, List.length_append, Bytes.length_be, size, List.length_nil]
    omega
  rw [decode_of_denotes denotes, length]

theorem decode_invalidLongText {count : Nat} (short : count < 0x100000000) : decode (invalidLongText count) =
    .ok (.string (Text.Utf8.decode (invalidText count)), count + 5) := by
  have size : (invalidText count).length = count := List.length_replicate
  have denotes : Denotes maxDepth (invalidLongText count) (.string (Text.Utf8.decode (invalidText count))) :=
    .longString (size.symm ▸ short)
  have length : (invalidLongText count).length = count + 5 := by
    simp only [invalidLongText, sized, List.length_cons, List.length_append, Bytes.length_be, size]
    omega
  rw [decode_of_denotes denotes, length]

theorem encode_longName {className : String} (long : ¬ IsShort className) (properties : List (String × Value))
    (out : Array UInt8) : encode (.typedObject className properties) out =
      .error (.unencodable (.key (Text.Utf8.encode className).length)) (out ++ [Marker.typedObject.toByte]) := by
  have marked : Writer.marker .typedObject out = .ok () (out ++ [Marker.typedObject.toByte]) := rfl
  have refused : Writer.key className = throw (.unencodable (.key (Text.Utf8.encode className).length)) := if_neg long
  rw [encode, run_bind_ok marked, refused]
  rfl

theorem encode_longText {text : String} (long : ¬ IsShort text)
    (longer : ¬ (Text.Utf8.encode text).length < UInt32.size) (out : Array UInt8) : encode (.string text) out =
      .error (.unencodable (.string (Text.Utf8.encode text).length)) out := by
  have refused : Writer.checkedLength (Text.Utf8.encode text).length .string =
      throw (.unencodable (.string (Text.Utf8.encode text).length)) := if_neg longer
  rw [encode, Writer.string, if_neg (show ¬ (Text.Utf8.encode text).length ≤ shortTextMax from long), refused]
  rfl

/-- In the newer encoding, an object of a class with one member, whose name is empty. -/
def unnamed : Bytes :=
  [0x11, 0x0a, 0x13, 0x01, 0x01, 0x01]

/-- How a value is read back once it has been written. -/
def readBack (value : Value) : Except Error (Value × Nat) :=
  match encode value #[] with
  | .ok _ after => decode after.toList
  | .error error _ => .error error

/-- What has more levels than are read can be written all the same. -/
theorem readBack_of_deep {bytes : Bytes} {value : Value} {size : Nat} (read : decode bytes = .ok (value, size))
    (small : size ≤ 21845) (named : Throughout Named value) (deep : maxDepth < value.depth) :
    readBack value = .error .nestingTooDeep := by
  have shaped := decoded_shaped read
  obtain ⟨written, after, encoded⟩ :=
    (encode_ok_iff value #[]).mpr (shaped.imp fun _ => fits_of_shaped small)
  obtain ⟨form, derived, -, rfl⟩ := encode_appended #[] value written after encoded
  have refused := (decode_restores derived (proper_of_shaped shaped named) []).2 deep
  rw [List.append_nil] at refused
  simpa [readBack, encoded] using refused

/-- Bytes that are no text make a name or a text too long for its field. A value with an empty name, or with more levels
than are read, is written but not read back. -/
theorem rewriting_fails :
    (∃ className, decode (invalidName 21846) = .ok (.typedObject className [], 21852) ∧
      ∀ out, ∃ after, encode (.typedObject className []) out = .error (.unencodable (.key 65538)) after) ∧
    (∃ text, decode (invalidLongText 1431655766) = .ok (.string text, 1431655771) ∧
      ∀ out, encode (.string text) out = .error (.unencodable (.string 4294967298)) out) ∧
    (decode unnamed = .ok (.object [("", .null)], 6) ∧
      readBack (.object [("", .null)]) = .error (.invalidMarker 0x05)) ∧
    (∃ value, decode spliced = .ok (value, 198) ∧ readBack value = .error .nestingTooDeep) := by
  refine ⟨⟨_, decode_invalidName (by decide), fun out => ?_⟩, ⟨_, decode_invalidLongText (by decide), fun out => ?_⟩,
    ⟨rfl, rfl⟩, ?_⟩
  · have length := length_invalidText 21846
    have long : ¬ IsShort (Text.Utf8.decode (invalidText 21846)) := by rw [IsShort, length]; decide
    exact ⟨_, by rw [encode_longName long, length]⟩
  · have length := length_invalidText 1431655766
    have long : ¬ IsShort (Text.Utf8.decode (invalidText 1431655766)) := by rw [IsShort, length]; decide
    rw [encode_longText long (by rw [length]; decide), length]
  · obtain ⟨value, read, measured⟩ : ∃ value, decode spliced = .ok (value, 198) ∧
        (value.depth, value.parts.all fun part => part.properties?.isNone) = (65, true) :=
      decoded_of (by decide +kernel)
    obtain ⟨depth, unnamed⟩ := Prod.mk.inj measured
    have named : Throughout Named value := fun part found properties held => by
      have bare := List.all_eq_true.mp unnamed part found
      rw [held] at bare
      cases bare
    have deep : maxDepth < value.depth := Nat.lt_of_lt_of_eq (Nat.lt_succ_self maxDepth) depth.symm
    exact ⟨value, read, readBack_of_deep read (by decide) named deep⟩

end Amf0
end RtmpRelay.Amf
