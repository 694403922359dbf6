import RtmpRelay.Amf.Encode
import RtmpRelay.Proofs.Readings

/-! The written form of values in the older encoding, as a grammar. Every marker stands in front of what it announces,
lengths and counts fit their fields, and a text is long only if it has to be. Whatever is written has such a form, behind
what was there before, and its length is what the writer answers. -/

namespace RtmpRelay.Amf.Amf0

/-- A text behind its length in so many bytes. -/
def textForm (width : Nat) (text : String) : Bytes :=
  Bytes.be width (Text.Utf8.encode text).length ++ Text.Utf8.encode text

/-- Whether a length of two bytes is enough. -/
def IsShort (text : String) : Prop :=
  (Text.Utf8.encode text).length ≤ shortTextMax

/-- An empty name and the end marker. -/
def objectEndForm : Bytes :=
  [0, 0, Marker.objectEnd.toByte]

mutual
inductive Form : Value → Bytes → Prop where
  | number (value : Double) : Form (.number value) (Marker.number.toByte :: value.toBytes)
  | boolean (value : Bool) : Form (.boolean value) [Marker.boolean.toByte, if value then 1 else 0]
  | shortText {text : String} (short : IsShort text) : Form (.string text) (Marker.string.toByte :: textForm 2 text)
  | longText {text : String} (long : ¬ IsShort text) (fits : (Text.Utf8.encode text).length < UInt32.size) :
      Form (.string text) (Marker.longString.toByte :: textForm 4 text)
  | object {properties : List (String × Value)} {body : Bytes} (listed : PropertiesForm properties body) :
      Form (.object properties) (Marker.object.toByte :: body)
  | null : Form .null [Marker.null.toByte]
  | undefined : Form .undefined [Marker.undefined.toByte]
  | ecmaArray {properties : List (String × Value)} {body : Bytes} (fits : properties.length < UInt32.size)
      (listed : PropertiesForm properties body) :
      Form (.ecmaArray properties) (Marker.ecmaArray.toByte :: (Bytes.be 4 properties.length ++ body))
  | strictArray {items : List Value} {body : Bytes} (fits : items.length < UInt32.size)
      (listed : ItemsForm items body) :
      Form (.strictArray items) (Marker.strictArray.toByte :: (Bytes.be 4 items.length ++ body))
  | date (milliseconds : Double) : Form (.date milliseconds) (Marker.date.toByte :: (milliseconds.toBytes ++ [0, 0]))
  | typedObject {className : String} {properties : List (String × Value)} {body : Bytes} (short : IsShort className)
      (listed : PropertiesForm properties body) :
      Form (.typedObject className properties) (Marker.typedObject.toByte :: (textForm 2 className ++ body))

inductive ItemsForm : List Value → Bytes → Prop where
  | nil : ItemsForm [] []
  | cons {item : Value} {items : List Value} {front behind : Bytes} (first : Form item front)
      (rest : ItemsForm items behind) : ItemsForm (item :: items) (front ++ behind)

inductive PropertiesForm : List (String × Value) → Bytes → Prop where
  | nil : PropertiesForm [] objectEndForm
  | cons {name : String} {value : Value} {properties : List (String × Value)} {front behind : Bytes}
      (short : IsShort name) (first : Form value front) (rest : PropertiesForm properties behind) :
      PropertiesForm ((name, value) :: properties) (textForm 2 name ++ (front ++ behind))
end

/-- What an appending writer leaves: some bytes of a form behind what was there, and their number. -/
def Appended (form : Bytes → Prop) (out : Array UInt8) (size : Nat) (after : Array UInt8) : Prop :=
  ∃ added : Bytes, form added ∧ size = added.length ∧ after = out ++ added

section Writing
variable {form : Bytes → Prop} {out : Array UInt8} {size : Nat} {first second third : Bytes}

theorem appended_one (holds : form first) (counted : size = first.length) : Appended form out size (out ++ first) :=
  ⟨first, holds, counted, rfl⟩

theorem appended_two (holds : form (first ++ second)) (counted : size = first.length + second.length) :
    Appended form out size (out ++ first ++ second) :=
  ⟨first ++ second, holds, counted.trans List.length_append.symm, Bytes.append_append out first second⟩

theorem appended_three (holds : form (first ++ (second ++ third)))
    (counted : size = first.length + second.length + third.length) :
    Appended form out size (out ++ first ++ second ++ third) :=
  ⟨first ++ (second ++ third), holds, by simp [counted, Nat.add_assoc],
    by rw [Bytes.append_append, Bytes.append_append]⟩

theorem length_textForm (width : Nat) (text : String) :
    (textForm width text).length = width + (Text.Utf8.encode text).length := by
  rw [textForm, List.length_append, Bytes.length_be]

theorem put_ensures {added : Bytes} {post : Unit → Array UInt8 → Prop} (holds : post () (out ++ added)) :
    Ensures (Writer.put added) out post :=
  .modify holds

theorem key_ensures {text : String} {post : Nat → Array UInt8 → Prop}
    (holds : IsShort text → post (textForm 2 text).length (out ++ textForm 2 text)) :
    Ensures (Writer.key text) out post := by
  unfold Writer.key
  dsimp only
  split
  next short =>
    refine .bind (put_ensures (.bind (put_ensures (.pure ?_))))
    rw [Bytes.append_append, ← length_textForm]
    exact holds short
  next => exact .throw

theorem checkedLength_ensures {length : Nat} {oversize : Nat → Oversize} {post : Unit → Array UInt8 → Prop}
    (holds : length < UInt32.size → post () out) : Ensures (Writer.checkedLength length oversize) out post := by
  unfold Writer.checkedLength
  split
  next fits => exact .pure (holds fits)
  next => exact .throw

theorem string_appended (text : String) : Ensures (Writer.string text) out (Appended (Form (.string text)) out) := by
  unfold Writer.string
  dsimp only
  split
  next => exact .bind (put_ensures (.bind (key_ensures fun short => .pure (appended_two (.shortText short) rfl))))
  next long =>
    refine .bind (checkedLength_ensures fun fits => .bind (put_ensures (.bind (put_ensures ?_))))
    refine .bind (put_ensures (.pure (appended_three (.longText long fits) ?_)))
    rw [Bytes.length_be, List.length_singleton]

end Writing

mutual
theorem encode_appended (out : Array UInt8) : ∀ value, Ensures (encode value) out (Appended (Form value) out)
  | .number value => by
    rw [encode]
    refine .bind (put_ensures (.bind (put_ensures (.pure (appended_two (.number value) ?_)))))
    rw [Double.length_toBytes, List.length_singleton]
  | .boolean value => by
    rw [encode]
    exact .bind (put_ensures (.bind (put_ensures (.pure (appended_two (.boolean value) rfl)))))
  | .string text => by
    rw [encode]
    exact string_appended text
  | .object properties => by
    rw [encode]
    refine .bind (put_ensures (.bind ((encodeProperties_appended _ properties).imp fun size after appended => ?_)))
    obtain ⟨body, listed, rfl, rfl⟩ := appended
    exact .pure (appended_two (.object listed) rfl)
  | .null => by
    rw [encode]
    exact .bind (put_ensures (.pure (appended_one .null rfl)))
  | .undefined => by
    rw [encode]
    exact .bind (put_ensures (.pure (appended_one .undefined rfl)))
  | .ecmaArray properties => by
    rw [encode]
    refine .bind (checkedLength_ensures fun fits => .bind (put_ensures (.bind (put_ensures (.bind ?_)))))
    refine (encodeProperties_appended _ properties).imp fun size after appended => ?_
    obtain ⟨body, listed, rfl, rfl⟩ := appended
    refine .pure (appended_three (.ecmaArray fits listed) ?_)
    rw [Bytes.length_be, List.length_singleton]
  | .strictArray items => by
    rw [encode]
    refine .bind (checkedLength_ensures fun fits => .bind (put_ensures (.bind (put_ensures (.bind ?_)))))
    refine (encodeBatch_appended _ items).imp fun size after appended => ?_
    obtain ⟨body, listed, rfl, rfl⟩ := appended
    refine .pure (appended_three (.strictArray fits listed) ?_)
    rw [Bytes.length_be, List.length_singleton]
  | .date milliseconds => by
    rw [encode]
    refine .bind (put_ensures (.bind (put_ensures (.bind (put_ensures (.pure ?_))))))
    refine appended_three (.date milliseconds) ?_
    rw [Double.length_toBytes, List.length_singleton, List.length_cons, List.length_singleton]
  | .typedObject className properties => by
    rw [encode]
    refine .bind (put_ensures (.bind (key_ensures fun short => .bind ?_)))
    refine (encodeProperties_appended _ properties).imp fun size after appended => ?_
    obtain ⟨body, listed, rfl, rfl⟩ := appended
    exact .pure (appended_three (.typedObject short listed) rfl)

theorem encodeBatch_appended (out : Array UInt8) :
    ∀ items, Ensures (encodeBatch items) out (Appended (ItemsForm items) out)
  | [] => by
    rw [encodeBatch]
    exact .pure ⟨[], .nil, rfl, by simp⟩
  | item :: items => by
    rw [encodeBatch]
    refine .bind ((encode_appended out item).imp fun size middle appended => ?_)
    obtain ⟨front, first, rfl, rfl⟩ := appended
    refine .bind ((encodeBatch_appended _ items).imp fun size after appended => ?_)
    obtain ⟨behind, rest, rfl, rfl⟩ := appended
    exact .pure (appended_two (.cons first rest) rfl)

theorem encodeProperties_appended (out : Array UInt8) :
    ∀ properties, Ensures (encodeProperties properties) out (Appended (PropertiesForm properties) out)
  | [] => by
    rw [encodeProperties]
    exact .bind (put_ensures (.pure (appended_one .nil rfl)))
  | (name, value) :: properties => by
    rw [encodeProperties]
    refine .bind (key_ensures fun short => .bind ((encode_appended _ value).imp fun size middle appended => ?_))
    obtain ⟨front, first, rfl, rfl⟩ := appended
    refine .bind ((encodeProperties_appended _ properties).imp fun size after appended => ?_)
    obtain ⟨behind, rest, rfl, rfl⟩ := appended
    exact .pure (appended_three (.cons short first rest) rfl)
end

end RtmpRelay.Amf.Amf0
