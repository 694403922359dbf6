import RtmpRelay.Proofs.RoundTrip

/-! What has a form is written in that form: a derivation is all that a writer needs, so that whoever has one knows the
bytes, how many they are, and that they are read back. -/

namespace RtmpRelay.Amf.Amf0

/-- These bytes are appended, whatever is there, and this is the answer. -/
def Puts (writer : Writer α) (bytes : Bytes) (answer : α) : Prop :=
  ∀ out, writer out = .ok answer (out ++ bytes)

/-- These bytes are appended, whatever is there, and their number is the answer. -/
def Writes (writer : Writer Nat) (bytes : Bytes) : Prop :=
  ∀ out, writer out = .ok bytes.length (out ++ bytes)

section Writing
variable {first : Writer α} {next : α → Writer β} {writer : Writer Nat} {front behind : Bytes} {answer : α} {last : β}

theorem Puts.pure (answer : α) : Puts (pure answer) [] answer := by
  intro out
  rw [Array.appendList_nil]
  rfl

theorem Puts.bind (begins : Puts first front answer) (goesOn : Puts (next answer) behind last) :
    Puts (first >>= next) (front ++ behind) last := by
  intro out
  rw [run_bind_ok (begins out), goesOn, Bytes.append_append]

theorem Puts.map (puts : Puts first front answer) (change : α → β) :
    Puts (first >>= fun value => Pure.pure (change value)) front (change answer) := by
  have both : Puts (first >>= fun value => Pure.pure (change value)) (front ++ []) (change answer) :=
    puts.bind (.pure _)
  rwa [List.append_nil] at both

theorem Puts.writes {size : Nat} (puts : Puts writer front size) (counted : size = front.length) :
    Writes writer front := by
  subst counted
  exact puts

theorem put_puts (bytes : Bytes) : Puts (Writer.put bytes) bytes () :=
  fun _ => rfl

theorem key_puts {text : String} (short : IsShort text) :
    Puts (Writer.key text) (textForm 2 text) (2 + (Text.Utf8.encode text).length) := by
  rw [Writer.key, if_pos (show (Text.Utf8.encode text).length ≤ shortTextMax from short)]
  exact (put_puts _).bind ((put_puts _).map fun _ => 2 + (Text.Utf8.encode text).length)

theorem checkedLength_puts {length : Nat} {oversize : Nat → Oversize} {writer : Writer α} (fits : length < UInt32.size)
    (puts : Puts writer front answer) : Puts (do Writer.checkedLength length oversize; writer) front answer := by
  have passed : Writer.checkedLength length oversize = Pure.pure () := if_pos fits
  rw [passed]
  exact puts

theorem marked_puts {marker : Marker} {writer : Writer α} (puts : Puts writer front answer) :
    Puts (do Writer.marker marker; writer) (marker.toByte :: front) answer :=
  (put_puts [marker.toByte]).bind puts

end Writing

mutual
theorem encode_writes : ∀ value {form}, Form value form → Writes (encode value) form
  | .number _, _, .number value => by
    rw [encode]
    refine (marked_puts ((put_puts _).map fun _ => 9)).writes ?_
    rw [List.length_cons, Double.length_toBytes]
  | .boolean _, _, .boolean value => by
    rw [encode]
    exact (marked_puts ((put_puts [_]).map fun _ => 2)).writes rfl
  | .string text, _, .shortText short => by
    rw [encode, Writer.string, if_pos (show (Text.Utf8.encode _).length ≤ shortTextMax from short)]
    refine (marked_puts ((key_puts short).map (1 + ·))).writes ?_
    rw [List.length_cons, length_textForm, Nat.add_comm]
  | .string text, _, .longText long fits => by
    rw [encode, Writer.string, if_neg (show ¬ (Text.Utf8.encode _).length ≤ shortTextMax from long)]
    have spelled := (put_puts (Text.Utf8.encode text)).map fun _ => 5 + (Text.Utf8.encode text).length
    refine (checkedLength_puts fits (marked_puts ((put_puts _).bind spelled))).writes ?_
    rw [List.length_cons, List.length_append, Bytes.length_be]
    omega
  | .object properties, _, .object listed => by
    rw [encode]
    have body : Puts (encodeProperties properties) _ _ := encodeProperties_writes properties listed
    exact (marked_puts (body.map (1 + ·))).writes (Nat.add_comm 1 _)
  | .null, _, .null => by
    rw [encode]
    exact (marked_puts (.pure 1)).writes rfl
  | .undefined, _, .undefined => by
    rw [encode]
    exact (marked_puts (.pure 1)).writes rfl
  | .ecmaArray properties, _, .ecmaArray fits listed => by
    rw [encode]
    have body : Puts (encodeProperties properties) _ _ := encodeProperties_writes properties listed
    refine (checkedLength_puts fits (marked_puts ((put_puts _).bind (body.map (5 + ·))))).writes ?_
    rw [List.length_cons, List.length_append, Bytes.length_be]
    omega
  | .strictArray items, _, .strictArray fits listed => by
    rw [encode]
    have body : Puts (encodeBatch items) _ _ := encodeBatch_writes items listed
    refine (checkedLength_puts fits (marked_puts ((put_puts _).bind (body.map (5 + ·))))).writes ?_
    rw [List.length_cons, List.length_append, Bytes.length_be]
    omega
  | .date _, _, .date milliseconds => by
    rw [encode]
    refine (marked_puts ((put_puts _).bind ((put_puts [0, 0]).map fun _ => 11))).writes ?_
    rw [List.length_cons, List.length_append, Double.length_toBytes]
    rfl
  | .typedObject className properties, _, .typedObject short listed => by
    rw [encode]
    have body : Puts (encodeProperties properties) _ _ := encodeProperties_writes properties listed
    refine (marked_puts ((key_puts short).bind (body.map (1 + (2 + (Text.Utf8.encode className).length) + ·)))).writes ?_
    rw [List.length_cons, List.length_append, length_textForm]
    omega

theorem encodeBatch_writes : ∀ items {form}, ItemsForm items form → Writes (encodeBatch items) form
  | [], _, .nil => by
    rw [encodeBatch]
    exact (Puts.pure 0).writes rfl
  | item :: items, _, @ItemsForm.cons _ _ front behind first rest => by
    rw [encodeBatch]
    have one : Puts (encode item) front front.length := encode_writes item first
    have others : Puts (encodeBatch items) behind behind.length := encodeBatch_writes items rest
    exact (one.bind (others.map (front.length + ·))).writes List.length_append.symm

theorem encodeProperties_writes : ∀ properties {form}, PropertiesForm properties form →
    Writes (encodeProperties properties) form
  | [], _, .nil => by
    rw [encodeProperties]
    exact ((put_puts _).map fun _ => 3).writes rfl
  | (name, value) :: properties, _, @PropertiesForm.cons _ _ _ front behind short first rest => by
    rw [encodeProperties]
    have one : Puts (encode value) front front.length := encode_writes value first
    have others : Puts (encodeProperties properties) behind behind.length := encodeProperties_writes properties rest
    refine ((key_puts short).bind (one.bind (others.map
      (2 + (Text.Utf8.encode name).length + front.length + ·)))).writes ?_
    rw [List.length_append, List.length_append, length_textForm, Nat.add_assoc]
end

theorem toBytes_of_form {values : List Value} {body : Bytes} (listed : ItemsForm values body) :
    toBytes values = .ok body := by
  rw [toBytes, encodeBatch_writes values listed #[]]
  simp

end RtmpRelay.Amf.Amf0
