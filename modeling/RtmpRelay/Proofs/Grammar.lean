import Mathlib.Tactic.SplitIfs
import RtmpRelay.Proofs.Lookahead

/-! The older encoding as a grammar of what may be read, which is more than is ever written: any count may stand before
an ECMA array, a text may be long without need, names may come in any order and twice, and every byte but zero is true.
The reader accepts what the grammar derives and nothing else. -/

namespace RtmpRelay

namespace Text.Utf8

namespace Reading

/-- There is a character, or a part of one. -/
def Shows (reading : Reading) : Prop :=
  reading.text ≠ "" ∨ reading.begun ≠ none

theorem shows_push (text : String) (char : Char) (begun : Option Begun) : Shows ⟨text.push char, begun⟩ :=
  .inl (by simp)

theorem shows_await (text : String) (bits missing low high : Nat) : (await text bits missing low high).Shows :=
  .inr (Option.some_ne_none _)

theorem lead_shows (text : String) (byte : Nat) : (lead text byte).Shows := by
  unfold lead
  split_ifs
  all_goals first
    | apply shows_await
    | apply shows_push

theorem step_shows (reading : Reading) (byte : UInt8) : (reading.step byte).Shows := by
  unfold step
  split
  · apply lead_shows
  split
  · dsimp only
    split
    · apply shows_push
    · apply shows_await
  · apply lead_shows

end Reading

/-- A text is empty only if there were no bytes: what is no character is replaced by one. -/
theorem decode_eq_empty_iff {bytes : Bytes} : decode bytes = "" ↔ bytes = [] := by
  refine ⟨fun empty => ?_, fun nothing => nothing ▸ rfl⟩
  rcases List.eq_nil_or_concat bytes with nothing | ⟨front, last, rfl⟩
  · exact nothing
  rw [decode, List.concat_eq_append, List.foldl_append, List.foldl_cons, List.foldl_nil, Reading.finish] at empty
  split at empty
  next ended =>
    have shows := Reading.step_shows (front.foldl Reading.step ⟨"", none⟩) last
    exact (shows.resolve_right (not_not_intro ended) empty).elim
  next => exact absurd empty (by simp)

end Text.Utf8

namespace Assoc
variable {κ : Type u} {α : Type v} [DecidableEq κ] [Ord κ] [Std.LawfulEqOrd κ] [Std.TransOrd κ]

/-- The map in which the last value of every key is found. -/
structure Settles (entries : List (κ × α)) (map : Assoc κ α) : Prop where
  ascending : map.Ascending
  last : ∀ key, find? key map = find? key entries.reverse

theorem settles_ofEntries (entries : List (κ × α)) : Settles entries (ofEntries entries) := by
  refine ⟨ascending_ofEntries entries, fun key => ?_⟩
  rw [ofEntries_eq_foldl, ← List.foldr_reverse]
  induction entries.reverse with
  | nil => rfl
  | cons entry before ih =>
    obtain ⟨held, value⟩ := entry
    rw [List.foldr_cons]
    by_cases same : key = held
    · rw [same, find?_insert_self, find?, if_pos rfl]
    · rw [find?_insert_of_ne same, ih, find?, if_neg same]

theorem Settles.eq_ofEntries {entries : List (κ × α)} {map : Assoc κ α} (settles : Settles entries map) :
    map = ofEntries entries :=
  settles.ascending.ext (ascending_ofEntries entries) fun key =>
    (settles.last key).trans ((settles_ofEntries entries).last key).symm

end Assoc

namespace Amf

namespace Amf0

/-- Bytes behind their number, which is so wide. -/
def sized (width : Nat) (bytes : Bytes) : Bytes :=
  Bytes.be width bytes.length ++ bytes

mutual
/-- What bytes denote by a derivation in which values are nested at most so deep. -/
inductive Denotes : (room : Nat) → Bytes → Value → Prop where
  | number {room : Nat} {bits : Bytes} (wide : bits.length = 8) :
      Denotes (room + 1) (0x00 :: bits) (.number (.ofBytes bits))
  | boolean {room : Nat} (byte : UInt8) : Denotes (room + 1) [0x01, byte] (.boolean (byte ≠ 0))
  | string {room : Nat} {text : Bytes} (short : text.length < 0x10000) :
      Denotes (room + 1) (0x02 :: sized 2 text) (.string (Text.Utf8.decode text))
  | object {room : Nat} {body : Bytes} {pairs properties : List (String × Value)}
      (listed : DenotesPairs room body pairs) (settled : Assoc.Settles pairs properties) :
      Denotes (room + 1) (0x03 :: body) (.object properties)
  | null {room : Nat} : Denotes (room + 1) [0x05] .null
  | undefined {room : Nat} : Denotes (room + 1) [0x06] .undefined
  | ecmaArray {room : Nat} {count body : Bytes} {pairs properties : List (String × Value)} (wide : count.length = 4)
      (listed : DenotesPairs room body pairs) (settled : Assoc.Settles pairs properties) :
      Denotes (room + 1) (0x08 :: (count ++ body)) (.ecmaArray properties)
  | strictArray {room : Nat} {body : Bytes} {items : List Value} (counted : items.length < 0x100000000)
      (listed : DenotesItems room body items) :
      Denotes (room + 1) (0x0a :: (Bytes.be 4 items.length ++ body)) (.strictArray items)
  | date {room : Nat} {bits zone : Bytes} (wide : bits.length = 8) (zoned : zone.length = 2) :
      Denotes (room + 1) (0x0b :: (bits ++ zone)) (.date (.ofBytes bits))
  | longString {room : Nat} {text : Bytes} (long : text.length < 0x100000000) :
      Denotes (room + 1) (0x0c :: sized 4 text) (.string (Text.Utf8.decode text))
  | xmlDocument {room : Nat} {text : Bytes} (long : text.length < 0x100000000) :
      Denotes (room + 1) (0x0f :: sized 4 text) (.string (Text.Utf8.decode text))
  | typedObject {room : Nat} {className body : Bytes} {pairs properties : List (String × Value)}
      (short : className.length < 0x10000) (listed : DenotesPairs room body pairs)
      (settled : Assoc.Settles pairs properties) :
      Denotes (room + 1) (0x10 :: (sized 2 className ++ body)) (.typedObject (Text.Utf8.decode className) properties)

inductive DenotesItems : (room : Nat) → Bytes → List Value → Prop where
  | nil {room : Nat} : DenotesItems room [] []
  | cons {room : Nat} {front behind : Bytes} {item : Value} {items : List Value} (first : Denotes room front item)
      (rest : DenotesItems room behind items) : DenotesItems room (front ++ behind) (item :: items)

inductive DenotesPairs : (room : Nat) → Bytes → List (String × Value) → Prop where
  | nil {room : Nat} : DenotesPairs room [0x00, 0x00, 0x09] []
  | cons {room : Nat} {key front behind : Bytes} {value : Value} {pairs : List (String × Value)} (named : key ≠ [])
      (short : key.length < 0x10000) (first : Denotes room front value) (rest : DenotesPairs room behind pairs) :
      DenotesPairs room (sized 2 key ++ (front ++ behind)) ((Text.Utf8.decode key, value) :: pairs)
end

end Amf0

theorem Reads.pure (value : α) : Reads (Pure.pure value : Reader α) [] value :=
  fun _ => rfl

theorem Reads.get {reader : Bytes → Reader α} {bytes : Bytes} {value : α}
    (reads : ∀ unread : Bytes, bytes.length ≤ unread.length → Reads (reader unread) bytes value) :
    Reads (MonadState.get >>= reader) bytes value :=
  fun rest => reads (bytes ++ rest) (by simp) rest

namespace Reader

theorem sizedBytes_reads {width : Nat} {bytes : Bytes} (small : bytes.length < 256 ^ width) :
    Reads (sizedText width) (Amf0.sized width bytes) (Text.Utf8.decode bytes) :=
  (natural_reads small).bind ((take_reads bytes).map Text.Utf8.decode)

theorem wideBytes_reads {width : Nat} {bytes : Bytes} (wide : bytes.length = width) : Reads (take width) bytes bytes :=
  wide ▸ take_reads bytes

end Reader

namespace Amf0

section Complete
variable {escape : (room : Nat) → Reader Value} {room : Nat} {value : Reader Value}

theorem repeatedFrom_reads {items : List Value} {body : Bytes} (listed : DenotesItems room body items)
    (members : ∀ bytes item, Denotes room bytes item → Reads value bytes item) (held : Array Value) :
    Reads (repeatedFrom value items.length held) body (held.toList ++ items) := by
  induction items generalizing body held with
  | nil =>
    cases listed
    rw [List.append_nil]
    exact fun _ => rfl
  | cons item items ih =>
    cases listed with
    | cons first rest =>
      have further := ih rest (held.push item)
      rw [Array.toList_push, List.append_assoc] at further
      exact (members _ item first).bind further

theorem entriesFrom_reads {pairs : List (String × Value)} {body : Bytes} (listed : DenotesPairs room body pairs)
    (members : ∀ bytes item, Denotes room bytes item → Reads value bytes item) (held : Array (String × Value))
    {rounds : Bytes} (enough : pairs.length < rounds.length) :
    Reads (entriesFrom parts.name value rounds held) body (held.toList ++ pairs) := by
  induction pairs generalizing body held rounds with
  | nil =>
    cases listed
    cases rounds with
    | nil => exact absurd enough (Nat.not_lt_zero _)
    | cons round rounds =>
      have ends : Reads parts.name [0x00, 0x00, 0x09] none := name_ends
      intro rest
      rw [entriesFrom, run_bind_ok (ends rest), List.append_nil]
      rfl
  | cons pair pairs ih =>
    cases listed with
    | @cons _ key front behind item _ named short first rest =>
      cases rounds with
      | nil => exact absurd enough (Nat.not_lt_zero _)
      | cons round rounds =>
        have further := ih rest (held.push (Text.Utf8.decode key, item)) (Nat.lt_of_succ_lt_succ enough)
        rw [Array.toList_push, List.append_assoc] at further
        have text : Text.Utf8.decode key ≠ "" := mt Text.Utf8.decode_eq_empty_iff.mp named
        have key : Reads parts.name (sized 2 key) (some (Text.Utf8.decode key)) := by
          intro after
          have spelled : sizedTextVia parts.take 2 (sized 2 key ++ after) = .ok (Text.Utf8.decode key) after :=
            Reader.sizedBytes_reads short after
          rw [Parts.name, run_bind_ok spelled, if_neg text]
          rfl
        exact key.bind ((members _ item first).bind further)

theorem length_lt_of_pairs {pairs : List (String × Value)} {body : Bytes} (listed : DenotesPairs room body pairs) :
    pairs.length < body.length := by
  induction pairs generalizing body with
  | nil => cases listed; decide
  | cons pair pairs ih =>
    cases listed with
    | cons named short first rest =>
      have shorter := ih rest
      simp only [sized, List.length_cons, List.length_append, Bytes.length_be]
      omega

theorem properties_reads {pairs properties : List (String × Value)} {body : Bytes}
    (listed : DenotesPairs room body pairs) (settled : Assoc.Settles pairs properties)
    (members : ∀ bytes item, Denotes room bytes item → Reads value bytes item) :
    Reads (parts.properties value) body properties := by
  have read : Reads (parts.entries parts.name value) body pairs := .get fun unread enough =>
    entriesFrom_reads listed members #[] (Nat.lt_of_lt_of_le (length_lt_of_pairs listed) enough)
  have sorted := read.map Assoc.ofEntries
  rwa [← settled.eq_ofEntries] at sorted

theorem reads_marked {marker : UInt8} {branch : Reader Value} {body : Bytes} {value : Value}
    (marks : ∀ unread, valueVia escape (room + 1) (marker :: unread) = branch unread)
    (reads : Reads branch body value) : Reads (valueVia escape (room + 1)) (marker :: body) value :=
  fun rest => (marks _).trans (reads rest)

/-- The way into the newer encoding is never taken. -/
theorem denotes_reads (escape : (room : Nat) → Reader Value) {room : Nat} {bytes : Bytes} {value : Value}
    (denotes : Denotes room bytes value) : Reads (valueVia escape room) bytes value := by
  induction room generalizing bytes value with
  | zero => cases denotes
  | succ room ih =>
    have members : ∀ bytes item, Denotes room bytes item → Reads (valueVia escape room) bytes item := fun _ _ => ih
    cases denotes with
    | number wide =>
      exact reads_marked (fun _ => rfl) (((Reader.wideBytes_reads wide).map Double.ofBytes).map Value.number)
    | boolean byte =>
      exact reads_marked (fun _ => rfl) ((Reader.byte_reads byte).map fun byte => Value.boolean (byte ≠ 0))
    | string short => exact reads_marked (fun _ => rfl) ((Reader.sizedBytes_reads short).map Value.string)
    | object listed settled =>
      exact reads_marked (fun _ => rfl) ((properties_reads listed settled members).map Value.object)
    | null => exact reads_marked (fun _ => rfl) (.pure Value.null)
    | undefined => exact reads_marked (fun _ => rfl) (.pure Value.undefined)
    | ecmaArray wide listed settled =>
      have counted := (Reader.wideBytes_reads wide).map Bytes.beValue
      exact reads_marked (fun _ => rfl) (counted.bind ((properties_reads listed settled members).map Value.ecmaArray))
    | strictArray counted listed =>
      have read := repeatedFrom_reads listed members #[]
      exact reads_marked (fun _ => rfl) ((Reader.natural_reads counted).bind (read.map Value.strictArray))
    | @date _ bits _ wide zoned =>
      have zone := (Reader.wideBytes_reads zoned).map fun _ => Value.date (.ofBytes bits)
      exact reads_marked (fun _ => rfl) (((Reader.wideBytes_reads wide).map Double.ofBytes).bind zone)
    | longString long => exact reads_marked (fun _ => rfl) ((Reader.sizedBytes_reads long).map Value.string)
    | xmlDocument long => exact reads_marked (fun _ => rfl) ((Reader.sizedBytes_reads long).map Value.string)
    | @typedObject _ className _ _ _ short listed settled =>
      have read := (properties_reads listed settled members).map (Value.typedObject (Text.Utf8.decode className))
      exact reads_marked (fun _ => rfl) ((Reader.sizedBytes_reads short).bind read)

end Complete
end Amf0

/-- What is read is told by the bytes that are taken for it, of which this holds. -/
def Takes (reader : Reader α) (holds : α → Bytes → Prop) : Prop :=
  ∀ unread, Ensures reader unread fun value rest => ∃ taken, unread = taken ++ rest ∧ holds value taken

namespace Takes
variable {first : Reader α} {next : α → Reader β} {one : α → Bytes → Prop} {holds : β → Bytes → Prop}

theorem pure {value : β} (empty : holds value []) : Takes (pure value) holds :=
  fun _ => .pure ⟨[], rfl, empty⟩

theorem throw (error : Error) : Takes (throw error) holds :=
  fun _ => .throw

theorem bind (begins : Takes first one)
    (goesOn : ∀ value front, one value front → Takes (next value) fun result behind => holds result (front ++ behind)) :
    Takes (first >>= next) holds := by
  intro unread
  refine .bind ((begins unread).imp ?_)
  rintro value middle ⟨front, rfl, began⟩
  refine (goesOn value front began middle).imp ?_
  rintro result rest ⟨behind, rfl, ended⟩
  exact ⟨front ++ behind, (List.append_assoc front behind rest).symm, ended⟩

theorem map (begins : Takes first one) {change : α → β} (follows : ∀ value taken, one value taken →
    holds (change value) taken) : Takes (first >>= fun value => Pure.pure (change value)) holds :=
  begins.bind fun value front began => .pure ((List.append_nil front).symm ▸ follows value front began)

theorem get {reader : Bytes → Reader β} (takes : ∀ unread, Takes (reader unread) holds) :
    Takes (MonadState.get >>= reader) holds :=
  fun unread => .bind (.get (takes unread unread))

end Takes

namespace Reader

theorem take_takes (count : Nat) : Takes (take count) fun bytes taken => taken = bytes ∧ taken.length = count := by
  intro unread bytes rest read
  rw [take_eq] at read
  split at read
  next enough =>
    cases read
    exact ⟨_, (List.take_append_drop count unread).symm, rfl, List.length_take_of_le enough⟩
  next => cases read

theorem byte_takes : Takes byte fun first taken => taken = [first] :=
  fun unread => (byte_cons unread).imp fun first _ front => ⟨[first], front, rfl⟩

theorem natural_takes (width : Nat) :
    Takes (natural width) fun number taken => number < 256 ^ width ∧ taken = Bytes.be width number := by
  refine (take_takes width).map ?_
  rintro bytes _ ⟨rfl, rfl⟩
  exact ⟨Bytes.beValue_lt _, (Bytes.be_beValue _).symm⟩

theorem double_takes : Takes double fun number taken => taken.length = 8 ∧ number = .ofBytes taken := by
  refine (take_takes 8).map ?_
  rintro bytes _ ⟨rfl, wide⟩
  exact ⟨wide, rfl⟩

theorem sizedText_takes (width : Nat) : Takes (sizedText width) fun text taken =>
    ∃ bytes : Bytes, bytes.length < 256 ^ width ∧ text = Text.Utf8.decode bytes ∧ taken = Amf0.sized width bytes := by
  refine (natural_takes width).bind ?_
  rintro size _ ⟨small, rfl⟩
  refine (take_takes size).map ?_
  rintro bytes _ ⟨rfl, rfl⟩
  exact ⟨_, small, rfl, rfl⟩

end Reader

namespace Amf0

theorem name_takes : Takes parts.name fun key taken =>
    match key with
    | none => taken = [0x00, 0x00, 0x09]
    | some key =>
      ∃ bytes : Bytes, bytes ≠ [] ∧ bytes.length < 0x10000 ∧ key = Text.Utf8.decode bytes ∧ taken = sized 2 bytes := by
  refine (Reader.sizedText_takes 2).bind ?_
  rintro text _ ⟨bytes, short, rfl, rfl⟩
  split
  next empty =>
    cases Text.Utf8.decode_eq_empty_iff.mp empty
    refine Reader.byte_takes.bind ?_
    rintro marker _ rfl
    split
    next same => exact .pure (same ▸ rfl)
    next => exact .throw _
  next text => exact .pure ⟨bytes, mt Text.Utf8.decode_eq_empty_iff.mpr text, short, rfl, List.append_nil _⟩

section Sound
variable {room : Nat} {value : Reader Value}

theorem repeatedFrom_takes (members : Takes value fun item taken => Denotes room taken item) (count : Nat)
    (held : Array Value) : Takes (repeatedFrom value count held) fun items taken =>
      ∃ further, items = held.toList ++ further ∧ further.length = count ∧ DenotesItems room taken further := by
  induction count generalizing held with
  | zero => exact .pure ⟨[], (List.append_nil _).symm, rfl, .nil⟩
  | succ count ih =>
    refine members.bind fun item front first => ?_
    rintro unread items rest read
    obtain ⟨behind, rfl, further, rfl, rfl, listed⟩ := ih (held.push item) unread items rest read
    refine ⟨behind, rfl, item :: further, ?_, rfl, .cons first listed⟩
    rw [Array.toList_push, List.append_assoc, List.singleton_append]

theorem entriesFrom_takes (members : Takes value fun item taken => Denotes room taken item) (rounds : Bytes)
    (held : Array (String × Value)) : Takes (entriesFrom parts.name value rounds held) fun pairs taken =>
      ∃ further, pairs = held.toList ++ further ∧ DenotesPairs room taken further := by
  induction rounds generalizing held with
  | nil => exact .throw _
  | cons round rounds ih =>
    refine name_takes.bind fun key front named => ?_
    cases key with
    | none =>
      cases named
      exact .pure ⟨[], (List.append_nil _).symm, .nil⟩
    | some key =>
      obtain ⟨bytes, nonempty, short, rfl, rfl⟩ := named
      refine members.bind fun item front first => ?_
      rintro unread pairs rest read
      obtain ⟨behind, rfl, further, rfl, listed⟩ := ih (held.push (Text.Utf8.decode bytes, item)) unread pairs rest read
      refine ⟨behind, rfl, (Text.Utf8.decode bytes, item) :: further, ?_, .cons nonempty short first listed⟩
      rw [Array.toList_push, List.append_assoc, List.singleton_append]

theorem properties_takes (members : Takes value fun item taken => Denotes room taken item) :
    Takes (parts.properties value) fun properties taken =>
      ∃ pairs, DenotesPairs room taken pairs ∧ Assoc.Settles pairs properties := by
  have listed : Takes (parts.entries parts.name value) fun pairs taken => DenotesPairs room taken pairs := by
    refine .get fun unread state pairs rest read => ?_
    obtain ⟨taken, front, _, rfl, listed⟩ := entriesFrom_takes members unread #[] state pairs rest read
    exact ⟨taken, front, listed⟩
  exact listed.map fun pairs taken listed => ⟨pairs, listed, Assoc.settles_ofEntries pairs⟩

theorem valueVia_takes (room : Nat) :
    Takes (valueVia (fun _ => throw .nestingTooDeep) room) fun value taken => Denotes room taken value := by
  induction room with
  | zero => exact .throw _
  | succ room ih =>
    refine Reader.byte_takes.bind ?_
    rintro byte _ rfl
    unfold Parts.marked
    cases known : Marker.ofByte? byte with
    | none => exact .throw _
    | some marker =>
      cases Marker.toByte_of_ofByte? known
      cases marker with
      | number =>
        refine Reader.double_takes.map ?_
        rintro _ bits ⟨wide, rfl⟩
        exact .number wide
      | boolean =>
        refine Reader.byte_takes.map ?_
        rintro byte _ rfl
        exact .boolean byte
      | string =>
        refine (Reader.sizedText_takes 2).map ?_
        rintro _ _ ⟨text, short, rfl, rfl⟩
        exact .string short
      | object =>
        refine (properties_takes ih).map ?_
        rintro properties body ⟨pairs, listed, settled⟩
        exact .object listed settled
      | null => exact .pure .null
      | undefined => exact .pure .undefined
      | ecmaArray =>
        refine (Reader.natural_takes 4).bind ?_
        rintro count _ ⟨small, rfl⟩
        refine (properties_takes ih).map ?_
        rintro properties body ⟨pairs, listed, settled⟩
        have derived := Denotes.ecmaArray (Bytes.length_be 4 count) listed settled
        exact derived
      | strictArray =>
        refine (Reader.natural_takes 4).bind ?_
        rintro count _ ⟨small, rfl⟩
        refine (repeatedFrom_takes ih count #[]).map ?_
        rintro _ body ⟨items, rfl, rfl, listed⟩
        exact .strictArray small listed
      | date =>
        refine Reader.double_takes.bind ?_
        rintro _ bits ⟨wide, rfl⟩
        refine (Reader.take_takes 2).map ?_
        rintro zone _ ⟨rfl, zoned⟩
        exact .date wide zoned
      | longString =>
        refine (Reader.sizedText_takes 4).map ?_
        rintro _ _ ⟨text, long, rfl, rfl⟩
        exact .longString long
      | xmlDocument =>
        refine (Reader.sizedText_takes 4).map ?_
        rintro _ _ ⟨text, long, rfl, rfl⟩
        exact .xmlDocument long
      | typedObject =>
        refine (Reader.sizedText_takes 2).bind ?_
        rintro _ _ ⟨className, short, rfl, rfl⟩
        refine (properties_takes ih).map ?_
        rintro properties body ⟨pairs, listed, settled⟩
        exact .typedObject short listed settled
      | avmPlus => exact .throw _
      | movieClip | reference | objectEnd | unsupported | recordSet => exact .throw _

end Sound

/-- A value is read without the newer encoding, from so many bytes, exactly if that is what those bytes denote. -/
theorem decodes_plainly_iff_denotes (bytes : Bytes) (value : Value) (size : Nat) :
    (decode bytes = .ok (value, size) ∧ ∀ escape, decodeVia escape bytes = decode bytes) ↔
      size ≤ bytes.length ∧ Denotes maxDepth (bytes.take size) value := by
  constructor
  · rintro ⟨read, plainly⟩
    have closed : decodeVia (fun _ => throw .nestingTooDeep) bytes = .ok (value, size) := (plainly _).trans read
    obtain ⟨rest, there, rfl⟩ := decodeVia_next closed
    obtain ⟨taken, rfl, denotes⟩ := valueVia_takes maxDepth bytes _ rest there
    have cut : (taken ++ rest).length - rest.length = taken.length := by simp
    rw [cut, List.take_left]
    exact ⟨by simp, denotes⟩
  · rintro ⟨inside, denotes⟩
    have read : ∀ escape, decodeVia escape bytes = .ok (value, size) := by
      intro escape
      have reads := denotes_reads escape denotes (bytes.drop size)
      rw [List.take_append_drop] at reads
      rw [decodeVia, nextVia, reads]
      simp only [List.length_drop, Nat.sub_sub_self inside]
    exact ⟨read escaped, fun escape => (read escape).trans (read escaped).symm⟩

end Amf0
end Amf
end RtmpRelay
