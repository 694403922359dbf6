import RtmpRelay.Amf.Depth
import RtmpRelay.Proofs.FixedWidth
import RtmpRelay.Proofs.WrittenForms

/-! What is written in the older encoding is read back. A form is read in front of anything, which is what makes the
items of an array and the properties of an object come back one after another. Since the reader counts its depth on the
way down, a value that is nested too deep is refused as that and as nothing else, wherever it stands. Properties come
back in the order of a map, and an empty name would have ended them. -/

namespace RtmpRelay

namespace Assoc
variable {κ : Type u} {α : Type v} [Ord κ]

theorem insert_of_above [Std.OrientedOrd κ] {key : κ} {value : α} {map : Assoc κ α}
    (above : ∀ entry ∈ map, compare entry.1 key = .lt) : insert key value map = map ++ [(key, value)] := by
  induction map with
  | nil => rfl
  | cons entry rest ih =>
    obtain ⟨held, other⟩ := entry
    have order : compare key held = .gt := Std.OrientedCmp.gt_of_lt (above _ List.mem_cons_self)
    simp only [insert, order, ih fun entry member => above entry (List.mem_cons_of_mem _ member), List.cons_append]

/-- Entries that are in order already are their own map. -/
theorem Ascending.ofEntries_eq [DecidableEq κ] [Std.LawfulEqOrd κ] [Std.TransOrd κ] {entries : List (κ × α)}
    (ascending : Ascending entries) : ofEntries entries = entries := by
  have grown : ∀ (entries : List (κ × α)) (map : Assoc κ α), Ascending (map ++ entries) →
      entries.foldl (fun map entry => Assoc.insert entry.1 entry.2 map) map = map ++ entries := by
    intro entries
    induction entries with
    | nil => exact fun map _ => (List.append_nil map).symm
    | cons entry rest ih =>
      intro map ordered
      have above := fun other member => (List.pairwise_append.mp ordered).2.2 other member entry List.mem_cons_self
      rw [List.append_cons] at ordered ⊢
      rw [List.foldl_cons, insert_of_above above]
      exact ih _ ordered
  rw [ofEntries_eq_foldl]
  exact grown entries [] ascending

end Assoc

namespace Amf

namespace Value

mutual
/-- Whether something holds of the properties of every object and ECMA array in a value, at any level. -/
def Everywhere (holds : List (String × Value) → Prop) : Value → Prop
  | .object properties | .ecmaArray properties | .typedObject _ properties =>
    holds properties ∧ propertiesEverywhere holds properties
  | .strictArray items => itemsEverywhere holds items
  | .number _ | .boolean _ | .string _ | .null | .undefined | .date _ => True

def itemsEverywhere (holds : List (String × Value) → Prop) : List Value → Prop
  | [] => True
  | item :: items => Everywhere holds item ∧ itemsEverywhere holds items

def propertiesEverywhere (holds : List (String × Value) → Prop) : List (String × Value) → Prop
  | [] => True
  | (_, value) :: properties => Everywhere holds value ∧ propertiesEverywhere holds properties
end

/-- Properties are a map, which has its names in order. An empty name can be written, but it is read as an end. -/
structure Proper (properties : List (String × Value)) : Prop where
  ascending : Assoc.Ascending properties
  named : ∀ property ∈ properties, property.1 ≠ ""

theorem itemsEverywhere_iff {holds : List (String × Value) → Prop} {items : List Value} :
    itemsEverywhere holds items ↔ ∀ item ∈ items, Everywhere holds item := by
  induction items with
  | nil => simp [itemsEverywhere]
  | cons item items ih => rw [itemsEverywhere, ih, List.forall_mem_cons]

theorem depth_pos (value : Value) : 0 < value.depth := by
  cases value <;> simp [depth]

end Value

section Running
variable {ε σ α β : Type} {first : EStateM ε σ α} {next : α → EStateM ε σ β} {start after : σ}

theorem run_bind_ok {value : α} (ran : first start = .ok value after) : (first >>= next) start = next value after := by
  simp only [bind, EStateM.bind, ran]

theorem run_bind_error {error : ε} (stopped : first start = .error error after) :
    (first >>= next) start = .error error after := by
  simp only [bind, EStateM.bind, stopped]

end Running

/-- These bytes are read as this, and what follows them is left. -/
def Reads (reader : Reader α) (bytes : Bytes) (value : α) : Prop :=
  ∀ rest, reader (bytes ++ rest) = .ok value rest

/-- These bytes are read as this if it fits. Otherwise they are refused because they are nested too deep. -/
structure Restores (reader : Reader α) (bytes : Bytes) (fits : Prop) (value : α) : Prop where
  back : fits → Reads reader bytes value
  refused : ¬ fits → ∀ rest, ∃ left, reader (bytes ++ rest) = .error .nestingTooDeep left

section Rules
variable {reader : Reader α} {next : α → Reader β} {front behind : Bytes} {one other : Prop} {value : α} {result : β}

theorem Reads.bind (first : Reads reader front value) (second : Reads (next value) behind result) :
    Reads (reader >>= next) (front ++ behind) result := by
  intro rest
  rw [List.append_assoc, run_bind_ok (first _)]
  exact second rest

theorem Reads.map (reads : Reads reader front value) (change : α → β) :
    Reads (reader >>= fun value => pure (change value)) front (change value) := by
  intro rest
  rw [run_bind_ok (reads rest)]
  rfl

theorem Reads.restores (reads : Reads reader front value) : Restores reader front True value :=
  ⟨fun _ => reads, fun never => absurd trivial never⟩

theorem Restores.congr (restores : Restores reader front one value) (same : one ↔ other) :
    Restores reader front other value :=
  ⟨fun fits => restores.back (same.mpr fits), fun deep => restores.refused (mt same.mp deep)⟩

theorem Restores.bind (first : Restores reader front one value) (second : Restores (next value) behind other result) :
    Restores (reader >>= next) (front ++ behind) (one ∧ other) result := by
  refine ⟨fun fits => (first.back fits.1).bind (second.back fits.2), fun deep rest => ?_⟩
  rw [List.append_assoc]
  by_cases fits : one
  · rw [run_bind_ok (first.back fits _)]
    exact second.refused (fun also => deep ⟨fits, also⟩) rest
  · obtain ⟨left, refused⟩ := first.refused fits (behind ++ rest)
    exact ⟨left, run_bind_error refused⟩

theorem Restores.after (first : Reads reader front value) (second : Restores (next value) behind other result) :
    Restores (reader >>= next) (front ++ behind) other result :=
  (first.restores.bind second).congr ⟨And.right, fun fits => ⟨trivial, fits⟩⟩

theorem Restores.map (restores : Restores reader front one value) (change : α → β) :
    Restores (reader >>= fun value => pure (change value)) front one (change value) := by
  have last : Reads (pure (change value) : Reader β) [] (change value) := fun _ => rfl
  have both : Restores (reader >>= fun value => pure (change value)) (front ++ []) (one ∧ True) (change value) :=
    restores.bind last.restores
  rw [List.append_nil] at both
  exact both.congr ⟨And.left, fun fits => ⟨fits, trivial⟩⟩

/-- A reader that counts the bytes that are there finds at least those that were written. -/
theorem Restores.get {reader : Bytes → Reader α}
    (restores : ∀ unread : Bytes, front.length ≤ unread.length → Restores (reader unread) front one value) :
    Restores (MonadState.get >>= reader) front one value := by
  have enough : ∀ rest : Bytes, front.length ≤ (front ++ rest).length := fun rest => by simp
  exact ⟨fun fits rest => (restores _ (enough rest)).back fits rest,
    fun deep rest => (restores _ (enough rest)).refused deep rest⟩

end Rules

namespace Reader

theorem take_reads (bytes : Bytes) : Reads (take bytes.length) bytes bytes := by
  intro rest
  simp only [take, Bytes.split?_append]

theorem byte_reads (first : UInt8) : Reads byte [first] first :=
  fun _ => rfl

theorem natural_reads {width number : Nat} (small : number < 256 ^ width) :
    Reads (natural width) (Bytes.be width number) number := by
  have cut := take_reads (Bytes.be width number)
  rw [Bytes.length_be] at cut
  have value := cut.map Bytes.beValue
  rwa [Bytes.beValue_be, Nat.mod_eq_of_lt small] at value

theorem double_reads (number : Double) : Reads double number.toBytes number := by
  have cut := take_reads number.toBytes
  rw [Double.length_toBytes] at cut
  have value := cut.map Double.ofBytes
  rwa [Double.ofBytes_toBytes] at value

theorem sizedText_reads {width : Nat} {text : String} (small : (Text.Utf8.encode text).length < 256 ^ width) :
    Reads (sizedText width) (Amf0.textForm width text) text := by
  refine (natural_reads small).bind ?_
  have read := (take_reads (Text.Utf8.encode text)).map Text.Utf8.decode
  rwa [Text.Utf8.decode_encode] at read

end Reader

namespace Amf0

theorem short_reads {text : String} (short : IsShort text) : Reads (Reader.sizedText 2) (textForm 2 text) text :=
  Reader.sizedText_reads (Nat.lt_succ_of_le short)

theorem name_reads {text : String} (short : IsShort text) (named : text ≠ "") :
    Reads parts.name (textForm 2 text) (some text) := by
  intro rest
  have read : sizedTextVia parts.take 2 (textForm 2 text ++ rest) = .ok text rest := short_reads short rest
  rw [Parts.name, run_bind_ok read, if_neg named]
  rfl

theorem name_ends : Reads parts.name objectEndForm none := by
  intro rest
  have empty : IsShort "" := by unfold IsShort; decide
  have front : objectEndForm ++ rest = textForm 2 "" ++ (Marker.objectEnd.toByte :: rest) := rfl
  have read : sizedTextVia parts.take 2 (textForm 2 "" ++ (Marker.objectEnd.toByte :: rest)) = .ok "" _ :=
    short_reads empty _
  rw [front, Parts.name, run_bind_ok read, if_pos rfl]
  rfl

section Values
variable {room : Nat}

/-- What is known of the members of a container when its own form is read. -/
def RestoresMembers (room : Nat) : Prop :=
  ∀ value form, Form value form → value.Everywhere Value.Proper →
    Restores (Amf0.value room) form (value.depth ≤ room) value

theorem repeatedFrom_restores (members : RestoresMembers room) {items : List Value} {body : Bytes}
    (listed : ItemsForm items body) (proper : Value.itemsEverywhere Value.Proper items) (held : Array Value) :
    Restores (repeatedFrom (Amf0.value room) items.length held) body (Value.itemsDepth items ≤ room)
      (held.toList ++ items) := by
  induction items generalizing body held with
  | nil =>
    cases listed
    have nothing : Reads (repeatedFrom (Amf0.value room) 0 held) [] (held.toList ++ []) := by
      rw [List.append_nil]
      exact fun _ => rfl
    exact nothing.restores.congr (by simp [Value.itemsDepth])
  | cons item items ih =>
    cases listed with
    | cons first rest =>
      have further := ih rest proper.2 (held.push item)
      rw [Array.toList_push, List.append_assoc] at further
      exact ((members item _ first proper.1).bind further).congr Nat.max_le.symm

theorem entriesFrom_restores (members : RestoresMembers room) {properties : List (String × Value)} {body : Bytes}
    (listed : PropertiesForm properties body) (proper : Value.propertiesEverywhere Value.Proper properties)
    (named : ∀ property ∈ properties, property.1 ≠ "") (held : Array (String × Value)) {rounds : Bytes}
    (enough : properties.length < rounds.length) :
    Restores (entriesFrom parts.name (Amf0.value room) rounds held) body (Value.propertiesDepth properties ≤ room)
      (held.toList ++ properties) := by
  induction properties generalizing body held rounds with
  | nil =>
    cases listed
    cases rounds with
    | nil => simp at enough
    | cons round rounds =>
      have ends : Reads (entriesFrom parts.name (Amf0.value room) (round :: rounds) held) objectEndForm
          (held.toList ++ []) := by
        intro rest
        rw [entriesFrom, run_bind_ok (name_ends rest), List.append_nil]
        rfl
      exact ends.restores.congr (by simp [Value.propertiesDepth])
  | cons property properties ih =>
    cases listed with
    | @cons key value _ _ _ short first rest =>
      cases rounds with
      | nil => simp at enough
      | cons round rounds =>
        have further := ih rest proper.2 (fun other member => named other (List.mem_cons_of_mem _ member))
          (held.push (key, value)) (Nat.lt_of_succ_lt_succ enough)
        rw [Array.toList_push, List.append_assoc] at further
        refine .after (name_reads short (named _ List.mem_cons_self)) ?_
        exact ((members value _ first proper.1).bind further).congr Nat.max_le.symm

theorem length_lt_of_form {properties : List (String × Value)} {body : Bytes}
    (listed : PropertiesForm properties body) : properties.length < body.length := by
  induction properties generalizing body with
  | nil => cases listed; decide
  | cons property properties ih =>
    cases listed with
    | cons short first rest =>
      have shorter := ih rest
      simp only [textForm, List.length_cons, List.length_append, Bytes.length_be]
      omega

theorem properties_restores (members : RestoresMembers room) {held : List (String × Value)} {body : Bytes}
    (listed : PropertiesForm held body) (proper : Value.Proper held)
    (inside : Value.propertiesEverywhere Value.Proper held) :
    Restores (parts.properties (Amf0.value room)) body (Value.propertiesDepth held ≤ room) held := by
  have read : Restores (parts.entries parts.name (Amf0.value room)) body (Value.propertiesDepth held ≤ room) held := by
    refine .get fun unread enough => ?_
    exact entriesFrom_restores members listed inside proper.named #[] (Nat.lt_of_lt_of_le (length_lt_of_form listed) enough)
  have sorted := read.map Assoc.ofEntries
  rwa [proper.ascending.ofEntries_eq] at sorted

variable {marker : Marker} {body : Bytes} {value : Value}

theorem restores_flat {branch : Reader Value} (reads : Reads branch body value)
    (marks : ∀ unread, Amf0.value (room + 1) (marker.toByte :: unread) = branch unread) (flat : value.depth = 1) :
    Restores (Amf0.value (room + 1)) (marker.toByte :: body) (value.depth ≤ room + 1) value := by
  have whole : Reads (Amf0.value (room + 1)) (marker.toByte :: body) value := fun rest => (marks _).trans (reads rest)
  exact whole.restores.congr (by simp [flat])

theorem restores_nested {branch : Reader Value} {depth : Nat} (restores : Restores branch body (depth ≤ room) value)
    (marks : ∀ unread, Amf0.value (room + 1) (marker.toByte :: unread) = branch unread)
    (deeper : value.depth = depth + 1) :
    Restores (Amf0.value (room + 1)) (marker.toByte :: body) (value.depth ≤ room + 1) value := by
  have whole : Restores (Amf0.value (room + 1)) (marker.toByte :: body) (depth ≤ room) value :=
    ⟨fun fits rest => (marks _).trans (restores.back fits rest), fun deep rest => by
      rw [List.cons_append, marks]
      exact restores.refused deep rest⟩
  exact whole.congr (by rw [deeper]; exact Nat.succ_le_succ_iff.symm)

theorem value_restores (room : Nat) : RestoresMembers room := by
  induction room with
  | zero =>
    intro value form _ _
    have deep : ¬ value.depth ≤ 0 := Nat.not_le.mpr value.depth_pos
    exact ⟨fun fits => absurd fits deep, fun _ rest => ⟨_, rfl⟩⟩
  | succ room members =>
    intro value form written proper
    cases written with
    | number value => exact restores_flat ((Reader.double_reads value).map Value.number) (fun _ => rfl) rfl
    | boolean value =>
      have read := (Reader.byte_reads (if value then 1 else 0)).map fun byte => Value.boolean (byte ≠ 0)
      have same : decide ((if value then 1 else 0 : UInt8) ≠ 0) = value := by cases value <;> rfl
      rw [same] at read
      exact restores_flat read (fun _ => rfl) rfl
    | shortText short =>
      exact restores_flat ((short_reads short).map Value.string) (fun _ => rfl) rfl
    | longText long fits =>
      exact restores_flat ((Reader.sizedText_reads fits).map Value.string) (fun _ => rfl) rfl
    | object listed =>
      have read := properties_restores members listed proper.1 proper.2
      exact restores_nested (read.map Value.object) (fun _ => rfl) rfl
    | null =>
      have read : Reads (pure Value.null) [] Value.null := fun _ => rfl
      exact restores_flat read (fun _ => rfl) rfl
    | undefined =>
      have read : Reads (pure Value.undefined) [] Value.undefined := fun _ => rfl
      exact restores_flat read (fun _ => rfl) rfl
    | ecmaArray fits listed =>
      have read := properties_restores members listed proper.1 proper.2
      exact restores_nested (.after (Reader.natural_reads fits) (read.map Value.ecmaArray)) (fun _ => rfl) rfl
    | strictArray fits listed =>
      have read := repeatedFrom_restores members listed proper #[]
      exact restores_nested (.after (Reader.natural_reads fits) (read.map Value.strictArray)) (fun _ => rfl) rfl
    | date milliseconds =>
      have zone := (Reader.take_reads [0, 0]).map fun _ => Value.date milliseconds
      exact restores_flat ((Reader.double_reads milliseconds).bind zone) (fun _ => rfl) rfl
    | typedObject short listed =>
      have read := properties_restores members listed proper.1 proper.2
      exact restores_nested (.after (short_reads short) (read.map (Value.typedObject _))) (fun _ => rfl) rfl

end Values

theorem form_nonempty {value : Value} {form : Bytes} (written : Form value form) : form ≠ [] := by
  cases written <;> exact List.cons_ne_nil _ _

theorem length_le_of_form {items : List Value} {body : Bytes} (listed : ItemsForm items body) :
    items.length ≤ body.length := by
  induction items generalizing body with
  | nil => exact Nat.zero_le _
  | cons item items ih =>
    cases listed with
    | cons first rest =>
      have shorter := ih rest
      have atLeastOne := List.length_pos_iff.mpr (form_nonempty first)
      simp only [List.length_cons, List.length_append]
      omega

theorem valuesFrom_restores {items : List Value} {body : Bytes} (listed : ItemsForm items body)
    (proper : Value.itemsEverywhere Value.Proper items) (held : Array Value) {rounds : Bytes}
    (enough : items.length ≤ rounds.length) :
    (Value.itemsDepth items ≤ maxDepth → valuesFrom next rounds held body = .ok (held.toList ++ items) []) ∧
    (¬ Value.itemsDepth items ≤ maxDepth → ∃ left, valuesFrom next rounds held body = .error .nestingTooDeep left) := by
  induction items generalizing body held rounds with
  | nil =>
    cases listed
    rw [List.append_nil]
    refine ⟨fun _ => ?_, fun deep => absurd (Nat.zero_le _) deep⟩
    cases rounds <;> rfl
  | cons item items ih =>
    cases listed with
    | @cons _ _ front behind first rest =>
      cases rounds with
      | nil => simp at enough
      | cons round rounds =>
        have reads : Restores next front (item.depth ≤ maxDepth) item :=
          value_restores maxDepth item front first proper.1
        have further := ih rest proper.2 (held.push item) (Nat.le_of_succ_le_succ enough)
        rw [Array.toList_push, List.append_assoc] at further
        have more : (front ++ behind).isEmpty = false := by simp [form_nonempty first]
        have turn : valuesFrom next (round :: rounds) held (front ++ behind) =
            (next >>= fun value => valuesFrom next rounds (held.push value)) (front ++ behind) := by
          have seen : (get : Reader Bytes) (front ++ behind) = .ok (front ++ behind) (front ++ behind) := rfl
          rw [valuesFrom, run_bind_ok seen, more]
          rfl
        rw [turn, Value.itemsDepth, Nat.max_le]
        by_cases fits : item.depth ≤ maxDepth
        · rw [run_bind_ok (reads.back fits behind)]
          exact ⟨fun both => further.1 both.2, fun deep => further.2 fun others => deep ⟨fits, others⟩⟩
        · obtain ⟨left, refused⟩ := reads.refused fits behind
          exact ⟨fun both => absurd both.1 fits, fun _ => ⟨left, run_bind_error refused⟩⟩

theorem decode_restores {value : Value} {form : Bytes} (written : Form value form)
    (proper : value.Everywhere Value.Proper) (rest : Bytes) :
    (value.depth ≤ maxDepth → decode (form ++ rest) = .ok (value, form.length)) ∧
    (maxDepth < value.depth → decode (form ++ rest) = .error .nestingTooDeep) := by
  have reads := value_restores maxDepth value form written proper
  refine ⟨fun fits => ?_, fun deep => ?_⟩
  · rw [decode_eq, next_eq, reads.back fits rest]
    simp
  · obtain ⟨left, refused⟩ := reads.refused (Nat.not_le.mpr deep) rest
    rw [decode_eq, next_eq, refused]

theorem decodeBatch_restores {values : List Value} {body : Bytes} (listed : ItemsForm values body)
    (proper : ∀ value ∈ values, value.Everywhere Value.Proper) :
    ((∀ value ∈ values, value.depth ≤ maxDepth) → decodeBatch body = .ok values) ∧
    ((∃ value ∈ values, maxDepth < value.depth) → decodeBatch body = .error .nestingTooDeep) := by
  have inside := Value.itemsEverywhere_iff.mpr proper
  have reads := valuesFrom_restores listed inside #[] (length_le_of_form listed)
  have started : Amf0.values body = valuesFrom next body #[] body := rfl
  refine ⟨fun fits => ?_, fun deep => ?_⟩
  · rw [decodeBatch_eq, started, reads.1 (Value.itemsDepth_le_iff.mpr fits)]
    rfl
  · have tooMuch : ¬ Value.itemsDepth values ≤ maxDepth := by
      rw [Value.itemsDepth_le_iff]
      obtain ⟨value, member, deeper⟩ := deep
      exact fun fits => Nat.not_lt.mpr (fits value member) deeper
    obtain ⟨left, refused⟩ := reads.2 tooMuch
    rw [decodeBatch_eq, started, refused]

/-- What is written is behind what was there, as long as the writer says, and read back from there: a list from exactly
its bytes and each value in front of anything. Nesting beyond the limit is the only reason to refuse it. -/
theorem written_values_are_read {values : List Value} (proper : ∀ value ∈ values, value.Everywhere Value.Proper)
    (out : Array UInt8) :
    (∀ size after, encodeBatch values out = .ok size after →
      ∃ bytes : Bytes, after = out ++ bytes ∧ size = bytes.length ∧
        ((∀ value ∈ values, value.depth ≤ maxDepth) → decodeBatch bytes = .ok values) ∧
        ((∃ value ∈ values, maxDepth < value.depth) → decodeBatch bytes = .error .nestingTooDeep)) ∧
    (∀ value ∈ values, ∀ size after, encode value out = .ok size after →
      ∃ bytes : Bytes, after = out ++ bytes ∧ size = bytes.length ∧ ∀ rest,
        (value.depth ≤ maxDepth → decode (bytes ++ rest) = .ok (value, size)) ∧
        (maxDepth < value.depth → decode (bytes ++ rest) = .error .nestingTooDeep)) := by
  refine ⟨fun size after written => ?_, fun value member size after written => ?_⟩
  · obtain ⟨bytes, listed, rfl, rfl⟩ := encodeBatch_appended out values size after written
    exact ⟨bytes, rfl, rfl, decodeBatch_restores listed proper⟩
  · obtain ⟨bytes, form, rfl, rfl⟩ := encode_appended out value size after written
    exact ⟨bytes, rfl, rfl, fun rest => decode_restores form (proper value member) rest⟩

/-- A date that is no number, and an instance of a class beside it. -/
def sample : Value :=
  .object [("list", .strictArray [.date ⟨0x7ff8000000000001⟩, .typedObject "P" [("x", .null)]]), ("ok", .boolean true)]

def sampleBytes : Bytes :=
  [0x03, 0, 4, 0x6c, 0x69, 0x73, 0x74, 0x0a, 0, 0, 0, 2, 0x0b, 0x7f, 0xf8, 0, 0, 0, 0, 0, 1, 0, 0,
    0x10, 0, 1, 0x50, 0, 1, 0x78, 0x05, 0, 0, 9, 0, 2, 0x6f, 0x6b, 0x01, 0x01, 0, 0, 9]

/-- So many arrays around null. -/
def arrays : Nat → Value
  | 0 => .null
  | count + 1 => .strictArray [arrays count]

theorem arrays_proper (count : Nat) : (arrays count).Everywhere Value.Proper := by
  induction count with
  | zero => trivial
  | succ count ih => exact ⟨ih, trivial⟩

theorem arrays_depth (count : Nat) : (arrays count).depth = count + 1 := by
  induction count with
  | zero => rfl
  | succ count ih => rw [arrays, Value.depth, Value.itemsDepth, Value.itemsDepth, ih, Nat.max_zero]

def arraysBytes (count : Nat) : Bytes :=
  (List.replicate count [0x0a, 0, 0, 0, 1]).flatten ++ [0x05]

theorem behind_nothing {bytes whole : Bytes} (same : whole.toArray = (#[] : Array UInt8) ++ bytes) : bytes = whole := by
  have listed : (#[] ++ bytes : Array UInt8).toList = whole := congrArg Array.toList same.symm
  rwa [Array.toList_appendList, List.nil_append] at listed

set_option maxRecDepth 4096 in
/-- The sample comes back, alone and in front of anything. In one list with too many arrays it does not. -/
theorem sample_is_read :
    encodeBatch [sample] #[] = .ok 43 sampleBytes.toArray ∧ decodeBatch sampleBytes = .ok [sample] ∧
    (∀ rest, decode (sampleBytes ++ rest) = .ok (sample, 43)) ∧
    encodeBatch [sample, arrays maxDepth] #[] = .ok 364 (sampleBytes ++ arraysBytes maxDepth).toArray ∧
    decodeBatch (sampleBytes ++ arraysBytes maxDepth) = .error .nestingTooDeep := by
  have scalar : Value.Proper [("x", .null)] := ⟨List.pairwise_singleton _ _, by decide⟩
  have both : Value.Proper [("list", .strictArray [.date ⟨0x7ff8000000000001⟩, .typedObject "P" [("x", .null)]]),
      ("ok", .boolean true)] := ⟨List.pairwise_pair.mpr (by decide), by decide⟩
  have proper : sample.Everywhere Value.Proper :=
    ⟨both, ⟨trivial, ⟨scalar, trivial, trivial⟩, trivial⟩, trivial, trivial⟩
  have shallow : sample.depth ≤ maxDepth := by decide
  have deep : maxDepth < (arrays maxDepth).depth := arrays_depth maxDepth ▸ Nat.lt_succ_self maxDepth
  have written : encodeBatch [sample] #[] = .ok 43 sampleBytes.toArray := rfl
  have alone : encode sample #[] = .ok 43 sampleBytes.toArray := rfl
  have further : encodeBatch [sample, arrays maxDepth] #[] =
      .ok 364 (sampleBytes ++ arraysBytes maxDepth).toArray := rfl
  have pair : ∀ value ∈ [sample, arrays maxDepth], value.Everywhere Value.Proper :=
    List.forall_mem_cons.mpr ⟨proper, List.forall_mem_singleton.mpr (arrays_proper maxDepth)⟩
  have first := written_values_are_read (List.forall_mem_singleton.mpr proper) #[]
  have second := written_values_are_read pair #[]
  obtain ⟨bytes, same, -, read, -⟩ := first.1 43 _ written
  obtain ⟨front, also, -, reads⟩ := first.2 sample (List.mem_singleton_self sample) 43 _ alone
  obtain ⟨long, all, -, -, refused⟩ := second.1 364 _ further
  cases behind_nothing same
  cases behind_nothing also
  cases behind_nothing all
  refine ⟨written, read (List.forall_mem_singleton.mpr shallow), fun rest => (reads rest).1 shallow, further, ?_⟩
  exact refused ⟨_, List.mem_of_mem_tail (List.mem_singleton_self _), deep⟩

end Amf0

end Amf
end RtmpRelay
