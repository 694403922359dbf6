import RtmpRelay.Command
import RtmpRelay.Proofs.Chunks
import RtmpRelay.Proofs.Writing

/-! What the server answers to a command, as values. Every answer can be encoded whatever the client has sent: its texts
are the server's own, and a number of the client's takes eight bytes whichever it is. What is encoded is short enough
for a message and is read back as it was meant. -/

namespace RtmpRelay

namespace Amf.Amf0

def Within (form : Bytes → Prop) (size : Nat) : Prop :=
  ∃ bytes, form bytes ∧ bytes.length ≤ size

/-- A text of this length is short, and even with its marker it is not much longer. -/
def IsBrief (text : String) : Prop :=
  (Text.Utf8.encode text).length ≤ 250

instance (text : String) : Decidable (IsBrief text) :=
  inferInstanceAs (Decidable (_ ≤ _))

theorem IsBrief.isShort {text : String} (brief : IsBrief text) : IsShort text :=
  Nat.le_trans brief (by decide)

section Limits
variable {value : Value} {first rest : Nat}

theorem number_within (number : Double) : Within (Form (.number number)) 9 :=
  ⟨_, .number number, Nat.le_of_eq (congrArg (· + 1) number.length_toBytes)⟩

theorem null_within : Within (Form .null) 1 :=
  ⟨_, .null, Nat.le_refl _⟩

theorem textForm_length {text : String} (brief : IsBrief text) : (textForm 2 text).length ≤ 252 := by
  have short : (Text.Utf8.encode text).length ≤ 250 := brief
  rw [textForm, List.length_append, Bytes.length_be]
  omega

theorem text_within {text : String} (brief : IsBrief text) : Within (Form (.string text)) 253 :=
  ⟨_, .shortText brief.isShort, Nat.succ_le_succ (textForm_length brief)⟩

theorem object_within {properties : List (String × Value)} (listed : Within (PropertiesForm properties) rest) :
    Within (Form (.object properties)) (rest + 1) := by
  obtain ⟨body, form, short⟩ := listed
  exact ⟨_, .object form, Nat.succ_le_succ short⟩

theorem noItems_within : Within (ItemsForm []) 0 :=
  ⟨_, .nil, Nat.le_refl _⟩

theorem items_within {items : List Value} (item : Within (Form value) first) (others : Within (ItemsForm items) rest) :
    Within (ItemsForm (value :: items)) (first + rest) := by
  obtain ⟨front, form, short⟩ := item
  obtain ⟨behind, forms, few⟩ := others
  refine ⟨_, .cons form forms, ?_⟩
  rw [List.length_append]
  exact Nat.add_le_add short few

theorem noProperties_within : Within (PropertiesForm []) 3 :=
  ⟨_, .nil, Nat.le_refl _⟩

theorem properties_within {name : String} {properties : List (String × Value)} (brief : IsBrief name)
    (property : Within (Form value) first) (others : Within (PropertiesForm properties) rest) :
    Within (PropertiesForm ((name, value) :: properties)) (252 + (first + rest)) := by
  obtain ⟨front, form, short⟩ := property
  obtain ⟨behind, forms, few⟩ := others
  refine ⟨_, .cons brief.isShort form forms, ?_⟩
  rw [List.length_append, List.length_append]
  exact Nat.add_le_add (textForm_length brief) (Nat.add_le_add short few)

end Limits

theorem proper_of_keys {keys : List String} {properties : List (String × Value)}
    (ascending : keys.Pairwise (compare · · = .lt)) (nonempty : "" ∉ keys) (named : properties.map Prod.fst = keys) :
    Value.Proper properties := by
  subst named
  refine ⟨List.pairwise_map.mp ascending, fun property member empty => nonempty ?_⟩
  exact empty ▸ List.mem_map_of_mem member

end Amf.Amf0

namespace Reply
open Amf Amf0

/-- The payload of a message in which these values are read. -/
structure Carries (payload : Bytes) (values : List Value) : Prop where
  short : payload.length ≤ maxMessageLength
  decoded : Amf0.decodeBatch payload = .ok values

theorem carries_of_form {values : List Value} {size : Nat} (listed : Within (ItemsForm values) size)
    (short : size ≤ maxMessageLength) (proper : ∀ value ∈ values, value.Everywhere Value.Proper)
    (shallow : ∀ value ∈ values, value.depth ≤ maxDepth) :
    ∃ payload, Reply.encode values = .ok payload ∧ Carries payload values := by
  obtain ⟨body, forms, fits⟩ := listed
  refine ⟨body, ?_, Nat.le_trans fits short, (decodeBatch_restores forms proper).1 shallow⟩
  rw [Reply.encode, toBytes_of_form forms]
  rfl

def status (code description : String) : Value :=
  .object [("code", .string code), ("description", .string description), ("level", .string "status")]

/-- It is said unasked, so that it has no transaction number of its own. -/
def notice (code description : String) : List Value :=
  [.string "onStatus", .number (Double.ofNat 0), .null, status code description]

theorem status_within {code description : String} (briefCode : IsBrief code) (briefDescription : IsBrief description) :
    Within (Form (status code description)) 1519 :=
  object_within (properties_within (by decide) (text_within briefCode)
    (properties_within (by decide) (text_within briefDescription)
      (properties_within (by decide) (text_within (by decide)) noProperties_within)))

theorem status_proper (code description : String) : (status code description).Everywhere Value.Proper := by
  have ascending : ["code", "description", "level"].Pairwise (compare · · = .lt) := by decide
  exact ⟨proper_of_keys ascending (by decide) rfl, trivial, trivial, trivial, trivial⟩

theorem onStatus_carries {code description : String} (briefCode : IsBrief code)
    (briefDescription : IsBrief description) :
    ∃ payload, onStatus code description = .ok payload ∧ Carries payload (notice code description) := by
  have values : Within (ItemsForm (notice code description)) 1782 :=
    items_within (text_within (by decide)) (items_within (number_within _) (items_within null_within
      (items_within (status_within briefCode briefDescription) noItems_within)))
  refine carries_of_form values (by decide) (Value.itemsEverywhere_iff.mp ?_) (Value.itemsDepth_le_iff.mp ?_)
  · exact ⟨trivial, trivial, trivial, status_proper code description, trivial⟩
  · exact (by decide : 2 ≤ maxDepth)

theorem publishStart_carries : ∃ payload, publishStart = .ok payload ∧
    Carries payload (notice "NetStream.Publish.Start" "Start publishing.") :=
  onStatus_carries (by decide) (by decide)

theorem playReset_carries : ∃ payload, playReset = .ok payload ∧
    Carries payload (notice "NetStream.Play.Reset" "Playing and resetting stream.") :=
  onStatus_carries (by decide) (by decide)

theorem playStart_carries : ∃ payload, playStart = .ok payload ∧
    Carries payload (notice "NetStream.Play.Start" "Started playing stream.") :=
  onStatus_carries (by decide) (by decide)

theorem createStreamResult_carries (transaction : Double) (streamId : UInt32) :
    ∃ payload, createStreamResult transaction streamId = .ok payload ∧
      Carries payload [.string "_result", .number transaction, .null, .number (Double.ofNat streamId.toNat)] := by
  have values : Within (ItemsForm [.string "_result", .number transaction, .null,
      .number (Double.ofNat streamId.toNat)]) 272 :=
    items_within (text_within (by decide)) (items_within (number_within _) (items_within null_within
      (items_within (number_within _) noItems_within)))
  refine carries_of_form values (by decide) (Value.itemsEverywhere_iff.mp ?_) (Value.itemsDepth_le_iff.mp ?_)
  · exact ⟨trivial, trivial, trivial, trivial, trivial⟩
  · exact (by decide : 1 ≤ maxDepth)

def serverProperties : Value :=
  .object [("capabilities", .number (Double.ofNat 31)), ("fmsVer", .string "FMS/3,0,1,123")]

def connected (objectEncoding : Double) : Value :=
  .object [("code", .string "NetConnection.Connect.Success"), ("description", .string "Connection succeeded."),
    ("level", .string "status"), ("objectEncoding", .number objectEncoding)]

theorem serverProperties_within : Within (Form serverProperties) 770 :=
  object_within (properties_within (by decide) (number_within _)
    (properties_within (by decide) (text_within (by decide)) noProperties_within))

theorem serverProperties_proper : serverProperties.Everywhere Value.Proper := by
  have ascending : ["capabilities", "fmsVer"].Pairwise (compare · · = .lt) := by decide
  exact ⟨proper_of_keys ascending (by decide) rfl, trivial, trivial, trivial⟩

theorem connected_within (objectEncoding : Double) : Within (Form (connected objectEncoding)) 1780 :=
  object_within (properties_within (by decide) (text_within (by decide))
    (properties_within (by decide) (text_within (by decide))
      (properties_within (by decide) (text_within (by decide))
        (properties_within (by decide) (number_within _) noProperties_within))))

theorem connected_proper (objectEncoding : Double) : (connected objectEncoding).Everywhere Value.Proper := by
  have ascending : ["code", "description", "level", "objectEncoding"].Pairwise (compare · · = .lt) := by decide
  exact ⟨proper_of_keys ascending (by decide) rfl, trivial, trivial, trivial, trivial, trivial⟩

theorem connectResult_carries (transaction objectEncoding : Double) :
    ∃ payload, connectResult transaction objectEncoding = .ok payload ∧
      Carries payload [.string "_result", .number transaction, serverProperties, connected objectEncoding] := by
  have values : Within (ItemsForm [.string "_result", .number transaction, serverProperties,
      connected objectEncoding]) 2812 :=
    items_within (text_within (by decide)) (items_within (number_within _)
      (items_within serverProperties_within (items_within (connected_within objectEncoding) noItems_within)))
  refine carries_of_form values (by decide) (Value.itemsEverywhere_iff.mp ?_) (Value.itemsDepth_le_iff.mp ?_)
  · exact ⟨trivial, trivial, serverProperties_proper, connected_proper objectEncoding, trivial⟩
  · exact (by decide : 2 ≤ maxDepth)

end Reply

namespace Message

theorem word_fits (type : MessageType) (value : UInt32) : (control type (word value)).Fits :=
  control_fits type (by simp [word, maxMessageLength])

theorem setPeerBandwidth_fits (size : UInt32) (limitType : UInt8) : (setPeerBandwidth size limitType).Fits :=
  control_fits .setPeerBandwidth (by simp [word, maxMessageLength])

theorem userControl_fits (event : UInt16) (value : UInt32) : (userControl event (word value)).Fits :=
  control_fits .userControl (by simp [word, maxMessageLength])

theorem command_fits {chunkStream : UInt32} (encodable : Chunk.BasicHeader.Encodable chunkStream) (streamId : UInt32)
    {payload : Bytes} {values : List Amf.Value} (carries : Reply.Carries payload values) :
    (command chunkStream streamId payload).Fits :=
  ⟨encodable, carries.short⟩

end Message
end RtmpRelay
