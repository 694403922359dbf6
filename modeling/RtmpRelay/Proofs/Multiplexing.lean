import RtmpRelay.Proofs.Agreement

/-! Messages on different chunk streams may be interleaved chunk by chunk, and the chunk size may change between
any two chunks. The receiver keeps a context for every chunk stream, and the invariant is that the context of a
transfer that has begun is as far as the transfer: a chunk of one leaves the contexts of all others alone. -/

namespace RtmpRelay

def Transfer.new (message : Message) : Transfer :=
  ⟨message, none⟩

def Transfer.completed (transfer : Transfer) : List Message :=
  if transfer.isDone then [transfer.message] else []

/-- A way to put the remaining chunks of some transfers on the wire, starting at a chunk size. Each chunk is cut at
the size that is in force where it stands, and whole messages that change the size may stand anywhere in between.
The last index lists the messages in the order in which their last chunks appear. -/
inductive Interleaving : UInt32 → List Transfer → Bytes → List Message → Prop where
  | done {size transfers} (all : ∀ transfer ∈ transfers, transfer.isDone = true) : Interleaving size transfers [] []
  | chunk {size front transfer back bytes wire returned} (pending : transfer.isDone = false)
      (cut : transfer.chunk size = .ok bytes)
      (later : Interleaving size (front ++ transfer.advance size :: back) wire returned) :
      Interleaving size (front ++ transfer :: back) (bytes ++ wire) ((transfer.advance size).completed ++ returned)
  | resize {size next transfers message bytes wire returned} (sets : message.SetsChunkSize next)
      (written : message.toBytes size = .ok bytes) (later : Interleaving next transfers wire returned) :
      Interleaving size transfers (bytes ++ wire) (message :: returned)

/-- The chunk streams of the transfers: different ones, and none of them that of the control messages. -/
structure Apart (transfers : List Transfer) : Prop where
  distinct : (transfers.map (·.message.chunkStream)).Nodup
  uncontrolled : ∀ transfer ∈ transfers, transfer.message.chunkStream ≠ 2

/-- The contexts of the receiver match the transfers. -/
structure Carries (size : UInt32) (connection : Connection) (transfers : List Transfer) : Prop where
  inStep : Endpoint.InStep size connection
  apart : Apart transfers
  fits : ∀ transfer ∈ transfers, transfer.Fits
  held : ∀ transfer ∈ transfers, transfer.isDone = false → transfer.Held connection

namespace Apart
variable {front back : List Transfer} {transfer : Transfer}

theorem advance (apart : Apart (front ++ transfer :: back)) (size : UInt32) :
    Apart (front ++ transfer.advance size :: back) := by
  refine ⟨?_, ?_⟩
  · have distinct := apart.distinct
    rw [List.map_append, List.map_cons] at distinct ⊢
    exact distinct
  · intro other member
    rcases List.mem_append.mp member with before | after
    · exact apart.uncontrolled other (List.mem_append_left _ before)
    · rcases List.mem_cons.mp after with rfl | behind
      · exact apart.uncontrolled transfer (List.mem_append_right _ List.mem_cons_self)
      · exact apart.uncontrolled other (List.mem_append_right _ (List.mem_cons_of_mem _ behind))

theorem others (apart : Apart (front ++ transfer :: back)) {other : Transfer} (member : other ∈ front ++ back) :
    other.message.chunkStream ≠ transfer.message.chunkStream := by
  have distinct := apart.distinct
  rw [(List.perm_middle.map _).nodup_iff, List.map_cons, List.nodup_cons] at distinct
  intro same
  exact distinct.1 (same ▸ List.mem_map_of_mem member)

end Apart

namespace Carries
variable {size : UInt32} {before after : Connection} {front back transfers : List Transfer} {transfer : Transfer}

theorem chunk (carries : Carries size before (front ++ transfer :: back))
    (moved : Connection.MovesOnly transfer.message.chunkStream before after)
    (kept : (transfer.advance size).isDone = false → (transfer.advance size).Held after) :
    Carries size after (front ++ transfer.advance size :: back) := by
  have moving : transfer ∈ front ++ transfer :: back := List.mem_append_right _ List.mem_cons_self
  have split : ∀ other ∈ front ++ transfer.advance size :: back,
      other = transfer.advance size ∨ other ∈ front ++ back ∧ other ∈ front ++ transfer :: back := by
    intro other member
    simp only [List.mem_append, List.mem_cons] at member ⊢
    tauto
  refine ⟨carries.inStep.moved moved, carries.apart.advance size, ?_, ?_⟩
  · intro other member
    rcases split other member with rfl | ⟨_, earlier⟩
    · exact (carries.fits transfer moving).advance size
    · exact carries.fits other earlier
  · intro other member pending count cut
    rcases split other member with rfl | ⟨elsewhere, earlier⟩
    · exact kept pending count cut
    · rw [moved.others _ (carries.apart.others elsewhere)]
      exact carries.held other earlier pending count cut

theorem resize {next : UInt32} {message : Message} (carries : Carries size before transfers)
    (sets : message.SetsChunkSize next) (moved : Connection.MovesOnly message.chunkStream before after) :
    Carries next { after with remoteChunkSize := next } transfers := by
  have positive : 0 < next.toNat := sets.positive
  refine ⟨⟨rfl, positive, moved.named carries.inStep.named⟩, carries.apart, carries.fits, ?_⟩
  intro transfer member pending count cut
  have elsewhere : transfer.message.chunkStream ≠ message.chunkStream := by
    rw [sets.chunkStream]
    exact carries.apart.uncontrolled transfer member
  exact (moved.others _ elsewhere).trans (carries.held transfer member pending count cut)

end Carries

namespace Interleaving
variable {size : UInt32} {transfers : List Transfer} {wire : Bytes} {returned : List Message}

theorem returned_ne_nil (interleaving : Interleaving size transfers wire returned) {transfer : Transfer}
    (member : transfer ∈ transfers) (pending : transfer.isDone = false) : returned ≠ [] := by
  induction interleaving generalizing transfer with
  | done all => exact absurd (all transfer member) (by simp [pending])
  | @chunk size front first back _ _ returned _ _ later ih =>
    cases done : (first.advance size).isDone with
    | true => simp [Transfer.completed, done]
    | false =>
      have more : returned ≠ [] := ih (List.mem_append_right _ List.mem_cons_self) done
      exact List.append_ne_nil_of_right_ne_nil _ more
  | resize => exact List.cons_ne_nil _ _

/-- Every transfer that is not done is returned once, and nothing else but messages that set the chunk size. -/
theorem returned_perm (interleaving : Interleaving size transfers wire returned) (apart : Apart transfers) :
    (returned.filter (·.chunkStream ≠ 2)).Perm
      ((transfers.filter (!·.isDone)).map (·.message)) := by
  induction interleaving with
  | @done _ transfers all =>
    have none : ∀ transfer ∈ transfers, ¬ (!transfer.isDone) = true := by
      intro transfer member
      simp [all transfer member]
    rw [List.filter_eq_nil_iff.mpr none]
    exact .refl _
  | @chunk size front transfer back _ _ returned pending _ later ih =>
    have rest := ih (apart.advance size)
    have uncontrolled : transfer.message.chunkStream ≠ 2 :=
      apart.uncontrolled transfer (List.mem_append_right _ List.mem_cons_self)
    have first : (front ++ transfer :: back).filter (!·.isDone) =
        front.filter (!·.isDone) ++ transfer :: back.filter (!·.isDone) := by
      simp [pending]
    cases done : (transfer.advance size).isDone with
    | false =>
      have still : (front ++ transfer.advance size :: back).filter (!·.isDone) =
          front.filter (!·.isDone) ++ transfer.advance size :: back.filter (!·.isDone) := by
        simp [done]
      rw [still, List.map_append, List.map_cons] at rest
      rw [Transfer.completed, if_neg (by simp [done]), List.nil_append, first, List.map_append, List.map_cons]
      exact rest
    | true =>
      have gone : (front ++ transfer.advance size :: back).filter (!·.isDone) =
          front.filter (!·.isDone) ++ back.filter (!·.isDone) := by
        simp [done]
      rw [gone, List.map_append] at rest
      rw [Transfer.completed, if_pos done, List.singleton_append,
        List.filter_cons_of_pos (by exact decide_eq_true uncontrolled), first, List.map_append, List.map_cons]
      exact (rest.cons _).trans List.perm_middle.symm
  | resize sets _ later ih =>
    rw [List.filter_cons_of_neg (by simp [sets.chunkStream])]
    exact ih apart

end Interleaving

namespace Endpoint

/-- A receiver that goes on after a refusal. -/
def ignore (_ : Stop) : Action Unit :=
  return

variable {endpoint after : Endpoint} {message : Message}

theorem acceptMany_of_none {refused : Stop → Action Unit} {count : Nat} (read : readChunk endpoint = .ok none after)
    (more : count ≠ 0) : acceptMany refused count endpoint = acceptMany refused count after := by
  have same : readMessage endpoint = readMessage after := readMessage_of_none read
  cases count with
  | zero => exact absurd rfl more
  | succ count => simp only [acceptMany, accept, bind, EStateM.bind, same]

theorem accept_uncontrolled (read : readMessage endpoint = .ok message after)
    (uncontrolled : message.chunkStream ≠ 2) : accept ignore endpoint = .ok message after := by
  by_cases type : message.typeId = 1
  · have refused : handle message after = .error _ after :=
      handle_error (after.connection.respond_misplaced type uncontrolled)
    have caught : tryCatch (handle message) ignore after = .ok () after := tryCatch_error refused
    rw [accept, bind_ok read, if_pos type, bind_ok caught]
    rfl
  · exact accept_other read type

/-- Along an interleaving the contexts follow the transfers, chunk by chunk. -/
theorem acceptMany_interleaving {size : UInt32} {transfers : List Transfer} {wire : Bytes} {returned : List Message}
    (interleaving : Interleaving size transfers wire returned) :
    ∀ (endpoint : Endpoint) (rest : Bytes), Carries size endpoint.connection transfers →
      endpoint.inbound = wire ++ rest →
      ∃ next, acceptMany ignore returned.length endpoint = .ok returned next ∧ next.inbound = rest := by
  induction interleaving with
  | done _ =>
    intro endpoint rest _ inbound
    exact ⟨endpoint, rfl, inbound⟩
  | @chunk size front transfer back bytes wire returned pending cut later ih =>
    intro endpoint rest carries inbound
    have moving : transfer ∈ front ++ transfer :: back := List.mem_append_right _ List.mem_cons_self
    rw [List.append_assoc] at inbound
    obtain ⟨after, read, left, moved, kept⟩ := readChunk_transfer carries.inStep (carries.fits transfer moving)
      pending (carries.held transfer moving pending) cut inbound
    obtain ⟨next, accepted, unread⟩ := ih after rest (carries.chunk moved kept) left
    cases done : (transfer.advance size).isDone with
    | true =>
      rw [if_pos done] at read
      have first := accept_uncontrolled (readMessage_of_some read) (carries.apart.uncontrolled transfer moving)
      refine ⟨next, ?_, unread⟩
      rw [Transfer.completed, if_pos done]
      exact acceptMany_cons first accepted
    | false =>
      rw [if_neg (by simp [done])] at read
      have more : returned ≠ [] := later.returned_ne_nil (List.mem_append_right _ List.mem_cons_self) done
      refine ⟨next, ?_, unread⟩
      rw [Transfer.completed, if_neg (by simp [done]), List.nil_append,
        acceptMany_of_none read (List.length_eq_zero_iff.not.mpr more)]
      exact accepted
  | @resize size following transfers message bytes wire returned sets written later ih =>
    intro endpoint rest carries inbound
    rw [List.append_assoc] at inbound
    obtain ⟨after, read, left, moved⟩ := readMessage_toBytes carries.inStep sets.fits written inbound
    obtain ⟨next, accepted, unread⟩ := ih { after with
      connection := { after.connection with remoteChunkSize := following } } rest (carries.resize sets moved) left
    exact ⟨next, acceptMany_cons (accept_setsChunkSize read sets) accepted, unread⟩

/-- However the chunks of some messages are interleaved, the receiver returns each message once, in the order in
which their last chunks arrive, and takes over the changes of the chunk size in between. -/
theorem interleaved_messages_are_received {family returned : List Message} {size : UInt32} {wire rest : Bytes}
    {endpoint : Endpoint} (fits : ∀ message ∈ family, message.Fits)
    (distinct : (family.map (·.chunkStream)).Nodup)
    (uncontrolled : ∀ message ∈ family, message.chunkStream ≠ 2)
    (interleaving : Interleaving size (family.map .new) wire returned)
    (inStep : InStep size endpoint.connection) (inbound : endpoint.inbound = wire ++ rest) :
    (∃ next, acceptMany ignore returned.length endpoint = .ok returned next ∧ next.inbound = rest ∧
      (rest = [] → readMessage next = .error next.starvation next)) ∧
    (returned.filter (·.chunkStream ≠ 2)).Perm family := by
  have apart : Apart (family.map .new) := by
    refine ⟨?_, List.forall_mem_map.mpr uncontrolled⟩
    rw [List.map_map]
    exact distinct
  have carries : Carries size endpoint.connection (family.map .new) := by
    refine ⟨inStep, apart, ?_, ?_⟩
    · exact List.forall_mem_map.mpr fun message member => ⟨(fits message member).length, Nat.zero_le _⟩
    · exact List.forall_mem_map.mpr fun message _ _ count started => by cases started
  obtain ⟨next, accepted, unread⟩ := acceptMany_interleaving interleaving endpoint rest carries inbound
  refine ⟨⟨next, accepted, unread, fun nothing => readMessage_nil (unread.trans nothing)⟩, ?_⟩
  have all : ((family.map Transfer.new).filter (!·.isDone)).map (·.message) = family := by
    rw [List.filter_eq_self.mpr (List.forall_mem_map.mpr fun _ _ => rfl), List.map_map]
    exact List.map_id family
  exact all ▸ interleaving.returned_perm apart

/-- Two messages of two and three bytes, the first chunk of each of one byte and the second of up to two, for a
receiver that has half of another message on one of their chunk streams. -/
theorem interleaved_pair_is_received :
    ∃ wire, Interleaving 1 ([⟨3, 0, 8, 1, [10, 11]⟩, ⟨4, 0xffffff, 9, 1, [20, 21, 22]⟩].map .new) wire
        [⟨2, 0, 1, 0, [0, 0, 0, 2]⟩, ⟨3, 0, 8, 1, [10, 11]⟩, ⟨4, 0xffffff, 9, 1, [20, 21, 22]⟩] ∧
      ∃ next, acceptMany ignore 3 { halfway with inbound := wire ++ [7] } =
        .ok [⟨2, 0, 1, 0, [0, 0, 0, 2]⟩, ⟨3, 0, 8, 1, [10, 11]⟩, ⟨4, 0xffffff, 9, 1, [20, 21, 22]⟩] next ∧ next.inbound = [7] := by
  let first : Message := ⟨3, 0, 8, 1, [10, 11]⟩
  let second : Message := ⟨4, 0xffffff, 9, 1, [20, 21, 22]⟩
  have interleaving : ∃ wire, Interleaving 1 [.new first, .new second] wire
      [⟨2, 0, 1, 0, [0, 0, 0, 2]⟩, first, second] :=
    ⟨_, @Interleaving.chunk 1 [] (.new first) [.new second] _ _ _ rfl rfl
      (@Interleaving.chunk 1 [⟨first, some 1⟩] (.new second) [] _ _ _ rfl rfl
      (.resize (show Message.SetsChunkSize ⟨2, 0, 1, 0, [0, 0, 0, 2]⟩ 2 from ⟨rfl, rfl, rfl, rfl, by decide⟩) rfl
      (@Interleaving.chunk 2 [] ⟨first, some 1⟩ [⟨second, some 1⟩] _ _ _ rfl rfl
      (@Interleaving.chunk 2 [⟨first, some 2⟩] ⟨second, some 1⟩ [] _ _ _ rfl rfl
      (.done (by decide))))))⟩
  obtain ⟨wire, interleaving⟩ := interleaving
  let receiver : Endpoint := { halfway with inbound := wire ++ [7] }
  have inStep : InStep 1 receiver.connection := .halfway
  have fits : ∀ message ∈ [first, second], message.Fits :=
    List.forall_mem_cons.mpr ⟨⟨⟨by decide, by decide⟩, by decide⟩,
      List.forall_mem_singleton.mpr ⟨⟨by decide, by decide⟩, by decide⟩⟩
  obtain ⟨⟨next, accepted, unread, _⟩, _⟩ := interleaved_messages_are_received fits (by decide) (by decide)
    interleaving inStep (show receiver.inbound = wire ++ [7] from rfl)
  exact ⟨wire, interleaving, next, accepted, unread⟩

end Endpoint
end RtmpRelay
