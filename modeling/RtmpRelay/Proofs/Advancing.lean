import RtmpRelay.Amf.Amf0
import RtmpRelay.Proofs.Readings

/-! What the steps of the readers take from the input. A step of the newer encoding that reads no object leaves the table of
objects as it is. -/

namespace RtmpRelay.Amf

namespace Amf3

/-- Something was read that is no object. -/
structure Advances (before after : State) : Prop where
  suffix : after.unread <:+ before.unread
  objects : after.objects = before.objects

theorem Advances.refl (state : State) : Advances state state :=
  ⟨List.suffix_refl _, rfl⟩

theorem Advances.trans {first second third : State} (before : Advances first second) (after : Advances second third) :
    Advances first third :=
  ⟨after.suffix.trans before.suffix, after.objects.trans before.objects⟩

theorem raw_ensures {α : Type} {reader : Amf.Reader α} {state : State} {post : α → State → Prop}
    (holds : Ensures reader state.unread fun value rest => post value { state with unread := rest }) :
    Ensures (raw reader) state post := by
  intro value after read
  simp only [raw] at read
  split at read
  next found rest there =>
    cases read
    exact holds _ rest there
  next => cases read

theorem raw_advances {α : Type} {reader : Amf.Reader α} {state : State}
    (suffix : Ensures reader state.unread fun _ rest => rest <:+ state.unread) :
    Ensures (raw reader) state fun _ rest => Advances state rest :=
  raw_ensures (suffix.imp fun _ _ suffix => ⟨suffix, rfl⟩)

theorem groups_shorter (more high : Nat) (unread : Bytes) :
    Ensures (groups Reader.byte more high) unread fun _ rest => rest <:+ unread ∧ rest.length < unread.length := by
  induction more generalizing high unread with
  | zero =>
    refine .bind ((Reader.byte_cons unread).imp fun first rest same => .pure ?_)
    rw [same]
    exact ⟨List.suffix_cons first rest, Nat.lt_succ_self _⟩
  | succ more ih =>
    refine .bind ((Reader.byte_cons unread).imp fun first rest same => ?_)
    rw [same]
    dsimp only
    split
    · exact .pure ⟨List.suffix_cons first rest, Nat.lt_succ_self _⟩
    · exact (ih _ rest).imp fun _ _ ⟨suffix, shorter⟩ =>
        ⟨suffix.trans (List.suffix_cons first rest), Nat.lt_succ_of_lt shorter⟩

theorem u29_shorter (unread : Bytes) :
    Ensures (u29 Reader.byte) unread fun _ rest => rest <:+ unread ∧ rest.length < unread.length :=
  groups_shorter 3 0 unread

theorem entry_mem {α : Type} (table : State → Array α) (index : Nat) (state : State) :
    Ensures (entry table index) state fun held rest => rest = state ∧ held ∈ table state := by
  refine .bind (.get ?_)
  split
  next held there => exact .pure ⟨rfl, Array.mem_of_getElem? there⟩
  next => exact .throw

theorem entry_advances {α : Type} (table : State → Array α) (index : Nat) (state : State) :
    Ensures (entry table index) state fun _ rest => Advances state rest :=
  (entry_mem table index state).imp fun _ _ ⟨same, _⟩ => same ▸ .refl state

theorem advances_withString (text : String) (state : State) : Advances state (state.withString text) := by
  unfold State.withString
  split <;> exact ⟨List.suffix_refl _, rfl⟩

theorem reserve_ensures (state : State) :
    Ensures reserve state fun _ rest => rest = state.withObject .null :=
  .bind (.modify (.bind (.get (.pure rfl))))

section Parts
variable (refer : (index : Nat) → Reader Value)

theorem u29_advances (state : State) : Ensures (partsVia refer).u29 state fun _ rest => Advances state rest :=
  raw_advances ((u29_shorter state.unread).imp fun _ _ shorter => shorter.1)

theorem double_advances (state : State) : Ensures (partsVia refer).double state fun _ rest => Advances state rest :=
  raw_advances (Reader.double_suffix state.unread)

theorem text_advances (size : Nat) (state : State) :
    Ensures ((partsVia refer).text size) state fun _ rest => Advances state rest :=
  raw_advances (Reader.text_suffix size state.unread)

theorem string_advances (state : State) : Ensures (partsVia refer).string state fun _ rest => Advances state rest := by
  refine .bind ((u29_advances refer state).imp fun header middle began => ?_)
  split
  · exact (entry_advances _ _ middle).imp fun _ _ further => began.trans further
  refine .bind ((text_advances refer _ middle).imp fun text last further => ?_)
  exact .bind (.modify (.pure ((began.trans further).trans (advances_withString text last))))

theorem name_advances (state : State) : Ensures (partsVia refer).name state fun _ rest => Advances state rest :=
  .bind ((string_advances refer state).imp fun _ _ advances => .pure advances)

theorem readTraits_advances (header : Nat) (state : State) :
    Ensures ((partsVia refer).readTraits header) state fun _ rest => Advances state rest := by
  unfold Parts.readTraits
  split
  · exact entry_advances _ _ state
  split
  · exact .throw
  refine .bind ((string_advances refer state).imp fun className middle began => ?_)
  have members : Ensures (repeated (partsVia refer).string (header / 8)) middle fun _ rest => Advances state rest :=
    .repeated (fun _ inner further => (string_advances refer inner).imp fun _ _ last => further.trans last) _ began
  refine .bind (members.imp fun names last further => ?_)
  exact .bind (.modify (.pure (further.trans ⟨List.suffix_refl _, rfl⟩)))

end Parts

theorem indexed_values (items : List Value) : (indexed items).map Prod.snd = items := by
  simp [indexed, Function.comp_def]

end Amf3

namespace Amf0

theorem name_suffix (unread : Bytes) : Ensures parts.name unread fun _ rest => rest <:+ unread := by
  refine .bind ((Reader.sizedText_suffix 2 unread).imp fun text middle began => ?_)
  split
  · refine .bind ((Reader.byte_cons middle).imp fun marker rest front => ?_)
    split
    · exact .pure ((front ▸ List.suffix_cons marker rest).trans began)
    · exact .throw
  · exact .pure began

theorem decodeVia_next {escape : (room : Nat) → Reader Value} {bytes : Bytes} {value : Value} {size : Nat}
    (read : decodeVia escape bytes = .ok (value, size)) :
    ∃ rest, nextVia escape bytes = .ok value rest ∧ size = bytes.length - rest.length := by
  rw [decodeVia] at read
  split at read
  next found rest there =>
    cases read
    exact ⟨rest, there, rfl⟩
  next => cases read

end Amf0
end RtmpRelay.Amf
