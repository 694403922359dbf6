import RtmpRelay.Proofs.Following

/-! The books of both decoders are kept however a call ends. A call that fails leaves its decoder so that the next one can
go on from there, and a value that one decoder hands over to the other moves it by no more than that one took. -/

namespace RtmpRelay.Amf.Decoding

namespace Newer
variable {α : Type} {depth limit least : Nat}

theorem placed {decoder after : Decoder References} (reaches : Reaches (plainly References) decoder after) :
    { seen withTables decoder with unread := seen (plainly References) after } = seen withTables after ∧
      Reaches withTables decoder after := by
  obtain ⟨input, depth, forward, inside, kept⟩ := reaches
  obtain ⟨_, _, _, _⟩ := after
  cases kept
  exact ⟨rfl, input, depth, forward, inside, List.prefix_refl _⟩

theorem raw_follows {decoding : Decoding References α} {reader : Amf.Reader α}
    (follows : Follows (plainly References) depth limit least decoding reader) :
    Follows withTables depth limit least decoding (Amf3.raw reader) := by
  intro decoder ready
  have agrees := follows decoder ready
  have same : (seen withTables decoder).unread = seen (plainly References) decoder := rfl
  rw [Amf3.raw, same]
  generalize decoding decoder = result at agrees
  generalize reader (seen (plainly References) decoder) = answer at agrees
  cases agrees with
  | ok reaches advances =>
    obtain ⟨same, further⟩ := placed reaches
    dsimp only
    rw [same]
    exact .ok further advances
  | refused reaches =>
    obtain ⟨same, further⟩ := placed reaches
    dsimp only
    rw [same]
    exact .refused further

theorem entry_eq (table : References → Array α) (index : Nat) (decoder : Decoder References) :
    entry table index decoder =
      match (table decoder.tables)[index]? with
      | some held => .ok held decoder
      | none => .error (.refused (.invalidReference index)) decoder := by
  change (match (table decoder.tables)[index]? with
    | some held => Pure.pure held
    | none => refuse (.invalidReference index) : Decoding References α) decoder = _
  cases (table decoder.tables)[index]? <;> rfl

theorem readEntry_eq (table : Amf3.State → Array α) (index : Nat) (state : Amf3.State) :
    Amf3.entry table index state =
      match (table state)[index]? with
      | some held => .ok held state
      | none => .error (.invalidReference index) state := by
  change (match (table state)[index]? with
    | some held => Pure.pure held
    | none => throw (.invalidReference index) : Amf3.Reader α) state = _
  cases (table state)[index]? <;> rfl

/-- What is found in the table of the reader is what the decoder makes of its own. -/
theorem entry_follows {table : References → Array α} {readTable : Amf3.State → Array β} {change : α → β}
    (same : ∀ bytes tables, readTable (withTables.state bytes tables) = (table tables).map change) (index : Nat) :
    Follows withTables depth limit 0 (do return change (← entry table index)) (Amf3.entry readTable index) := by
  intro decoder ready
  have decoded := entry_eq table index decoder
  rw [readEntry_eq, seen, same, Array.getElem?_map]
  cases found : (table decoder.tables)[index]? with
  | some held =>
    rw [found] at decoded
    rw [run_bind_ok decoded]
    exact .ok (.refl ready.inside) (Nat.le_refl _)
  | none =>
    rw [found] at decoded
    rw [run_bind_error decoded]
    exact .refused (.refl ready.inside)

theorem keep_follows {change : References → References} {changeState : Amf3.State → Amf3.State}
    (same : ∀ bytes tables, withTables.state bytes (change tables) = changeState (withTables.state bytes tables))
    (keeps : ∀ tables, withTables.Keeps tables (change tables)) :
    Follows withTables depth limit 0 (keep change) (modify changeState) := by
  intro decoder ready
  have kept : keep change decoder = .ok () { decoder with tables := change decoder.tables } := rfl
  have read : (modify changeState : Amf3.Reader Unit) (seen withTables decoder) =
      .ok () (seen withTables { decoder with tables := change decoder.tables }) :=
    congrArg (EStateM.Result.ok ()) (same _ _).symm
  rw [kept, read]
  exact .ok ⟨rfl, rfl, Nat.le_refl _, ready.inside, keeps _⟩ (Nat.le_refl _)

theorem sameEntry_follows {table : References → Array α} {readTable : Amf3.State → Array α}
    (same : ∀ bytes tables, readTable (withTables.state bytes tables) = table tables) (index : Nat) :
    Follows withTables depth limit 0 (entry table index) (Amf3.entry readTable index) := by
  have follows : Follows withTables depth limit 0 (do return id (← entry table index)) (Amf3.entry readTable index) :=
    entry_follows (fun bytes tables => (same bytes tables).trans (Array.map_id _).symm) index
  simpa only [id, bind_pure] using follows

theorem keepString_follows (text : String) :
    Follows withTables depth limit 0 (keep (.withString text)) (modify (Amf3.State.withString text)) := by
  refine keep_follows (fun bytes tables => ?_) fun tables => ?_ <;> simp only [References.withString]
  · simp only [Amf3.State.withString]
    split <;> rfl
  · split <;> exact List.prefix_refl _

theorem keepObject_follows (slot : Slot) :
    Follows withTables depth limit 0 (keep (.withObject slot)) (modify (Amf3.State.withObject slot.value)) := by
  refine keep_follows (fun bytes tables => ?_) fun tables => ?_
  · simp only [withTables, References.withObject, Amf3.State.withObject, Array.map_push]
  · exact ⟨[slot], (Array.toList_push).symm⟩

/-- The decoder with an index reserved from here. -/
def reserved (decoder : Decoder References) : Decoder References :=
  { decoder with
    tables := { decoder.tables with objects := decoder.tables.objects.push (.reserved decoder.position) } }

def filled (decoder : Decoder References) (slot : Nat) (value : Value) : Decoder References :=
  { decoder with tables := { decoder.tables with objects := decoder.tables.objects.setIfInBounds slot (.filled value) } }

theorem seen_reserved (decoder : Decoder References) :
    seen withTables (reserved decoder) = (seen withTables decoder).withObject .null :=
  congrArg (fun objects => ({ seen withTables decoder with objects } : Amf3.State)) Array.map_push

theorem seen_filled (decoder : Decoder References) (slot : Nat) (value : Value) :
    seen withTables (filled decoder slot value) =
      { seen withTables decoder with objects := (seen withTables decoder).objects.setIfInBounds slot value } :=
  congrArg (fun objects => ({ seen withTables decoder with objects } : Amf3.State)) Array.map_setIfInBounds

section Slots
variable {decoder after : Decoder References}

theorem reserved_reaches (inside : decoder.position ≤ decoder.input.length) :
    Reaches withTables decoder (reserved decoder) :=
  ⟨rfl, rfl, Nat.le_refl _, inside, [.reserved decoder.position], Array.toList_push.symm⟩

theorem still_reserved (reaches : Reaches withTables (reserved decoder) after) :
    ∃ behind, after.tables.objects.toList =
      decoder.tables.objects.toList ++ .reserved decoder.position :: behind := by
  obtain ⟨behind, same⟩ := reaches.keeps
  refine ⟨behind, same.symm.trans ?_⟩
  rw [reserved, Array.toList_push, List.append_assoc, List.singleton_append]

theorem fill_eq (reaches : Reaches withTables (reserved decoder) after) (value : Value) :
    fill decoder.position decoder.tables.objects.size value after =
      .ok () (filled after decoder.tables.objects.size value) := by
  obtain ⟨behind, same⟩ := still_reserved reaches
  have found : after.tables.objects[decoder.tables.objects.size]? = some (.reserved decoder.position) := by
    rw [← Array.getElem?_toList, same, ← Array.length_toList, List.getElem?_append_right (Nat.le_refl _), Nat.sub_self]
    rfl
  have got : (get : Decoding References _) after = .ok after after := rfl
  rw [fill, run_bind_ok got, found]
  dsimp only
  rw [if_pos rfl]
  rfl

theorem filled_reaches (reaches : Reaches withTables (reserved decoder) after) (value : Value) :
    Reaches withTables decoder (filled after decoder.tables.objects.size value) := by
  obtain ⟨behind, same⟩ := still_reserved reaches
  refine ⟨reaches.input, reaches.depth, reaches.forward, reaches.inside, .filled value :: behind, ?_⟩
  rw [filled, Array.toList_setIfInBounds, same, ← Array.length_toList, List.set_append_right _ _ (Nat.le_refl _),
    Nat.sub_self, List.set_cons_zero]

end Slots

theorem container_follows {inside : Decoding References Value} {readInside : Amf3.Reader Value}
    (follows : Follows withTables depth limit 0 inside readInside) :
    Follows withTables depth limit 0 (container inside) (Amf3.container readInside) := by
  intro decoder ready
  have slot : (reserved decoder).tables.objects.size - 1 = decoder.tables.objects.size := by
    rw [reserved, Array.size_push, Nat.add_sub_cancel]
  have began : container inside decoder =
      (do
        let value ← inside
        fill decoder.position ((reserved decoder).tables.objects.size - 1) value
        return value : Decoding References Value) (reserved decoder) := rfl
  have read : Amf3.reserve (seen withTables decoder) =
      .ok decoder.tables.objects.size (seen withTables (reserved decoder)) := by
    rw [seen_reserved]
    change EStateM.Result.ok (((decoder.tables.objects.map Slot.value).push .null).size - 1) _ = _
    rw [Array.size_push, Nat.add_sub_cancel, Array.size_map]
  have agrees := follows (reserved decoder) ⟨ready.inside, ready.left, ready.depth⟩
  rw [began, slot, Amf3.container, run_bind_ok read]
  cases ended : inside (reserved decoder) with
  | ok value after =>
    rw [ended] at agrees
    generalize further : readInside (seen withTables (reserved decoder)) = answer at agrees
    cases agrees with
    | ok reaches advances =>
      have put : Amf3.fill decoder.tables.objects.size value (seen withTables after) =
          .ok () (seen withTables (filled after decoder.tables.objects.size value)) := by
        rw [seen_filled]
        rfl
      rw [run_bind_ok ended, run_bind_ok (fill_eq reaches value), run_bind_ok further, run_bind_ok put]
      exact .ok (filled_reaches reaches value) advances
  | error halt after =>
    rw [ended] at agrees
    generalize further : readInside (seen withTables (reserved decoder)) = answer at agrees
    cases agrees with
    | refused reaches =>
      rw [run_bind_error ended, run_bind_error further]
      exact .refused ((reserved_reaches ready.inside).trans reaches)

theorem parts_follow {fuel : Nat} (enough : limit < fuel) : Amf3.Parts.Alike (following withTables depth limit)
    (parts fuel) Amf3.parts where
  refuse error := ⟨.refuse error, .throw error⟩
  repeated items count := ⟨(repeated_follows items.1 enough count).counted, items.2.repeatedFrom count #[]⟩
  entries names values :=
    have naming := Amf3.name_naming _ names.2
    ⟨entries_follows (fun _ => rfl) naming values.2 names.1 values.1 enough, .entries naming values.2⟩
  u29 := ⟨raw_follows (groups_follows 3 0), Amf3.parts_exact.u29⟩
  double := ⟨(raw_follows double_follows).unmeasured, Amf3.parts_exact.double⟩
  text size := ⟨(raw_follows (text_follows size)).unmeasured, Amf3.parts_exact.text size⟩
  stringAt index := ⟨sameEntry_follows (fun _ _ => rfl) index, Amf3.parts_exact.stringAt index⟩
  keepString text := ⟨keepString_follows text, Amf3.parts_exact.keepString text⟩
  traitsAt index := ⟨sameEntry_follows (fun _ _ => rfl) index, Amf3.parts_exact.traitsAt index⟩
  keepTraits traits :=
    ⟨keep_follows (fun _ _ => rfl) fun _ => List.prefix_refl _, Amf3.parts_exact.keepTraits traits⟩
  objectAt index := ⟨entry_follows (fun _ _ => rfl) index, Amf3.parts_exact.objectAt index⟩
  keepObject value := ⟨keepObject_follows (.filled value), Amf3.parts_exact.keepObject value⟩
  container inside := ⟨container_follows inside.1, Amf3.container_exact inside.2⟩

/-- With fuel for every byte and every level, a call comes to an end that the reader comes to as well. -/
theorem decode_follows {fuel : Nat} (enough : limit + (maxDepth - depth) < fuel) :
    Follows withTables depth limit 1 (decode fuel) (Amf3.value (maxDepth - depth)) := by
  induction fuel generalizing depth with
  | zero => exact absurd enough (Nat.not_lt_zero _)
  | succ fuel ih =>
    rw [decode]
    by_cases deep : maxDepth ≤ depth
    · rw [Nat.sub_eq_zero_of_le deep]
      exact nested_refused deep
    obtain ⟨room, same⟩ : ∃ room, maxDepth - depth = room + 1 := Nat.exists_eq_add_one.mpr (by omega)
    have further : maxDepth - (depth + 1) = room := by omega
    have values : (following withTables (depth + 1) limit).Takes (decode fuel) (Amf3.value room) :=
      ⟨further ▸ ih (by omega), Amf3.value_exact room⟩
    have inner : limit < fuel := by omega
    rw [same, Amf3.value_succ]
    refine nested_follows (by omega) ((raw_follows byte_follows).andThen fun marker => ?_)
    exact ((parts_follow inner).marked values marker).1

end Newer

namespace Older
variable {depth limit : Nat}

theorem parts_follow {fuel : Nat} (enough : limit < fuel) :
    Amf0.Parts.Alike (following (plainly Unit) depth limit) (parts fuel) Amf0.parts where
  refuse error := ⟨.refuse error, .throw error⟩
  repeated items count := ⟨(repeated_follows items.1 enough count).counted, items.2.repeatedFrom count #[]⟩
  entries names values :=
    have naming := Amf0.name_naming names.2
    ⟨entries_follows (fun _ => rfl) naming values.2 names.1 values.1 enough, .entries naming values.2⟩
  take count := ⟨(take_follows count).unmeasured, Reader.take_exact count⟩
  takes count positive := ⟨(take_follows count).weaken positive (Nat.le_refl limit), Reader.take_exact count⟩
  byte := ⟨byte_follows.unmeasured, Reader.byte_exact⟩

theorem escaped_eq (fuel : Nat) {decoder : Decoder Unit} (inside : decoder.position ≤ decoder.input.length) :
    escaped fuel decoder =
      match Newer.decode fuel (.start (unread decoder) decoder.depth .empty) with
      | .ok value inner => (do moveTo (decoder.position + inner.position); return value : Decoding Unit Value) decoder
      | .error halt _ => .error halt decoder := by
  have last : decoder.position + (unread decoder).length = decoder.input.length := by
    rw [length_unread]
    omega
  have sliced := slice_eq inside (Nat.le_refl (unread decoder).length)
  rw [last, List.take_length] at sliced
  change (slice decoder.position decoder.input.length >>= _) decoder = _
  rw [run_bind_ok sliced]
  cases Newer.decode fuel (.start (unread decoder) decoder.depth .empty) <;> rfl

theorem seen_start (behind : Bytes) (depth : Nat) :
    seen withTables (.start behind depth .empty) = .ofBytes behind := by
  change Amf3.State.mk (behind.drop 0) #[] ((#[] : Array Newer.Slot).map Newer.Slot.value) #[] = _
  rw [List.drop_zero, Array.map_empty]
  rfl

/-- The decoder that reads the escaped value begins with the bytes behind the marker and its own empty tables. -/
theorem escaped_follows {fuel : Nat} (enough : limit + (maxDepth - depth) < fuel) :
    Follows (plainly Unit) depth limit 0 (escaped fuel) (Amf0.escaped (maxDepth - depth)) := by
  intro decoder ready
  have left := ready.left
  rw [← length_unread] at left
  have agrees := Newer.decode_follows enough (.start (unread decoder) decoder.depth .empty)
    ⟨Nat.zero_le _, left, ready.depth⟩
  change Agrees _ _ _ _ (Amf0.escaped (maxDepth - depth) (unread decoder))
  rw [seen_start] at agrees
  rw [escaped_eq fuel ready.inside, Amf0.escaped, Amf0.escapedVia, ← Amf3.value]
  generalize Newer.decode fuel (.start (unread decoder) decoder.depth .empty) = result at agrees
  generalize Amf3.value (maxDepth - depth) (.ofBytes (unread decoder)) = answer at agrees
  cases agrees with
  | ok reaches advances =>
    rename_i value inner
    have taken : inner.position ≤ (unread decoder).length := reaches.position_le
    have rest : (seen withTables inner).unread = unread (decoder.moved inner.position) := by
      rw [unread_moved]
      exact congrArg (List.drop inner.position) reaches.input
    dsimp only
    rw [run_bind_ok (moveTo_eq ready.inside taken), rest]
    exact .ok (reaches_moved ready.inside taken) (Nat.le_add_right _ _)
  | refused reaches => exact .refused (.refl ready.inside)

theorem decode_follows {fuel : Nat} (enough : limit + (maxDepth - depth) < fuel) :
    Follows (plainly Unit) depth limit 1 (decode fuel) (Amf0.value (maxDepth - depth)) := by
  induction fuel generalizing depth with
  | zero => exact absurd enough (Nat.not_lt_zero _)
  | succ fuel ih =>
    rw [decode]
    by_cases deep : maxDepth ≤ depth
    · rw [Nat.sub_eq_zero_of_le deep]
      exact nested_refused deep
    obtain ⟨room, same⟩ : ∃ room, maxDepth - depth = room + 1 := Nat.exists_eq_add_one.mpr (by omega)
    have further : maxDepth - (depth + 1) = room := by omega
    have values : (following (plainly Unit) (depth + 1) limit).Takes (decode fuel) (Amf0.value room) :=
      ⟨further ▸ ih (by omega), Amf0.value_exact room⟩
    have escapes : (following (plainly Unit) (depth + 1) limit).Alike (escaped fuel) (Amf0.escaped room) :=
      ⟨further ▸ escaped_follows (by omega), Amf0.escaped_exact room⟩
    have inner : limit < fuel := by omega
    rw [same, Amf0.value_succ]
    refine nested_follows (by omega) (byte_follows.andThen fun marker => ?_)
    exact ((parts_follow inner).marked values escapes marker).1

/-- The value behind the marker is read by a decoder one level further down. What that one took is taken, and the
marker alone if the value is refused. -/
theorem decode_escape {fuel : Nat} {decoder : Decoder Unit} {behind : Bytes}
    (marked : unread decoder = Amf0.Marker.avmPlus.toByte :: behind) (shallow : decoder.depth < maxDepth)
    (enough : behind.length + (maxDepth - decoder.depth) ≤ fuel) :
    decode (fuel + 1) decoder =
      match Newer.decode fuel (.start behind (decoder.depth + 1) .empty) with
      | .ok value inner => .ok value (decoder.moved (1 + inner.position))
      | .error halt _ => .error halt (decoder.moved 1) := by
  have size : decoder.input.length - decoder.position = behind.length + 1 := by
    rw [← length_unread, marked, List.length_cons]
  have inside : decoder.position ≤ decoder.input.length := by omega
  have further : (decoder.entered.moved 1).position ≤ (decoder.entered.moved 1).input.length := by
    change decoder.position + 1 ≤ decoder.input.length
    omega
  have rest : unread (decoder.entered.moved 1) = behind := by
    rw [unread_moved, unread_entered, marked, List.drop_one, List.tail_cons]
  have first : byte decoder.entered = .ok Amf0.Marker.avmPlus.toByte (decoder.entered.moved 1) := by
    have inside : decoder.entered.position ≤ decoder.entered.input.length := inside
    have read := byte_eq inside
    rw [unread_entered, marked] at read
    exact read
  have escapes : (parts fuel).marked (decode fuel) (escaped fuel) Amf0.Marker.avmPlus.toByte = escaped fuel := rfl
  have begun := escaped_eq fuel further
  rw [rest] at begun
  have reads : Follows withTables (decoder.depth + 1) behind.length 1 (Newer.decode fuel) _ :=
    Newer.decode_follows (by omega)
  have agrees := reads (.start behind (decoder.depth + 1) .empty) ⟨Nat.zero_le _, Nat.le_refl _, rfl⟩
  have deeper : (decoder.entered.moved 1).depth = decoder.depth + 1 := rfl
  rw [decode, nested_eq shallow, run_bind_ok first, escapes, begun, deeper]
  generalize Newer.decode fuel (.start behind (decoder.depth + 1) .empty) = result at agrees
  generalize Amf3.value (maxDepth - (decoder.depth + 1)) _ = answer at agrees
  cases agrees with
  | ok reaches advances =>
    rename_i value inner
    have taken : inner.position ≤ (unread (decoder.entered.moved 1)).length := rest ▸ reaches.position_le
    dsimp only
    rw [run_bind_ok (moveTo_eq further taken), ← moved_moved]
    rfl
  | refused reaches => rfl

theorem values_follow {value : Decoding Unit Value} {item : Reader Value}
    (values : Follows (plainly Unit) depth limit 1 value item) {fuel : Nat} (enough : limit < fuel) (count : Bytes)
    (counted : limit ≤ count.length) (held : Array Value) :
    Follows (plainly Unit) depth limit 0 (rounds (valueRound value) fuel held) (Amf0.valuesFrom item count held) := by
  induction fuel generalizing limit count held with
  | zero => exact absurd enough (Nat.not_lt_zero limit)
  | succ fuel ih =>
    intro decoder ready
    have unrolled : rounds (valueRound value) (fuel + 1) held decoder =
        if (unread decoder).length = 0 then .ok held.toList decoder
        else (value >>= fun next => rounds (valueRound value) fuel (held.push next)) decoder := by
      rw [rounds, valueRound, bind_assoc, run_bind_ok (remaining_eq ready.inside)]
      split
      · rfl
      · rw [bind_assoc]
        simp only [pure_bind]
    rw [unrolled]
    cases behind : unread decoder with
    | nil =>
      have read : Amf0.valuesFrom item count held (unread decoder) = .ok held.toList (unread decoder) := by
        rw [behind]
        cases count <;> rfl
      change Agrees _ _ _ _ (Amf0.valuesFrom item count held (unread decoder))
      rw [if_pos List.length_nil, read]
      exact .ok (.refl ready.inside) (Nat.le_refl _)
    | cons first rest =>
      have within : (unread decoder).length ≤ limit := (length_unread decoder).trans_le ready.left
      rw [behind, List.length_cons] at within
      rw [if_neg (by rw [List.length_cons]; omega)]
      cases count with
      | nil => exact absurd (within.trans counted) (Nat.not_succ_le_zero _)
      | cons round count =>
        rw [List.length_cons] at counted
        have read : Amf0.valuesFrom item (round :: count) held (unread decoder) =
            (item >>= fun next => Amf0.valuesFrom item count (held.push next)) (unread decoder) := by
          change (if (unread decoder).isEmpty then (pure held.toList : Reader (List Value))
            else item >>= fun next => Amf0.valuesFrom item count (held.push next)) (unread decoder) = _
          rw [behind]
          rfl
        have further : Follows (plainly Unit) depth limit 1
            (value >>= fun next => rounds (valueRound value) fuel (held.push next))
            (item >>= fun next => Amf0.valuesFrom item count (held.push next)) := by
          apply values.bind
          intro next enough
          exact ih (values.narrow (Nat.sub_le limit 1)) (by omega) count (by omega) (held.push next)
        change Agrees _ _ _ _ (Amf0.valuesFrom item (round :: count) held (unread decoder))
        rw [read]
        exact further.unmeasured decoder ready

/-- Each value takes a byte at least, and so there are rounds enough for the bytes. -/
theorem decodeAll_follows {fuel : Nat} (enough : limit + (maxDepth - depth) < fuel) :
    Follows (plainly Unit) depth limit 0 (decodeAll fuel)
      (fun bytes => Amf0.valuesFrom (Amf0.value (maxDepth - depth)) bytes #[] bytes) := by
  intro decoder ready
  have left := ready.left
  have values : Follows (plainly Unit) depth (decoder.input.length - decoder.position) 1 (decode fuel) _ :=
    (decode_follows enough).narrow left
  apply values_follow values
  · omega
  · exact (length_unread decoder).ge
  · exact ⟨ready.inside, Nat.le_refl _, ready.depth⟩

/-- A call that is made, however it ends. -/
inductive Call (fuel : Nat) : Decoder Unit → Decoder Unit → Prop where
  | decode (decoder : Decoder Unit) : Call fuel decoder (leaves (Older.decode fuel decoder))
  | decodeAll (decoder : Decoder Unit) : Call fuel decoder (leaves (Older.decodeAll fuel decoder))

end Older

inductive Newer.Call (fuel : Nat) : Decoder Newer.References → Decoder Newer.References → Prop where
  | decode (decoder : Decoder Newer.References) : Call fuel decoder (leaves (Newer.decode fuel decoder))

namespace Older

/-- What comes of the calls that can be made on the decoder. A value behind the escape marker is read by another decoder,
which begins with empty tables one level further down: what that one took is taken, and if the value is refused, the
marker alone. -/
structure Kept (fuel : Nat) (decoder : Decoder Unit) : Prop where
  decode : Agrees (plainly Unit) 1 decoder (Older.decode fuel decoder)
    (Amf0.value (maxDepth - decoder.depth) (unread decoder))
  decodeAll : Agrees (plainly Unit) 0 decoder (Older.decodeAll fuel decoder)
    (Amf0.valuesFrom (Amf0.value (maxDepth - decoder.depth)) (unread decoder) #[] (unread decoder))
  escape : ∀ behind, unread decoder = Amf0.Marker.avmPlus.toByte :: behind → decoder.depth < maxDepth →
    Older.decode fuel decoder =
      match Newer.decode (fuel - 1) (.start behind (decoder.depth + 1) .empty) with
      | .ok value inner => .ok value (decoder.moved (1 + inner.position))
      | .error halt _ => .error halt (decoder.moved 1)

theorem kept {fuel : Nat} {decoder : Decoder Unit} (fit : Fit fuel decoder) : Kept fuel decoder where
  decode := decode_follows fit.fuelled decoder ⟨fit.inside, Nat.le_refl _, rfl⟩
  decodeAll := decodeAll_follows fit.fuelled decoder ⟨fit.inside, Nat.le_refl _, rfl⟩
  escape := by
    intro behind marked shallow
    have fuelled := fit.fuelled
    rw [← length_unread, marked, List.length_cons] at fuelled
    obtain ⟨lower, rfl⟩ : ∃ lower, fuel = lower + 1 := Nat.exists_eq_add_one.mpr (by omega)
    rw [Nat.add_sub_cancel]
    exact decode_escape marked shallow (by omega)

/-- A decoder that was not handed over to reads all values as they are read from its bytes. -/
theorem decodeAll_outermost {fuel : Nat} {decoder : Decoder Unit} (fit : Fit fuel decoder) (outermost : decoder.depth = 0) :
    Agrees (plainly Unit) 0 decoder (Older.decodeAll fuel decoder) (Amf0.values (unread decoder)) := by
  have agrees := (kept fit).decodeAll
  have same : Amf0.value (maxDepth - decoder.depth) = Amf0.next := by
    rw [outermost]
    rfl
  rw [same] at agrees
  exact agrees

theorem call_reaches {fuel : Nat} {before after : Decoder Unit} (fit : Fit fuel before) (call : Call fuel before after) :
    Reaches (plainly Unit) before after := by
  cases call with
  | decode => exact (kept fit).decode.leaves
  | decodeAll => exact (kept fit).decodeAll.leaves

end Older

namespace Newer

structure Kept (fuel : Nat) (decoder : Decoder References) : Prop where
  decode : Agrees withTables 1 decoder (Newer.decode fuel decoder)
    (Amf3.value (maxDepth - decoder.depth) (seen withTables decoder))

theorem kept {fuel : Nat} {decoder : Decoder References} (fit : Fit fuel decoder) : Kept fuel decoder :=
  ⟨decode_follows fit.fuelled decoder ⟨fit.inside, Nat.le_refl _, rfl⟩⟩

theorem call_reaches {fuel : Nat} {before after : Decoder References} (fit : Fit fuel before)
    (call : Call fuel before after) : Reaches withTables before after := by
  cases call with
  | decode => exact (kept fit).decode.leaves

end Newer

/-- Both decoders keep their books, whatever calls were made before and however those ended. The same is true of the
calls that a call makes, with the fuel that these have. -/
theorem books_are_kept (input : Bytes) (depth fuel : Nat) (enough : input.length + maxDepth < fuel) :
    (∀ decoder, Relation.ReflTransGen (Older.Call fuel) (.start input depth ()) decoder →
      Reaches (plainly Unit) (.start input depth ()) decoder ∧ Older.Kept fuel decoder) ∧
    (∀ decoder, Relation.ReflTransGen (Newer.Call fuel) (.start input depth .empty) decoder →
      Reaches withTables (.start input depth .empty) decoder ∧ Newer.Kept fuel decoder) ∧
    (∀ lower decoder, Fit lower decoder → Older.Kept lower decoder) ∧
    ∀ lower decoder, Fit lower decoder → Newer.Kept lower decoder := by
  have fit {τ : Type} (tables : τ) : Fit fuel (.start input depth tables) := by
    refine ⟨Nat.zero_le _, ?_⟩
    change input.length - 0 + (maxDepth - depth) < fuel
    omega
  refine ⟨?_, ?_, fun _ _ => Older.kept, fun _ _ => Newer.kept⟩
  · intro decoder calls
    have reaches := reached Older.call_reaches (fit ()) calls
    exact ⟨reaches, Older.kept ((fit ()).later reaches)⟩
  · intro decoder calls
    have reaches := reached Newer.call_reaches (fit .empty) calls
    exact ⟨reaches, Newer.kept ((fit .empty).later reaches)⟩

/-- The second item of an array is a value in the newer encoding that cannot be read. The call that refuses it has taken
the marker and not the byte behind it, at which the next one goes on. -/
theorem books_are_kept_behind_an_escape :
    (([0x0a, 0, 0, 0, 2, 0x05, 0x11, 0x0c, 0x05] : Bytes).length + maxDepth < 74) ∧
    ∃ decoder, Relation.ReflTransGen (Older.Call 74) (.start [0x0a, 0, 0, 0, 2, 0x05, 0x11, 0x0c, 0x05] 0 ()) decoder ∧
      decoder.position = 7 ∧ decoder.depth = 0 ∧ Older.Kept 74 decoder := by
  have enough : ([0x0a, 0, 0, 0, 2, 0x05, 0x11, 0x0c, 0x05] : Bytes).length + maxDepth < 74 := by decide
  refine ⟨enough, _, .single (.decode _), by rfl, by rfl, ?_⟩
  exact ((books_are_kept _ 0 74 enough).1 _ (.single (.decode _))).2

end RtmpRelay.Amf.Decoding
