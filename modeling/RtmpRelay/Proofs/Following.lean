import Mathlib.Logic.Relation
import RtmpRelay.Proofs.Cursor
import RtmpRelay.Proofs.Lookahead

/-! A decoder goes through its input as a reader does that is given the bytes behind the position. The rules below say so
of everything that a decoder is put together from: both come to the same end, and however that is, the position has
moved on and is within the input, the depth is what it was, and the indices that were assigned before are as they were.
No fault is such an end. -/

namespace RtmpRelay.Amf.Decoding

/-- What a reader sees of a decoder with these bytes behind its position, and what a call leaves as it is. -/
structure View (τ σ : Type) where
  state : Bytes → τ → σ
  Keeps : τ → τ → Prop
  refl : ∀ tables, Keeps tables tables
  trans : ∀ {first second third}, Keeps first second → Keeps second third → Keeps first third

/-- A reader without tables, which leaves all there are as they are. -/
def plainly (τ : Type) : View τ Bytes where
  state bytes _ := bytes
  Keeps before after := after = before
  refl _ := rfl
  trans first second := second.trans first

/-- An index that is reserved reads as null. No index from before is touched. -/
def withTables : View Newer.References Amf3.State where
  state bytes tables := ⟨bytes, tables.strings, tables.objects.map Newer.Slot.value, tables.traits⟩
  Keeps before after := before.objects.toList <+: after.objects.toList
  refl _ := List.prefix_refl _
  trans := List.IsPrefix.trans

section Following
variable {τ σ α β : Type} (view : View τ σ)

/-- The bytes behind the position. -/
def unread (decoder : Decoder τ) : Bytes :=
  decoder.input.drop decoder.position

def seen (decoder : Decoder τ) : σ :=
  view.state (unread decoder) decoder.tables

structure Reaches (before after : Decoder τ) : Prop where
  input : after.input = before.input
  depth : after.depth = before.depth
  forward : before.position ≤ after.position
  inside : after.position ≤ after.input.length
  keeps : view.Keeps before.tables after.tables

/-- A call ends as the reader does, with a value only if it took so many bytes. A fault is no such ending. -/
inductive Agrees (least : Nat) (before : Decoder τ) :
    EStateM.Result Halt (Decoder τ) α → EStateM.Result Error σ α → Prop where
  | ok {value : α} {after : Decoder τ} (reaches : Reaches view before after)
      (advances : before.position + least ≤ after.position) :
      Agrees least before (.ok value after) (.ok value (seen view after))
  | refused {error : Error} {after : Decoder τ} (reaches : Reaches view before after) :
      Agrees least before (.error (.refused error) after) (.error error (seen view after))

/-- A decoder at this depth, with so many bytes left at most. -/
structure Ready (depth limit : Nat) (decoder : Decoder τ) : Prop where
  inside : decoder.position ≤ decoder.input.length
  left : decoder.input.length - decoder.position ≤ limit
  depth : decoder.depth = depth

def Follows (depth limit least : Nat) (decoding : Decoding τ α) (reader : EStateM Error σ α) : Prop :=
  ∀ decoder, Ready depth limit decoder → Agrees view least decoder (decoding decoder) (reader (seen view decoder))

end Following

section Rules
variable {τ σ α β : Type} {view : View τ σ} {depth limit least : Nat} {decoder before middle after : Decoder τ}

theorem Reaches.refl (inside : decoder.position ≤ decoder.input.length) : Reaches view decoder decoder :=
  ⟨rfl, rfl, Nat.le_refl _, inside, view.refl _⟩

theorem Reaches.trans (first : Reaches view before middle) (second : Reaches view middle after) :
    Reaches view before after where
  input := second.input.trans first.input
  depth := second.depth.trans first.depth
  forward := first.forward.trans second.forward
  inside := second.inside
  keeps := view.trans first.keeps second.keeps

theorem Reaches.position_le {behind : Bytes} {tables : τ} (reaches : Reaches view (.start behind depth tables) after) :
    after.position ≤ behind.length := by
  have same : after.input = behind := reaches.input
  exact same ▸ reaches.inside

theorem Ready.moved (ready : Ready depth limit before) (reaches : Reaches view before after)
    (advances : before.position + least ≤ after.position) : Ready depth (limit - least) after := by
  have left := ready.left
  have inside := reaches.inside
  rw [reaches.input] at inside
  exact ⟨reaches.inside, by rw [reaches.input]; omega, reaches.depth.trans ready.depth⟩

theorem Agrees.begun {decoding : EStateM.Result Halt (Decoder τ) α} {reading : EStateM.Result Error σ α}
    (agrees : Agrees view 0 middle decoding reading) (reaches : Reaches view before middle)
    (advances : before.position + least ≤ middle.position) : Agrees view least before decoding reading := by
  cases agrees with
  | ok further advanced => exact .ok (reaches.trans further) (advances.trans advanced)
  | refused further => exact .refused (reaches.trans further)

namespace Follows
variable {decoding : Decoding τ α} {reader : EStateM Error σ α} {first : Decoding τ β} {reading : EStateM Error σ β}
  {next : β → Decoding τ α} {following : β → EStateM Error σ α}

theorem pure (value : α) : Follows view depth limit 0 (pure value) (pure value) :=
  fun _ ready => .ok (.refl ready.inside) (Nat.le_refl _)

theorem refuse (error : Error) : Follows view depth limit least (refuse error : Decoding τ α) (throw error) :=
  fun _ ready => .refused (.refl ready.inside)

theorem weaken (follows : Follows view depth limit least decoding reader) {fewer smaller : Nat} (few : fewer ≤ least)
    (small : smaller ≤ limit) : Follows view depth smaller fewer decoding reader := by
  intro decoder ready
  have agrees := follows decoder ⟨ready.inside, ready.left.trans small, ready.depth⟩
  generalize decoding decoder = result at agrees
  generalize reader (seen view decoder) = answer at agrees
  cases agrees with
  | ok reaches advances => exact .ok reaches (by omega)
  | refused reaches => exact .refused reaches

theorem unmeasured (follows : Follows view depth limit least decoding reader) : Follows view depth limit 0 decoding reader :=
  follows.weaken (Nat.zero_le least) (Nat.le_refl limit)

theorem narrow (follows : Follows view depth limit least decoding reader) {smaller : Nat} (small : smaller ≤ limit) :
    Follows view depth smaller least decoding reader :=
  follows.weaken (Nat.le_refl least) small

theorem bind (begins : Follows view depth limit least first reading)
    (goesOn : ∀ value, least ≤ limit → Follows view depth (limit - least) 0 (next value) (following value)) :
    Follows view depth limit least (first >>= next) (reading >>= following) := by
  intro decoder ready
  have began := begins decoder ready
  cases ran : first decoder with
  | ok value middle =>
    rw [ran] at began
    generalize read : reading (seen view decoder) = answer at began
    cases began with
    | ok reaches advances =>
      have enough : least ≤ limit := by
        have inside := reaches.inside
        have left := ready.left
        rw [reaches.input] at inside
        omega
      rw [run_bind_ok ran, run_bind_ok read]
      exact (goesOn value enough middle (ready.moved reaches advances)).begun reaches advances
  | error halt middle =>
    rw [ran] at began
    generalize read : reading (seen view decoder) = answer at began
    cases began with
    | refused reaches =>
      rw [run_bind_error ran, run_bind_error read]
      exact .refused reaches

theorem andThen (begins : Follows view depth limit least first reading)
    (goesOn : ∀ value, Follows view depth limit 0 (next value) (following value)) :
    Follows view depth limit least (first >>= next) (reading >>= following) :=
  begins.bind fun value _ => (goesOn value).narrow (Nat.sub_le _ _)

theorem map (begins : Follows view depth limit least first reading) (change : β → α) :
    Follows view depth limit least (first >>= fun value => Pure.pure (change value))
      (reading >>= fun value => Pure.pure (change value)) :=
  begins.andThen fun _ => .pure _

end Follows
end Rules

section Bytes
variable {τ : Type} {depth limit : Nat}

section Primitives
variable {decoder : Decoder τ} {count : Nat}

theorem length_unread (decoder : Decoder τ) : (unread decoder).length = decoder.input.length - decoder.position :=
  List.length_drop

theorem unread_moved (decoder : Decoder τ) (count : Nat) : unread (decoder.moved count) = (unread decoder).drop count :=
  List.drop_drop.symm

theorem moved_moved (decoder : Decoder τ) (first second : Nat) :
    (decoder.moved first).moved second = decoder.moved (first + second) := by
  simp only [Decoder.moved, Nat.add_assoc]

theorem unread_entered (decoder : Decoder τ) : unread decoder.entered = unread decoder :=
  rfl

theorem moved_inside (inside : decoder.position ≤ decoder.input.length) (enough : count ≤ (unread decoder).length) :
    decoder.position + count ≤ decoder.input.length := by
  rw [length_unread] at enough
  omega

theorem remaining_eq (inside : decoder.position ≤ decoder.input.length) :
    remaining decoder = .ok (unread decoder).length decoder := by
  change (if decoder.position ≤ decoder.input.length then _ else _ : Decoding τ Nat) decoder = _
  rw [if_pos inside, length_unread]
  rfl

theorem slice_eq (inside : decoder.position ≤ decoder.input.length) (enough : count ≤ (unread decoder).length) :
    slice decoder.position (decoder.position + count) decoder = .ok ((unread decoder).take count) decoder := by
  change (if decoder.position ≤ decoder.position + count ∧ decoder.position + count ≤ decoder.input.length then _ else _ :
    Decoding τ Bytes) decoder = _
  rw [if_pos ⟨Nat.le_add_right _ _, moved_inside inside enough⟩, Nat.add_sub_cancel_left]
  rfl

theorem moveTo_eq (inside : decoder.position ≤ decoder.input.length) (enough : count ≤ (unread decoder).length) :
    moveTo (decoder.position + count) decoder = .ok () (decoder.moved count) := by
  change (if decoder.position ≤ decoder.position + count ∧ decoder.position + count ≤ decoder.input.length then _ else _ :
    Decoding τ Unit) decoder = _
  rw [if_pos ⟨Nat.le_add_right _ _, moved_inside inside enough⟩]
  rfl

theorem reaches_moved (inside : decoder.position ≤ decoder.input.length) (enough : count ≤ (unread decoder).length) :
    Reaches (plainly τ) decoder (decoder.moved count) :=
  ⟨rfl, rfl, Nat.le_add_right _ _, moved_inside inside enough, rfl⟩

theorem take_eq (count : Nat) (inside : decoder.position ≤ decoder.input.length) :
    take count decoder =
      if count ≤ (unread decoder).length then .ok ((unread decoder).take count) (decoder.moved count)
      else .error (.refused .unexpectedEnd) decoder := by
  rw [take, run_bind_ok (remaining_eq inside)]
  by_cases enough : count ≤ (unread decoder).length
  · rw [if_neg (Nat.not_lt.mpr enough), if_pos enough]
    change (slice decoder.position (decoder.position + count) >>= _) decoder = _
    rw [run_bind_ok (slice_eq inside enough), run_bind_ok (moveTo_eq inside enough)]
    rfl
  · rw [if_pos (Nat.lt_of_not_le enough), if_neg enough]
    rfl

theorem byte_eq (inside : decoder.position ≤ decoder.input.length) :
    byte decoder =
      match unread decoder with
      | [] => .error (.refused .unexpectedEnd) decoder
      | first :: _ => .ok first (decoder.moved 1) := by
  have taken := take_eq 1 inside
  cases behind : unread decoder with
  | nil =>
    rw [behind] at taken
    rw [byte, run_bind_error taken]
  | cons first rest =>
    have enough : 1 ≤ (first :: rest).length := Nat.le_add_left 1 _
    rw [behind, if_pos enough] at taken
    rw [byte, run_bind_ok taken]
    rfl

end Primitives

/-- What is only looked at is not taken. -/
theorem Follows.counted {σ α : Type} {view : View τ σ} {least : Nat} {decoding : Decoding τ α}
    {reader : EStateM Error σ α} (follows : Follows view depth limit least decoding reader) :
    Follows view depth limit least (remaining >>= fun _ => decoding) reader := by
  intro decoder ready
  rw [run_bind_ok (remaining_eq ready.inside)]
  exact follows decoder ready

theorem take_follows (count : Nat) : Follows (plainly τ) depth limit count (take count) (Reader.take count) := by
  intro decoder ready
  change Agrees _ _ _ _ (Reader.take count (unread decoder))
  rw [take_eq count ready.inside, Reader.take_eq]
  split
  next enough =>
    rw [← unread_moved]
    exact .ok (reaches_moved ready.inside enough) (Nat.le_refl _)
  next => exact .refused (.refl ready.inside)

theorem byte_follows : Follows (plainly τ) depth limit 1 byte Reader.byte := by
  intro decoder ready
  change Agrees _ _ _ (byte decoder) (Reader.byte (unread decoder))
  rw [byte_eq ready.inside]
  cases behind : unread decoder with
  | nil =>
    have refused : Reader.byte [] = .error .unexpectedEnd (unread decoder) := by
      rw [behind]
      rfl
    rw [refused]
    exact .refused (.refl ready.inside)
  | cons first rest =>
    have enough : 1 ≤ (unread decoder).length := by
      rw [behind]
      exact Nat.le_add_left 1 _
    have read : Reader.byte (first :: rest) = .ok first (unread (decoder.moved 1)) := by
      rw [unread_moved, behind]
      rfl
    rw [read]
    exact .ok (reaches_moved ready.inside enough) (Nat.le_refl _)

theorem double_follows : Follows (plainly τ) depth limit 8 (doubleVia take) Reader.double :=
  (take_follows 8).map _

theorem text_follows (bytes : Nat) : Follows (plainly τ) depth limit bytes (textVia take bytes) (Reader.text bytes) :=
  (take_follows bytes).map _

theorem groups_follows (more high : Nat) :
    Follows (plainly τ) depth limit 1 (Amf3.groups byte more high) (Amf3.groups Reader.byte more high) := by
  induction more generalizing high with
  | zero => exact byte_follows.map _
  | succ more ih =>
    refine byte_follows.andThen fun next => ?_
    dsimp only
    split
    · exact .pure _
    · exact (ih _).unmeasured

end Bytes

section Levels
variable {τ σ α : Type} {view : View τ σ} {depth limit least : Nat} {inner : Decoding τ α} {reader : EStateM Error σ α}

theorem nested_refused (deep : maxDepth ≤ depth) :
    Follows view depth limit least (nested inner) (throw .nestingTooDeep) := by
  intro decoder ready
  have refused : nested inner decoder = .error (.refused .nestingTooDeep) decoder := by
    change (if maxDepth ≤ decoder.depth then _ else _ : Decoding τ α) decoder = _
    rw [if_pos (ready.depth.symm ▸ deep)]
    rfl
  rw [refused]
  exact .refused (.refl ready.inside)

theorem leave_eq {decoder : Decoder τ} (below : decoder.depth = depth + 1) :
    leave decoder = .ok () { decoder with depth } := by
  obtain ⟨input, position, level, tables⟩ := decoder
  cases below
  rfl

theorem nested_eq {decoder : Decoder τ} (shallow : decoder.depth < maxDepth) :
    nested inner decoder =
      match inner decoder.entered with
      | .ok value after => (do leave; return value : Decoding τ α) after
      | .error (.refused error) after => (do leave; refuse error : Decoding τ α) after
      | .error (.broken fault) after => .error (.broken fault) after := by
  change (if maxDepth ≤ decoder.depth then _ else _ : Decoding τ α) decoder = _
  rw [if_neg (Nat.not_le.mpr shallow)]
  rfl

/-- The level is left again whatever comes of the value. -/
theorem nested_follows (shallow : depth < maxDepth) (follows : Follows view (depth + 1) limit least inner reader) :
    Follows view depth limit least (nested inner) reader := by
  intro decoder ready
  have entered : Ready (depth + 1) limit decoder.entered :=
    ⟨ready.inside, ready.left, congrArg (· + 1) ready.depth⟩
  have agrees := follows _ entered
  have back {after : Decoder τ} (reaches : Reaches view decoder.entered after) :
      Reaches view decoder { after with depth := decoder.depth } :=
    ⟨reaches.input, rfl, reaches.forward, reaches.inside, reaches.keeps⟩
  change Agrees view least decoder _ (reader (seen view decoder.entered))
  rw [nested_eq (ready.depth ▸ shallow)]
  generalize inner decoder.entered = result at agrees
  generalize reader (seen view decoder.entered) = answer at agrees
  cases agrees with
  | ok reaches advances =>
    dsimp only
    rw [run_bind_ok (leave_eq reaches.depth)]
    exact .ok (back reaches) advances
  | refused reaches =>
    dsimp only
    rw [run_bind_ok (leave_eq reaches.depth)]
    exact .refused (back reaches)

end Levels

section Loops
variable {τ σ α : Type} {view : View τ σ} {depth limit : Nat}

/-- Each item takes a byte at least, so that the bytes run out before the rounds do. -/
theorem repeatedFrom_follows {item : Decoding τ α} {reader : EStateM Error σ α}
    (items : Follows view depth limit 1 item reader) {fuel : Nat} (enough : limit < fuel) (count : Nat)
    (held : Array α) :
    Follows view depth limit 0 (rounds (itemRound item) fuel (count, held)) (repeatedFrom reader count held) := by
  induction fuel generalizing limit count held with
  | zero => exact absurd enough (Nat.not_lt_zero limit)
  | succ fuel ih =>
    cases count with
    | zero => exact .pure held.toList
    | succ count =>
      have further : Follows view depth limit 1 (item >>= fun next => rounds (itemRound item) fuel (count, held.push next))
          (reader >>= fun next => repeatedFrom reader count (held.push next)) := by
        apply items.bind
        intro next some
        exact ih (items.narrow (Nat.sub_le _ _)) (by omega) count (held.push next)
      have unrolled : rounds (itemRound item) (fuel + 1) (count + 1, held) =
          item >>= fun next => rounds (itemRound item) fuel (count, held.push next) := by
        rw [rounds, itemRound, bind_assoc]
        simp only [pure_bind]
      rw [unrolled]
      exact further.unmeasured

theorem repeated_follows {item : Decoding τ α} {reader : EStateM Error σ α}
    (items : Follows view depth limit 1 item reader) {fuel : Nat} (enough : limit < fuel) (count : Nat) :
    Follows view depth limit 0 (repeated item fuel count) (Amf.repeated reader count) :=
  repeatedFrom_follows items enough count #[]

section Entries
variable {name : Decoding τ (Option String)} {value : Decoding τ Value} {readName : EStateM Error σ (Option String)}
  {readValue : EStateM Error σ Value}

theorem entriesFrom_follows (names : Follows view depth limit 1 name readName)
    (values : Follows view depth limit 1 value readValue) {fuel : Nat} (enough : limit < fuel)
    (held : Array (String × Value)) :
    Follows view depth limit 0 (rounds (entryRound name value) fuel held)
      (entriesFrom readName readValue (List.replicate fuel 0) held) := by
  induction fuel generalizing limit held with
  | zero => exact absurd enough (Nat.not_lt_zero limit)
  | succ fuel ih =>
    rw [List.replicate_succ, entriesFrom, rounds, entryRound, bind_assoc]
    refine Follows.unmeasured (names.bind fun key some => ?_)
    cases key with
    | none =>
      rw [pure_bind]
      exact .pure held.toList
    | some key =>
      rw [bind_assoc]
      have fewer := values.narrow (Nat.sub_le limit 1)
      refine Follows.unmeasured (fewer.bind fun next more => ?_)
      rw [pure_bind]
      have less : limit - 1 - 1 ≤ limit := by omega
      exact ih (names.narrow less) (values.narrow less) (by omega) (held.push (key, next))

/-- The reader counts its rounds by the bytes that are left, of which there are no more than the fuel. -/
theorem entries_follows [Input σ] (sees : ∀ decoder, Input.unread (seen view decoder) = unread decoder)
    (naming : Exact.Naming readName) (exact : Exact readValue) (names : Follows view depth limit 1 name readName)
    (values : Follows view depth limit 1 value readValue) {fuel : Nat} (enough : limit < fuel) :
    Follows view depth limit 0 (entries name value fuel)
      fun state => Amf.entries readName readValue (Input.unread state) state := by
  intro decoder ready
  have left := ready.left
  have same : Amf.entries readName readValue (Input.unread (seen view decoder)) (seen view decoder) =
      entriesFrom readName readValue (List.replicate fuel 0) #[] (seen view decoder) := by
    apply Exact.entriesFrom_enough naming exact
    · exact Nat.le_refl _
    · rw [sees, List.length_replicate, length_unread]
      omega
  change Agrees view 0 decoder _ (Amf.entries readName readValue (Input.unread (seen view decoder)) (seen view decoder))
  rw [same]
  exact entriesFrom_follows names values enough #[] decoder ready

end Entries

end Loops

/-- A decoder at this depth, with so many bytes left at most, next to a reader that looks no further than it reads. -/
def following {τ σ : Type} [Input σ] (view : View τ σ) (depth limit : Nat) :
    Likeness (Decoding τ) (EStateM Error σ) where
  Alike decoding reader := Follows view depth limit 0 decoding reader ∧ Exact reader
  Takes decoding reader := Follows view depth limit 1 decoding reader ∧ Exact reader
  alike takes := ⟨takes.1.unmeasured, takes.2⟩
  pure value := ⟨.pure value, .pure value⟩
  bind first next := ⟨first.1.andThen fun value => (next value).1, first.2.bind fun value => (next value).2⟩
  takes_bind first next := ⟨first.1.andThen fun value => (next value).1, first.2.bind fun value => (next value).2⟩

section Calls
variable {τ σ α : Type} {view : View τ σ} {fuel : Nat} {before after : Decoder τ}

/-- A position in the input, and fuel for every byte behind it and for every level further down. -/
structure Fit (fuel : Nat) (decoder : Decoder τ) : Prop where
  inside : decoder.position ≤ decoder.input.length
  fuelled : decoder.input.length - decoder.position + (maxDepth - decoder.depth) < fuel

/-- What a call leaves to the next one, however it ends. -/
def leaves : EStateM.Result Halt (Decoder τ) α → Decoder τ
  | .ok _ after => after
  | .error _ after => after

theorem Fit.later (fit : Fit fuel before) (reaches : Reaches view before after) : Fit fuel after where
  inside := reaches.inside
  fuelled := by
    have fuelled := fit.fuelled
    have forward := reaches.forward
    rw [reaches.input, reaches.depth]
    omega

theorem Agrees.leaves {least : Nat} {decoding : EStateM.Result Halt (Decoder τ) α} {reading : EStateM.Result Error σ α}
    (agrees : Agrees view least before decoding reading) : Reaches view before (leaves decoding) := by
  cases agrees with
  | ok reaches => exact reaches
  | refused reaches => exact reaches

theorem reached {Call : Decoder τ → Decoder τ → Prop}
    (each : ∀ {before after}, Fit fuel before → Call before after → Reaches view before after)
    (fit : Fit fuel before) (calls : Relation.ReflTransGen Call before after) : Reaches view before after := by
  induction calls with
  | refl => exact .refl fit.inside
  | tail calls call ih => exact ih.trans (each (fit.later ih) call)

end Calls

end RtmpRelay.Amf.Decoding
