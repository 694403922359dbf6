import RtmpRelay.Proofs.Advancing
import RtmpRelay.Proofs.Likeness
import RtmpRelay.Proofs.RoundTrip

/-! Readers of values look no further than they read. Two runs are compared, on an input and on the same input with more
bytes behind it: what was read is read again, what was refused is refused again, and only a reading that ran out of
bytes may end in another way, and then not before it has taken some of those that came later. All else follows from
that: an input is cut where its value ends, and values that follow each other are read as if each stood alone. -/

namespace RtmpRelay.Amf

/-- A state whose input may go on. -/
class Input (σ : Type) where
  unread : σ → Bytes
  extend : σ → Bytes → σ
  unread_extend : ∀ state more, unread (extend state more) = unread state ++ more

open Input (unread extend)

instance : Input Bytes where
  unread := id
  extend := (· ++ ·)
  unread_extend := fun _ _ => rfl

instance : Input Amf3.State where
  unread := Amf3.State.unread
  extend := fun state more => { state with unread := state.unread ++ more }
  unread_extend := fun _ _ => rfl

section Comparing
variable {σ α β : Type} [Input σ]

/-- How a reading ends if more bytes follow, next to how it ended without them. -/
inductive Stands (more : Bytes) : EStateM.Result Error σ α → EStateM.Result Error σ α → Prop where
  | read {value : α} {rest : σ} : Stands more (.ok value rest) (.ok value (extend rest more))
  | refused {error : Error} {before after : σ} (final : error ≠ .unexpectedEnd) :
      Stands more (.error error before) (.error error after)
  | cutOff {before : σ} {result : EStateM.Result Error σ α}
      (further : ∀ value rest, result = .ok value rest → (unread rest).length < more.length) :
      Stands more (.error .unexpectedEnd before) result

section Inverted
variable {more : Bytes} {result : EStateM.Result Error σ α}

theorem Stands.of_read {value : α} {rest : σ} (stands : Stands more (.ok value rest) result) :
    result = .ok value (extend rest more) := by
  cases stands
  rfl

theorem Stands.of_refused {error : Error} {before : σ} (last : error ≠ .unexpectedEnd)
    (stands : Stands more (.error error before) result) : ∃ after, result = .error error after := by
  cases stands with
  | refused => exact ⟨_, rfl⟩
  | cutOff => exact absurd rfl last

end Inverted

/-- An ending with its state put into another one. -/
def outcome {τ : Type} (place failed : σ → τ) : EStateM.Result Error σ α → EStateM.Result Error τ α
  | .ok value rest => .ok value (place rest)
  | .error error rest => .error error (failed rest)

theorem Stands.outcome {τ : Type} [Input τ] {more : Bytes} {first second : EStateM.Result Error σ α}
    {place failed other : σ → τ} (stands : Stands more first second)
    (longer : ∀ rest, place (extend rest more) = extend (place rest) more)
    (same : ∀ rest, unread (place rest) = unread rest) :
    Stands more (outcome place failed first) (outcome place other second) := by
  cases stands with
  | read =>
    rw [Amf.outcome, Amf.outcome, longer]
    exact .read
  | refused final => exact .refused final
  | cutOff further =>
    refine .cutOff fun value rest read => ?_
    cases second with
    | ok found left =>
      cases read
      exact same left ▸ further _ left rfl
    | error => cases read

/-- A reader that takes bytes off the front, and looks at no others. -/
structure Exact (reader : EStateM Error σ α) : Prop where
  suffix : ∀ state, Ensures reader state fun _ rest => unread rest <:+ unread state
  stands : ∀ state more, Stands more (reader state) (reader (extend state more))

namespace Exact
variable {first : EStateM Error σ β} {next : β → EStateM Error σ α} {reader : EStateM Error σ α}

theorem pure (value : α) : Exact (pure value : EStateM Error σ α) :=
  ⟨fun _ => .pure (List.suffix_refl _), fun _ _ => .read⟩

theorem throw (error : Error) : Exact (throw error : EStateM Error σ α) := by
  refine ⟨fun _ => .throw, fun state more => ?_⟩
  by_cases ended : error = .unexpectedEnd
  · subst ended
    exact .cutOff fun value rest never => (nomatch never)
  · exact .refused ended

theorem bind (begins : Exact first) (goesOn : ∀ value, Exact (next value)) : Exact (first >>= next) where
  suffix state :=
    .bind ((begins.suffix state).imp fun value middle shorter =>
      ((goesOn value).suffix middle).imp fun _ _ further => further.trans shorter)
  stands state more := by
    have compared := begins.stands state more
    cases began : first state with
    | ok value middle =>
      rw [began] at compared
      generalize extended : first (extend state more) = result at compared
      cases compared with
      | read =>
        rw [run_bind_ok began, run_bind_ok extended]
        exact (goesOn value).stands middle more
    | error error before =>
      rw [began] at compared
      rw [run_bind_error began]
      generalize extended : first (extend state more) = result at compared
      cases compared with
      | refused final =>
        rw [run_bind_error extended]
        exact .refused final
      | cutOff further =>
        refine .cutOff fun value rest ended => ?_
        cases result with
        | error error after =>
          rw [run_bind_error extended] at ended
          cases ended
        | ok middle after =>
          rw [run_bind_ok extended] at ended
          have shorter := ((goesOn middle).suffix after value rest ended).length_le
          exact Nat.lt_of_le_of_lt shorter (further middle after rfl)

theorem map (exact : Exact first) (change : β → α) : Exact (first >>= fun value => Pure.pure (change value)) :=
  exact.bind fun _ => .pure _

theorem get {read : σ → α} (same : ∀ state more, read (extend state more) = read state) :
    Exact (MonadState.get >>= fun state => Pure.pure (read state) : EStateM Error σ α) := by
  refine ⟨fun state => .bind (.get (.pure (List.suffix_refl _))), fun state more => ?_⟩
  have answer : ∀ start : σ, (MonadState.get >>= fun state => Pure.pure (read state) : EStateM Error σ α) start =
      .ok (read start) start := fun _ => rfl
  rw [answer, answer, same]
  exact .read

theorem modify {change : σ → σ} (keeps : ∀ state, unread (change state) = unread state)
    (same : ∀ state more, change (extend state more) = extend (change state) more) :
    Exact (modify change : EStateM Error σ Unit) := by
  refine ⟨fun state => .modify (keeps state ▸ List.suffix_refl _), fun state more => ?_⟩
  change Stands more (.ok () (change state)) (.ok () (change (extend state more)))
  rw [same]
  exact .read

theorem repeatedFrom (exact : Exact reader) (count : Nat) (items : Array α) : Exact (repeatedFrom reader count items) := by
  induction count generalizing items with
  | zero => exact .pure _
  | succ count ih => exact exact.bind fun next => ih (items.push next)

variable {name : EStateM Error σ (Option String)} {value : EStateM Error σ Value}

theorem entriesFrom (names : Exact name) (values : Exact value) (rounds : Bytes) (held : Array (String × Value)) :
    Exact (entriesFrom name value rounds held) := by
  induction rounds generalizing held with
  | nil => exact .throw _
  | cons round rounds ih =>
    refine names.bind fun key => ?_
    cases key with
    | none => exact .pure _
    | some key => exact values.bind fun next => ih (held.push (key, next))

/-- A reader of names, each of which takes a byte at least. -/
structure Naming (name : EStateM Error σ (Option String)) : Prop where
  exact : Exact name
  ends : ∀ state, unread state = [] → name state = .error .unexpectedEnd state
  shorter : ∀ state, Ensures name state fun _ rest => (unread rest).length < (unread state).length

/-- Rounds beyond the bytes that are there make no difference. -/
theorem entriesFrom_enough (names : Naming name) (values : Exact value) (rounds : Bytes) :
    ∀ (others : Bytes) (held : Array (String × Value)) (state : σ), (unread state).length ≤ rounds.length →
      (unread state).length ≤ others.length →
      Amf.entriesFrom name value rounds held state = Amf.entriesFrom name value others held state := by
  have ended : ∀ (rounds : Bytes) (held : Array (String × Value)) (state : σ), unread state = [] →
      Amf.entriesFrom name value rounds held state = .error .unexpectedEnd state := by
    intro rounds held state empty
    cases rounds with
    | nil => rfl
    | cons round rounds => exact run_bind_error (names.ends state empty)
  induction rounds with
  | nil =>
    intro others held state enough _
    have empty : unread state = [] := List.eq_nil_of_length_eq_zero (by simpa using enough)
    rw [ended _ _ _ empty, ended _ _ _ empty]
  | cons round rounds ih =>
    intro others held state enough also
    cases others with
    | nil =>
      have empty : unread state = [] := List.eq_nil_of_length_eq_zero (by simpa using also)
      rw [ended _ _ _ empty, ended _ _ _ empty]
    | cons other others =>
      simp only [List.length_cons] at enough also
      rw [Amf.entriesFrom, Amf.entriesFrom]
      cases named : name state with
      | error error after => rw [run_bind_error named, run_bind_error named]
      | ok key middle =>
        have shorter := names.shorter state key middle named
        rw [run_bind_ok named, run_bind_ok named]
        cases key with
        | none => rfl
        | some key =>
          change (value >>= fun next => Amf.entriesFrom name value rounds (held.push (key, next))) middle =
            (value >>= fun next => Amf.entriesFrom name value others (held.push (key, next))) middle
          cases found : value middle with
          | error error after => rw [run_bind_error found, run_bind_error found]
          | ok item rest =>
            have further := (values.suffix middle item rest found).length_le
            rw [run_bind_ok found, run_bind_ok found]
            exact ih others _ rest (by omega) (by omega)

/-- The rounds are counted by the input, but they never run out before it. -/
theorem entries (names : Naming name) (values : Exact value) :
    Exact fun state : σ => entries name value (unread state) state := by
  refine ⟨fun state => (entriesFrom names.exact values _ #[]).suffix state, fun state more => ?_⟩
  have longer : (unread state).length ≤ (unread (extend state more)).length := by
    rw [Input.unread_extend, List.length_append]
    exact Nat.le_add_right _ _
  have same : Amf.entries name value (unread state) state = Amf.entries name value (unread (extend state more)) state :=
    entriesFrom_enough names values _ _ #[] state (Nat.le_refl _) longer
  change Stands more (Amf.entries name value (unread state) state)
    (Amf.entries name value (unread (extend state more)) (extend state more))
  rw [same]
  exact (entriesFrom names.exact values _ #[]).stands state more

end Exact

/-- A reader is compared with itself on a longer input. -/
def exactly (σ : Type) [Input σ] : Likeness (EStateM Error σ) (EStateM Error σ) where
  Alike first _ := Exact first
  Takes first _ := Exact first
  alike := id
  pure := .pure
  bind := .bind
  takes_bind := .bind

end Comparing

namespace Reader

theorem take_eq (count : Nat) (unread : Bytes) : take count unread =
    if count ≤ unread.length then .ok (unread.take count) (unread.drop count) else .error .unexpectedEnd unread := by
  by_cases enough : count ≤ unread.length <;> simp only [take, Bytes.split?_eq, enough, if_true, if_false]

theorem take_exact (count : Nat) : Exact (take count) := by
  refine ⟨take_suffix count, fun unread more => ?_⟩
  change Stands more (take count unread) (take count (unread ++ more))
  rw [take_eq, take_eq, List.length_append]
  split
  next enough =>
    rw [if_pos (by omega), List.take_append_of_le_length enough, List.drop_append_of_le_length enough]
    exact .read
  next short =>
    refine .cutOff fun value rest read => ?_
    split at read
    · cases read
      change (List.drop count (unread ++ more)).length < more.length
      rw [List.length_drop, List.length_append]
      omega
    · cases read

theorem byte_exact : Exact byte := by
  refine ⟨fun unread => (byte_cons unread).imp fun first rest front => ?_, fun unread more => ?_⟩
  · exact front ▸ List.suffix_cons first rest
  cases unread with
  | nil =>
    refine .cutOff fun value rest read => ?_
    cases byte_cons more value rest read
    exact Nat.lt_succ_self _
  | cons first rest => exact .read

theorem natural_shorter {width : Nat} (positive : 0 < width) (unread : Bytes) :
    Ensures (natural width) unread fun _ rest => rest.length < unread.length := by
  refine .bind fun taken rest read => .pure ?_
  rw [take_eq] at read
  split at read
  · cases read
    rw [List.length_drop]
    omega
  · cases read

theorem double_exact : Exact double :=
  (take_exact 8).map _

theorem text_exact (bytes : Nat) : Exact (text bytes) :=
  (take_exact bytes).map _

end Reader

namespace Amf3

theorem raw_exact {α : Type} {reader : Amf.Reader α} (exact : Exact reader) : Exact (raw reader) := by
  refine ⟨fun state => raw_ensures (exact.suffix state.unread), fun state more => ?_⟩
  have placed : ∀ start, raw reader start =
      outcome ({ start with unread := · }) ({ start with unread := · }) (reader start.unread) := by
    intro start
    rw [raw]
    cases reader start.unread <;> rfl
  rw [placed, placed]
  exact (exact.stands state.unread more).outcome (fun _ => rfl) fun _ => rfl

theorem groups_exact (more high : Nat) : Exact (groups Reader.byte more high) := by
  induction more generalizing high with
  | zero => exact Reader.byte_exact.map _
  | succ more ih =>
    refine Reader.byte_exact.bind fun byte => ?_
    dsimp only
    split
    · exact .pure _
    · exact ih _

theorem entry_exact {α : Type} {table : State → Array α} (same : ∀ state more, table (extend state more) = table state)
    (index : Nat) : Exact (entry table index) := by
  refine ⟨fun state => (entry_advances table index state).imp fun _ _ further => further.suffix, fun state more => ?_⟩
  have looked : ∀ start : State, (MonadState.get : Reader State) start = .ok start start := fun _ => rfl
  unfold entry
  rw [run_bind_ok (looked state), run_bind_ok (looked (extend state more)), same]
  cases (table state)[index]? with
  | some held => exact .read
  | none => exact .refused nofun

section Parts
variable (refer : (index : Nat) → Reader Value)

theorem string_shorter (state : State) :
    Ensures (partsVia refer).string state fun _ rest => rest.unread.length < state.unread.length := by
  have began : Ensures (partsVia refer).u29 state fun _ middle => middle.unread.length < state.unread.length :=
    raw_ensures ((u29_shorter state.unread).imp fun _ _ shorter => shorter.2)
  refine .bind (began.imp fun header middle shorter => ?_)
  split
  · exact (entry_advances _ _ middle).imp fun _ _ further => Nat.lt_of_le_of_lt further.suffix.length_le shorter
  refine .bind ((text_advances refer _ middle).imp fun text rest further => ?_)
  have kept := (further.trans (advances_withString text rest)).suffix.length_le
  exact .bind (.modify (.pure (Nat.lt_of_le_of_lt kept shorter)))

theorem name_naming (exact : Exact (partsVia refer).name) : Exact.Naming (partsVia refer).name where
  exact := exact
  ends state empty := by
    obtain ⟨unread, strings, objects, traits⟩ := state
    cases (show unread = [] from empty)
    rfl
  shorter state := .bind ((string_shorter refer state).imp fun _ _ shorter => .pure shorter)

end Parts

theorem withString_unread (text : String) (state : State) : (state.withString text).unread = state.unread := by
  unfold State.withString
  split <;> rfl

theorem withString_extend (text : String) (state : State) (more : Bytes) :
    (extend state more).withString text = extend (state.withString text) more := by
  unfold State.withString
  split <;> rfl

theorem container_exact {inside : Reader Value} (exact : Exact inside) : Exact (container inside) := by
  have reserved : Exact reserve := by
    refine .bind (.modify ?_ fun _ _ => rfl) fun _ => .get fun _ _ => rfl
    exact fun _ => rfl
  refine reserved.bind fun slot => exact.bind fun value => Exact.map (.modify ?_ fun _ _ => rfl) _
  exact fun _ => rfl

theorem parts_exact : Parts.Alike (exactly State) parts parts where
  refuse := .throw
  repeated exact count := exact.repeatedFrom count #[]
  entries names values := .entries (name_naming _ names) values
  u29 := raw_exact (groups_exact 3 0)
  double := raw_exact Reader.double_exact
  text size := raw_exact (Reader.text_exact size)
  stringAt := entry_exact fun _ _ => rfl
  keepString text := .modify (withString_unread text) (withString_extend text)
  traitsAt := entry_exact fun _ _ => rfl
  keepTraits _ := .modify (fun _ => rfl) fun _ _ => rfl
  objectAt := entry_exact fun _ _ => rfl
  keepObject _ := .modify (fun _ => rfl) fun _ _ => rfl
  container := container_exact

theorem value_exact (room : Nat) : Exact (Amf3.value room) := by
  induction room with
  | zero => exact .throw _
  | succ room ih =>
    have values : (exactly State).Takes (Amf3.value room) (Amf3.value room) := ih
    exact (raw_exact Reader.byte_exact).bind fun marker => parts_exact.marked values marker

end Amf3

namespace Amf0

theorem name_naming (exact : Exact parts.name) : Exact.Naming parts.name where
  exact := exact
  ends unread empty := by
    cases (show unread = [] from empty)
    rfl
  shorter unread := by
    refine .bind (.bind ((Reader.natural_shorter (by decide) unread).imp fun size middle shorter => ?_))
    refine (Reader.text_suffix size middle).imp fun text rest further => ?_
    have spent := Nat.lt_of_le_of_lt further.length_le shorter
    split
    · refine .bind ((Reader.byte_cons rest).imp fun marker left front => ?_)
      have last : left.length < rest.length := front ▸ Nat.lt_succ_self left.length
      split
      · exact .pure (last.trans spent)
      · exact .throw
    · exact .pure spent

theorem parts_exact : Parts.Alike (exactly Bytes) parts parts where
  refuse := .throw
  repeated exact count := exact.repeatedFrom count #[]
  entries names values := .entries (name_naming names) values
  take := Reader.take_exact
  takes count _ := Reader.take_exact count
  byte := Reader.byte_exact

theorem escaped_exact (room : Nat) : Exact (escaped room) := by
  refine ⟨fun unread => ?_, fun unread more => ?_⟩
  · intro value rest read
    rw [escaped, escapedVia] at read
    split at read
    next found state there =>
      cases read
      exact (Amf3.value_exact room).suffix (.ofBytes unread) _ _ there
    next => cases read
  · have placed : ∀ start, escaped room start =
        outcome Amf3.State.unread (fun _ => start) (Amf3.value room (.ofBytes start)) := by
      intro start
      rw [escaped, escapedVia, ← Amf3.value]
      cases Amf3.value room (.ofBytes start) <;> rfl
    rw [placed, placed]
    exact ((Amf3.value_exact room).stands (.ofBytes unread) more).outcome (fun _ => rfl) fun _ => rfl

theorem value_exact (room : Nat) : Exact (value room) := by
  induction room with
  | zero => exact .throw _
  | succ room ih =>
    have values : (exactly Bytes).Takes (value room) (value room) := ih
    have escapes : (exactly Bytes).Alike (escaped room) (escaped room) := escaped_exact room
    exact Reader.byte_exact.bind fun byte => parts_exact.marked values escapes byte

theorem next_exact : Exact next :=
  value_exact maxDepth

end Amf0

section Cutting
variable {α : Type} {reader : Reader α} {value : α} {bytes rest : Bytes}

theorem read_alone (exact : Exact reader) (read : reader bytes = .ok value rest) :
    ∃ taken, bytes = taken ++ rest ∧ ∀ more, reader (taken ++ more) = .ok value more := by
  obtain ⟨taken, rfl⟩ := exact.suffix bytes value rest read
  have compared := exact.stands taken rest
  change Stands rest (reader taken) (reader (taken ++ rest)) at compared
  rw [show reader (taken ++ rest) = .ok value rest from read] at compared
  refine ⟨taken, rfl, fun more => ?_⟩
  cases alone : reader taken with
  | ok found left =>
    rw [alone] at compared
    have same := compared.of_read
    simp only [EStateM.Result.ok.injEq] at same
    obtain ⟨rfl, longer⟩ := same
    have nothing : left = [] := List.append_left_eq_self.mp longer.symm
    subst nothing
    have further := exact.stands taken more
    rw [alone] at further
    exact further.of_read
  | error error left =>
    rw [alone] at compared
    cases compared with
    | cutOff further => exact absurd (further value rest rfl) (Nat.lt_irrefl _)

theorem cut_short (exact : Exact reader) {part missing : Bytes} (some : missing ≠ [])
    (alone : reader (part ++ missing) = .ok value []) : ∃ left, reader part = .error .unexpectedEnd left := by
  have compared := exact.stands part missing
  change Stands missing (reader part) (reader (part ++ missing)) at compared
  rw [alone] at compared
  cases read : reader part with
  | ok found left =>
    rw [read] at compared
    have same := compared.of_read
    simp only [EStateM.Result.ok.injEq] at same
    exact absurd (List.append_eq_nil_iff.mp same.2.symm).2 some
  | error error left =>
    rw [read] at compared
    cases compared with
    | cutOff => exact ⟨left, rfl⟩

end Cutting

/-- What a reader of one value answers, with the number of bytes it took for it. -/
def measured (reader : Reader Value) (bytes : Bytes) : Except Error (Value × Nat) :=
  match reader bytes with
  | .ok value rest => .ok (value, bytes.length - rest.length)
  | .error error _ => .error error

/-- An answer depends on the bytes it counts and on no others, and needs all of them. A refusal that was not for want of
bytes does not depend on what follows either. -/
structure PrefixExact (decode : Bytes → Except Error (Value × Nat)) : Prop where
  bounded : ∀ bytes value size, decode bytes = .ok (value, size) → 1 ≤ size ∧ size ≤ bytes.length
  alone : ∀ bytes value size, decode bytes = .ok (value, size) →
    ∀ more, decode (bytes.take size ++ more) = .ok (value, size)
  short : ∀ bytes value size, decode bytes = .ok (value, size) →
    ∀ fewer < size, decode (bytes.take fewer) = .error .unexpectedEnd
  final : ∀ bytes error, decode bytes = .error error → error ≠ .unexpectedEnd →
    ∀ more, decode (bytes ++ more) = .error error

section Measured
variable {reader : Reader Value} {bytes : Bytes} {value : Value} {size : Nat}

theorem measured_taken (exact : Exact reader) (read : measured reader bytes = .ok (value, size)) :
    ∃ taken rest, bytes = taken ++ rest ∧ size = taken.length ∧ ∀ more, reader (taken ++ more) = .ok value more := by
  rw [measured] at read
  split at read
  next found rest there =>
    cases read
    obtain ⟨taken, rfl, alone⟩ := read_alone exact there
    exact ⟨taken, rest, rfl, by rw [List.length_append, Nat.add_sub_cancel], alone⟩
  next => cases read

theorem measured_exact (exact : Exact reader) (empty : ∀ value rest, reader [] ≠ .ok value rest) :
    PrefixExact (measured reader) where
  bounded bytes value size read := by
    obtain ⟨taken, rest, rfl, rfl, alone⟩ := measured_taken exact read
    refine ⟨List.length_pos_iff.mpr fun nothing => ?_, by rw [List.length_append]; omega⟩
    subst nothing
    exact empty value [] (alone [])
  alone bytes value size read more := by
    obtain ⟨taken, rest, rfl, rfl, alone⟩ := measured_taken exact read
    rw [List.take_left, measured, alone more]
    simp only [List.length_append, Nat.add_sub_cancel]
  short bytes value size read fewer less := by
    obtain ⟨taken, rest, rfl, rfl, alone⟩ := measured_taken exact read
    have whole : reader (taken.take fewer ++ taken.drop fewer) = .ok value [] := by
      rw [List.take_append_drop, ← List.append_nil taken]
      exact alone []
    have some : taken.drop fewer ≠ [] := by
      rw [Ne, List.drop_eq_nil_iff]
      omega
    obtain ⟨left, refused⟩ := cut_short exact some whole
    rw [List.take_append_of_le_length (Nat.le_of_lt less), measured, refused]
  final bytes error refused last more := by
    rw [measured] at refused
    split at refused
    next => cases refused
    next other left there =>
      cases refused
      have compared := exact.stands bytes more
      rw [there] at compared
      obtain ⟨after, same⟩ := compared.of_refused last
      rw [measured, show reader (bytes ++ more) = .error error after from same]

end Measured

namespace Amf0

/-- Each value is read where the one before it ends, as if the input began there. -/
inductive Batched : Bytes → Except Error (List Value) → Prop where
  | done : Batched [] (.ok [])
  | refused {bytes left : Bytes} {error : Error} (unfinished : bytes ≠ []) (refused : next bytes = .error error left) :
      Batched bytes (.error error)
  | value {bytes rest : Bytes} {value : Value} {answer : Except Error (List Value)}
      (read : next bytes = .ok value rest) (further : Batched rest answer) :
      Batched bytes (answer.map (value :: ·))

theorem nothing_to_read (value : Value) (rest : Bytes) : next [] ≠ .ok value rest :=
  fun read => nomatch read

theorem next_shorter {bytes rest : Bytes} {value : Value} (read : next bytes = .ok value rest) :
    rest.length < bytes.length := by
  obtain ⟨taken, rfl, alone⟩ := read_alone next_exact read
  have some : taken ≠ [] := by
    rintro rfl
    exact nothing_to_read value [] (alone [])
  rw [List.length_append]
  have := List.length_pos_iff.mpr some
  omega

theorem exists_batched (bytes : Bytes) : ∃ answer, Batched bytes answer := by
  by_cases finished : bytes = []
  · subst finished
    exact ⟨_, .done⟩
  cases read : next bytes with
  | error error left => exact ⟨_, .refused finished read⟩
  | ok value rest =>
    have shorter := next_shorter read
    obtain ⟨answer, further⟩ := exists_batched rest
    exact ⟨_, .value read further⟩
termination_by bytes.length

theorem valuesFrom_more (round : UInt8) (rounds : Bytes) (held : Array Value) {bytes : Bytes} (unfinished : bytes ≠ []) :
    valuesFrom next (round :: rounds) held bytes =
      (next >>= fun value => valuesFrom next rounds (held.push value)) bytes := by
  have some : bytes.isEmpty = false := by simpa using unfinished
  change (if bytes.isEmpty then (pure held.toList : Reader (List Value))
    else next >>= fun value => valuesFrom next rounds (held.push value)) bytes = _
  rw [some]
  rfl

/-- What was collected goes before what is still read, and there are rounds enough for it. -/
theorem Batched.collected {bytes : Bytes} {answer : Except Error (List Value)} (batched : Batched bytes answer) :
    ∀ (rounds : Bytes) (held : Array Value), bytes.length ≤ rounds.length →
      (match valuesFrom next rounds held bytes with
        | .ok values _ => .ok values
        | .error error _ => .error error) = answer.map (held.toList ++ ·) := by
  induction batched with
  | done =>
    intro rounds held _
    have last : valuesFrom next rounds held [] = .ok held.toList [] := by cases rounds <;> rfl
    rw [last, Except.map, List.append_nil]
  | refused unfinished refused =>
    intro rounds held enough
    cases rounds with
    | nil => exact absurd (List.eq_nil_of_length_eq_zero (Nat.le_zero.mp enough)) unfinished
    | cons round rounds => rw [valuesFrom_more _ _ _ unfinished, run_bind_error refused, Except.map]
  | value read further ih =>
    rename_i bytes rest value answer
    intro rounds held enough
    have shorter := next_shorter read
    cases rounds with
    | nil => exact absurd (Nat.lt_of_lt_of_le shorter enough) (Nat.not_lt_zero _)
    | cons round rounds =>
      have unfinished : bytes ≠ [] := List.length_pos_iff.mp (Nat.zero_lt_of_lt shorter)
      rw [List.length_cons] at enough
      rw [valuesFrom_more _ _ _ unfinished, run_bind_ok read, ih rounds (held.push value) (by omega)]
      cases answer with
      | error error => rfl
      | ok values => simp only [Except.map, Array.toList_push, List.append_assoc, List.singleton_append]

theorem Batched.decoded {bytes : Bytes} {answer : Except Error (List Value)} (batched : Batched bytes answer) :
    decodeBatch bytes = answer := by
  have collected := batched.collected bytes #[] (Nat.le_refl _)
  change decodeBatch bytes = _ at collected
  rw [collected]
  cases answer <;> rfl

theorem batched_decodeBatch (bytes : Bytes) : Batched bytes (decodeBatch bytes) := by
  obtain ⟨answer, batched⟩ := exists_batched bytes
  rwa [batched.decoded]

theorem decodeBatch_next {bytes rest : Bytes} {value : Value} (read : next bytes = .ok value rest) :
    decodeBatch bytes = (decodeBatch rest).map (value :: ·) :=
  (Batched.value read (batched_decodeBatch rest)).decoded

theorem Batched.append {first : Bytes} {answer : Except Error (List Value)} (batched : Batched first answer)
    (more : Bytes) : ∀ values, answer = .ok values →
      decodeBatch (first ++ more) = (decodeBatch more).map (values ++ ·) := by
  induction batched with
  | done =>
    rintro values ⟨⟩
    rw [List.nil_append]
    cases decodeBatch more <;> rfl
  | refused => exact fun values never => nomatch never
  | value read further ih =>
    rename_i bytes rest value answer
    intro values read
    cases answer with
    | error error => cases read
    | ok following =>
      cases read
      have again : next (bytes ++ more) = .ok value (rest ++ more) := by
        have stands := next_exact.stands bytes more
        rw [‹next bytes = _›] at stands
        exact stands.of_read
      rw [decodeBatch_next again, ih following rfl]
      cases decodeBatch more <;> rfl

/-- An answer of the decoder, and of the newer one behind its marker, depends on the bytes it counts and on no others, and
needs all of them. So a list of values may be cut between any two of them, and nothing of those before, tables included,
reaches those behind the cut. -/
theorem decoders_are_prefix_exact :
    PrefixExact decode ∧ (∀ room, PrefixExact (measured (escaped room))) ∧
    ∀ first values, decodeBatch first = .ok values →
      ∀ more, decodeBatch (first ++ more) = (decodeBatch more).map (values ++ ·) := by
  refine ⟨measured_exact next_exact nothing_to_read, fun room => ?_, fun first values read more => ?_⟩
  · refine measured_exact (escaped_exact room) fun value rest read => ?_
    cases room <;> cases read
  · exact (batched_decodeBatch first).append more values read

/-- Two texts in the newer encoding, the second of which refers to the first. -/
def referring : Bytes :=
  [0x11, 0x09, 0x05, 0x01, 0x06, 0x03, 0x61, 0x06, 0x00]

/-- No part of the value is enough for it. The same reference behind the value finds nothing, whatever follows. -/
theorem tables_end_with_value :
    decode referring = .ok (.strictArray [.string "a", .string "a"], 9) ∧
    (∀ fewer < 9, decode (referring.take fewer) = .error .unexpectedEnd) ∧
    (∀ more, decode ([0x11, 0x06, 0x00] ++ more) = .error (.invalidReference 0)) ∧
    decodeBatch (referring ++ [0x11, 0x06, 0x00]) = .error (.invalidReference 0) := by
  have whole : decode referring = .ok (.strictArray [.string "a", .string "a"], 9) := rfl
  have dangling : decode [0x11, 0x06, 0x00] = .error (.invalidReference 0) := rfl
  have batch : decodeBatch referring = .ok [.strictArray [.string "a", .string "a"]] := rfl
  obtain ⟨single, -, several⟩ := decoders_are_prefix_exact
  refine ⟨whole, single.short _ _ _ whole, single.final _ _ dangling nofun, ?_⟩
  rw [several referring _ batch [0x11, 0x06, 0x00]]
  rfl

end Amf0
end RtmpRelay.Amf
