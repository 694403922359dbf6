import RtmpRelay.Proofs.Journal
import RtmpRelay.Proofs.Likeness

/-! The reader of the newer encoding with a journal beside it. It is put together from the same steps, each of which notes
what it has done; without the journal these are the steps of the reader. -/

namespace RtmpRelay.Amf.Amf3

structure Recording where
  state : State
  journal : Journal

abbrev Recorder := EStateM Error Recording

/-- Reads without a note. -/
def quiet (reader : Reader α) : Recorder α := fun recording =>
  match reader recording.state with
  | .ok value state => .ok value { recording with state }
  | .error error state => .error error { recording with state }

def Recording.noted (recording : Recording) (event : Event) (state : State) : Recording :=
  ⟨state, ⟨event, state⟩ :: recording.journal⟩

/-- Changes the state, and notes what it was changed for. -/
def record (event : State → Event) (change : State → State) : Recorder Unit :=
  modify fun recording => recording.noted (event recording.state) (change recording.state)

def note (event : Event) : Recorder Unit :=
  record (fun _ => event) id

namespace Recorded

def entry (name : Table) (table : State → Array α) (event : Nat → α → Event) (index : Nat) : Recorder α := do
  match (table (← get).state)[index]? with
  | some held =>
    note (event index held)
    return held
  | none =>
    note (.dangling name index)
    throw (.invalidReference index)

def reserve : Recorder Nat := do
  record (fun state => .opened state.objects.size) (State.withObject .null)
  return (← get).state.objects.size - 1

def fill (slot : Nat) (value : Value) : Recorder Unit :=
  record (fun _ => .finished slot value) fun state =>
    { state with objects := state.objects.setIfInBounds slot value }

def container (inside : Recorder Value) : Recorder Value := do
  let slot ← reserve
  let value ← inside
  fill slot value
  return value

def parts : Parts Recorder where
  toLoops := loops fun recording => recording.state.unread
  u29 := quiet (raw (u29 Reader.byte))
  double := quiet (raw Reader.double)
  text size := quiet (raw (Reader.text size))
  stringAt := entry .strings State.strings .spelledBefore
  keepString text := record (fun _ => .spelled text) (State.withString text)
  traitsAt := entry .traits State.traits .declaredBefore
  keepTraits traits := record (fun _ => .declared traits) (State.withTraits traits)
  objectAt := entry .objects State.objects .referred
  keepObject value := record (fun state => .kept state.objects.size value) (State.withObject value)
  container := container

/-- Each value is noted as it is returned to the reader of the container around it. -/
def value : (room : Nat) → Recorder Value
  | 0 => throw .nestingTooDeep
  | room + 1 => do
    let result ← parts.marked (value room) (← quiet (raw Reader.byte))
    note (.returned result)
    return result

end Recorded

/-- What is left of an outcome without the journal. -/
def unrecorded : EStateM.Result Error Recording α → EStateM.Result Error State α
  | .ok value recording => .ok value recording.state
  | .error error recording => .error error recording.state

def Erases (recorder : Recorder α) (reader : Reader α) : Prop :=
  ∀ recording, unrecorded (recorder recording) = reader recording.state

namespace Erases
variable {recorder : Recorder α} {reader : Reader α}

theorem pure (value : α) : Erases (pure value) (pure value) :=
  fun _ => rfl

theorem throw (error : Error) : Erases (throw error : Recorder α) (throw error) :=
  fun _ => rfl

theorem bind {next : α → Recorder β} {following : α → Reader β} (first : Erases recorder reader)
    (second : ∀ value, Erases (next value) (following value)) : Erases (recorder >>= next) (reader >>= following) := by
  intro recording
  have began := first recording
  simp only [Bind.bind, EStateM.bind]
  cases ran : recorder recording with
  | ok value middle =>
    rw [ran] at began
    rw [← began]
    exact second value middle
  | error error middle =>
    rw [ran] at began
    rw [← began]
    rfl

theorem map (first : Erases recorder reader) (change : α → β) :
    Erases (recorder >>= fun value => Pure.pure (change value)) (reader >>= fun value => Pure.pure (change value)) :=
  first.bind fun value => .pure (change value)

theorem quiet (reader : Reader α) : Erases (Amf3.quiet reader) reader := by
  intro recording
  rw [Amf3.quiet]
  cases reader recording.state <;> rfl

theorem record (event : State → Event) (change : State → State) : Erases (Amf3.record event change) (modify change) :=
  fun _ => rfl

theorem noted (erases : Erases recorder reader) (event : α → Event) :
    Erases (recorder >>= fun value => do note (event value); return value) reader := by
  have both : Erases (recorder >>= fun value => do note (event value); return value) (reader >>= Pure.pure) :=
    erases.bind fun _ _ => rfl
  rwa [bind_pure] at both

theorem get {recorder : Recording → Recorder α} {reader : State → Reader α}
    (erases : ∀ recording, Erases (recorder recording) (reader recording.state)) :
    Erases (MonadState.get >>= recorder) (MonadState.get >>= reader) :=
  fun recording => erases recording recording

theorem repeatedFrom (erases : Erases recorder reader) (count : Nat) (held : Array α) :
    Erases (repeatedFrom recorder count held) (repeatedFrom reader count held) := by
  induction count generalizing held with
  | zero => exact .pure _
  | succ count ih => exact erases.bind fun next => ih (held.push next)

theorem entriesFrom {names : Recorder (Option String)} {values : Recorder Value} {name : Reader (Option String)}
    {value : Reader Value} (first : Erases names name) (second : Erases values value) (rounds : Bytes)
    (held : Array (String × Value)) :
    Erases (entriesFrom names values rounds held) (entriesFrom name value rounds held) := by
  induction rounds generalizing held with
  | nil => exact .throw _
  | cons round rounds ih =>
    refine first.bind fun key => ?_
    cases key with
    | none => exact .pure _
    | some key => exact second.bind fun next => ih (held.push (key, next))

end Erases

namespace Recorded

end Recorded

def answer {σ : Type} : EStateM.Result Error σ α → Except Error α × σ
  | .ok value after => (.ok value, after)
  | .error error after => (.error error, after)

/-- So many calls on one reader, which goes on after a refusal where that left it. -/
def calls (reader : Reader Value) : Nat → State → List (Except Error Value) × State
  | 0, state => ([], state)
  | count + 1, state =>
    let (first, after) := answer (reader state)
    let (others, last) := calls reader count after
    (first :: others, last)

end RtmpRelay.Amf.Amf3
