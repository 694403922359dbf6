import RtmpRelay.Proofs.Recording
import RtmpRelay.Proofs.Sharing

/-! The tables of the newer encoding are stable. Every recorded reader keeps the journal orderly, however it ends, and
finishes no index that was assigned before it began; that is all a container has to know of its members, and what is
stable in an orderly journal is stable in the tables. -/

namespace RtmpRelay.Amf.Amf3

structure Recording.Sound (recording : Recording) : Prop where
  orderly : Orderly recording.journal
  tables : recording.state.tables = told recording.journal

namespace Recording.Sound
variable {recording : Recording}

theorem noted (sound : recording.Sound) {event : Event} {state : State}
    (meets : ∀ other, expects recording.journal = some other → event = other)
    (tables : state.tables = event.after recording.state.tables) (fits : event.Fits recording.journal) :
    (recording.noted event state).Sound := by
  have followed : state.tables = told (⟨event, state⟩ :: recording.journal) := by
    rw [tables, sound.tables]
    rfl
  exact ⟨⟨⟨followed, fits, meets⟩, sound.orderly⟩, followed⟩

end Recording.Sound

/-- The event fills no index below the size and ends no call. -/
def Event.Spares (size : Nat) : Event → Prop
  | .finished index _ => size ≤ index
  | .answered _ => False
  | _ => True

theorem Event.Spares.lower {event : Event} {size smaller : Nat} (spares : event.Spares size) (less : smaller ≤ size) :
    event.Spares smaller := by
  cases event with
  | finished index value => exact less.trans spares
  | _ => exact spares

/-- Nothing is left open. -/
def nothing : Event → Prop :=
  fun _ => False

/-- What has been added to a recording since it stood at the start: nothing that touches an index from before, and these
values have been returned meanwhile. If it is settled what has to happen next, it is something allowed. -/
structure Grown (allowed : Event → Prop) (start : Recording) (values : List Value) (recording : Recording) : Prop where
  sound : recording.Sound
  pending : ∀ event, expects recording.journal = some event → allowed event
  grown : ∃ new, recording.journal = new ++ start.journal ∧
    (∀ moment ∈ new, moment.event.Spares (told start.journal).objects.length) ∧
    ∀ value ∈ values, Happened new (.returned value)

namespace Grown
variable {allowed wider : Event → Prop} {start middle recording : Recording} {values further : List Value}

theorem unchanged (sound : start.Sound) (pending : ∀ event, expects start.journal = some event → allowed event) :
    Grown allowed start [] start :=
  ⟨sound, pending, [], rfl, fun _ never => (nomatch never), fun _ never => (nomatch never)⟩

theorem again (grown : Grown allowed start values recording) : Grown allowed recording [] recording :=
  .unchanged grown.sound grown.pending

theorem trans (first : Grown nothing start values middle) (second : Grown allowed middle further recording) :
    Grown allowed start (values ++ further) recording := by
  obtain ⟨new, same, spares, returned⟩ := first.grown
  obtain ⟨newer, also, spared, later⟩ := second.grown
  have larger : (told start.journal).objects.length ≤ (told middle.journal).objects.length :=
    same ▸ length_told_le new start.journal
  refine ⟨second.sound, second.pending, newer ++ new, by rw [also, same, List.append_assoc], ?_, ?_⟩
  · exact List.forall_mem_append.mpr ⟨fun moment member => (spared moment member).lower larger, spares⟩
  · exact List.forall_mem_append.mpr ⟨fun value member => happened_append.mpr (.inr (returned value member)),
      fun value member => happened_append.mpr (.inl (later value member))⟩

theorem allow (grown : Grown allowed start values recording) (wide : ∀ event, allowed event → wider event) :
    Grown wider start values recording :=
  ⟨grown.sound, fun event expected => wide event (grown.pending event expected), grown.grown⟩

theorem fewer (grown : Grown allowed start values recording) (less : further ⊆ values) :
    Grown allowed start further recording := by
  obtain ⟨new, same, floor, returned⟩ := grown.grown
  exact ⟨grown.sound, grown.pending, new, same, floor, fun value member => returned value (less member)⟩

theorem unread (grown : Grown allowed start values recording) (bytes : Bytes) :
    Grown allowed start values { recording with state := { recording.state with unread := bytes } } :=
  ⟨⟨grown.sound.orderly, grown.sound.tables⟩, grown.pending, grown.grown⟩

theorem noted (grown : Grown nothing start values recording) {event : Event} {state : State}
    (tables : state.tables = event.after recording.state.tables) (fits : event.Fits recording.journal)
    (spares : event.Spares (told start.journal).objects.length)
    (next : ∀ other, event.next? = some other → allowed other) :
    Grown allowed start [] (recording.noted event state) := by
  obtain ⟨new, same, before, -⟩ := grown.grown
  refine ⟨grown.sound.noted (fun other expected => (grown.pending other expected).elim) tables fits, next,
    ⟨event, state⟩ :: new, congrArg _ same, ?_, fun _ never => (nomatch never)⟩
  exact List.forall_mem_cons.mpr ⟨spares, before⟩

theorem returned {value : Value} (grown : Grown (· = .returned value) start values recording) :
    Grown nothing start [value] (recording.noted (.returned value) recording.state) := by
  obtain ⟨new, same, before, -⟩ := grown.grown
  refine ⟨grown.sound.noted (fun other expected => (grown.pending other expected).symm) rfl trivial,
    fun _ never => (nomatch never), _ :: new, congrArg _ same, ?_, ?_⟩
  · exact List.forall_mem_cons.mpr ⟨trivial, before⟩
  · exact List.forall_mem_singleton.mpr (happened_cons.mpr (.inl rfl))

end Grown

/-- What holds however a reading from the given recording ends. -/
def Ends (recorder : Recorder α) (start : Recording) (post : α → Recording → Prop)
    (broken : Error → Recording → Prop) : Prop :=
  match recorder start with
  | .ok value rest => post value rest
  | .error error rest => broken error rest

namespace Ends
variable {start : Recording} {post : α → Recording → Prop} {broken : Error → Recording → Prop}

theorem pure {value : α} (holds : post value start) : Ends (pure value) start post broken :=
  holds

theorem throw {error : Error} (holds : broken error start) : Ends (throw error) start post broken :=
  holds

theorem any {recorder : Recorder α} : Ends recorder start (fun _ _ => True) fun _ _ => True := by
  unfold Ends
  split <;> trivial

theorem bind {first : Recorder β} {next : β → Recorder α}
    (begins : Ends first start (fun value rest => Ends (next value) rest post broken) broken) :
    Ends (first >>= next) start post broken := by
  unfold Ends at begins ⊢
  simp only [Bind.bind, EStateM.bind]
  cases ran : first start with
  | ok value rest =>
    rw [ran] at begins
    exact begins
  | error error rest =>
    rw [ran] at begins
    exact begins

theorem get {next : Recording → Recorder α} (holds : Ends (next start) start post broken) :
    Ends (MonadState.get >>= next) start post broken :=
  holds

theorem imp {recorder : Recorder α} {post' : α → Recording → Prop} {broken' : Error → Recording → Prop}
    (ends : Ends recorder start post broken) (good : ∀ value rest, post value rest → post' value rest)
    (bad : ∀ error rest, broken error rest → broken' error rest) : Ends recorder start post' broken' := by
  unfold Ends at ends ⊢
  cases ran : recorder start with
  | ok value rest =>
    rw [ran] at ends
    exact good value rest ends
  | error error rest =>
    rw [ran] at ends
    exact bad error rest ends

/-- What fails, fails the same way as a part of more. -/
theorem follow {first : Recorder β} {next : β → Recorder α} {one : β → Recording → Prop}
    (begins : Ends first start one broken)
    (goesOn : ∀ value rest, one value rest → Ends (next value) rest post broken) :
    Ends (first >>= next) start post broken :=
  .bind (begins.imp goesOn fun _ _ failed => failed)

theorem record {event : State → Event} {change : State → State} {post : Unit → Recording → Prop}
    (holds : post () (start.noted (event start.state) (change start.state))) :
    Ends (record event change) start post broken :=
  holds

theorem quiet {reader : Amf.Reader α}
    (good : ∀ value bytes, post value { start with state := { start.state with unread := bytes } })
    (bad : ∀ error bytes, broken error { start with state := { start.state with unread := bytes } }) :
    Ends (quiet (raw reader)) start post broken := by
  unfold Ends
  simp only [Amf3.quiet, raw]
  cases reader start.state.unread with
  | ok value bytes => exact good value bytes
  | error error bytes => exact bad error bytes

end Ends

/-- A reading that leaves nothing open, and returns these values on its way. If it fails, all that can follow is that
this is answered. -/
def Records (recorder : Recorder α) (values : α → List Value) : Prop :=
  ∀ start, Grown nothing start [] start →
    Ends recorder start (fun result => Grown nothing start (values result))
      fun error => Grown (· = .answered (.error error)) start []

namespace Records
variable {recorder : Recorder α} {values : α → List Value}

theorem go (records : Records recorder values) {start middle : Recording} {before : List Value}
    (grown : Grown nothing start before middle) :
    Ends recorder middle (fun result => Grown nothing start (before ++ values result))
      fun error => Grown (· = .answered (.error error)) start [] :=
  (records middle grown.again).imp (fun _ _ further => grown.trans further)
    fun _ _ failed => (grown.trans failed).fewer (List.nil_subset _)

theorem pure {value : α} (empty : values value = []) : Records (Pure.pure value) values :=
  fun start ready => .pure (show Grown nothing start (values value) start from empty ▸ ready)

theorem throw (error : Error) : Records (throw error : Recorder α) values :=
  fun _ ready => .throw (ready.allow fun _ never => never.elim)

theorem after {first : Recorder β} {next : β → Recorder α} {early : β → List Value} (begins : Records first early)
    (goesOn : ∀ value, Records (next value) values) : Records (first >>= next) values := by
  intro start ready
  refine (begins start ready).follow fun value middle grown => ?_
  exact ((goesOn value).go grown).imp (fun _ _ further => further.fewer (List.subset_append_right _ _))
    fun _ _ failed => failed

theorem map {first : Recorder β} {change : β → α} {early : β → List Value} (begins : Records first early)
    (covers : ∀ value, values (change value) ⊆ early value) :
    Records (first >>= fun value => Pure.pure (change value)) values := by
  intro start ready
  refine (begins start ready).follow fun value middle grown => ?_
  exact .pure (grown.fewer (covers value))

theorem get {next : Recording → Recorder α} (records : ∀ recording, Records (next recording) values) :
    Records (MonadState.get >>= next) values :=
  fun start ready => .get (records start start ready)

theorem quiet (reader : Amf.Reader α) : Records (Amf3.quiet (raw reader)) fun _ => [] :=
  fun _ ready => .quiet (fun _ bytes => ready.unread bytes)
    fun _ bytes => (ready.unread bytes).allow fun _ never => never.elim

theorem repeatedFrom (records : Records recorder values) (count : Nat) (held : Array α) {start middle : Recording}
    (grown : Grown nothing start (held.toList.flatMap values) middle) :
    Ends (repeatedFrom recorder count held) middle (fun items => Grown nothing start (items.flatMap values))
      fun error => Grown (· = .answered (.error error)) start [] := by
  induction count generalizing held middle with
  | zero => exact .pure grown
  | succ count ih =>
    refine (records.go grown).follow fun next rest further => ih (held.push next) ?_
    rw [Array.toList_push, List.flatMap_append, List.flatMap_singleton]
    exact further

theorem repeated (records : Records recorder values) (count : Nat) :
    Records (repeated recorder count) fun items => items.flatMap values :=
  fun _ ready => records.repeatedFrom count #[] ready

theorem entriesFrom {names : Recorder (Option String)} {item : Recorder Value} (first : Records names fun _ => [])
    (second : Records item fun value => [value]) (rounds : Bytes) (held : Array (String × Value))
    {start middle : Recording} (grown : Grown nothing start (held.toList.map Prod.snd) middle) :
    Ends (entriesFrom names item rounds held) middle (fun pairs => Grown nothing start (pairs.map Prod.snd))
      fun error => Grown (· = .answered (.error error)) start [] := by
  induction rounds generalizing held middle with
  | nil => exact .throw ((grown.fewer (List.nil_subset _)).allow fun _ never => never.elim)
  | cons round rounds ih =>
    refine (first.go grown).follow fun key rest named => ?_
    rw [List.append_nil] at named
    cases key with
    | none => exact .pure named
    | some key =>
      refine (second.go named).follow fun next last further => ?_
      refine ih (held.push (key, next)) ?_
      rw [Array.toList_push, List.map_append]
      exact further

theorem mapM {items : List β} {recorder : β → Recorder α} (records : ∀ item, Records (recorder item) values) :
    Records (items.mapM recorder) fun results => results.flatMap values := by
  induction items with
  | nil => exact .pure rfl
  | cons item items ih =>
    intro start ready
    rw [List.mapM_cons]
    refine (records item start ready).follow fun next middle grown => ?_
    refine (ih.go grown).follow fun further rest more => ?_
    exact .pure more

end Records

/-- A reading that ends with what has to be returned next. -/
def Offers (recorder : Recorder Value) : Prop :=
  ∀ start, Grown nothing start [] start →
    Ends recorder start (fun value => Grown (· = .returned value) start [])
      fun error => Grown (· = .answered (.error error)) start []

namespace Offers
variable {recorder : Recorder Value}

theorem pure (value : Value) : Offers (Pure.pure value) :=
  fun _ ready => .pure (ready.allow fun _ never => never.elim)

theorem throw (error : Error) : Offers (throw error) :=
  fun _ ready => .throw (ready.allow fun _ never => never.elim)

theorem after {first : Recorder α} {next : α → Recorder Value} {early : α → List Value} (begins : Records first early)
    (goesOn : ∀ value, Offers (next value)) : Offers (first >>= next) := by
  intro start ready
  refine (begins start ready).follow fun value middle grown => ?_
  exact (goesOn value middle grown.again).imp
    (fun _ _ further => (grown.trans further).fewer (List.nil_subset _))
    fun _ _ failed => (grown.trans failed).fewer (List.nil_subset _)

end Offers

namespace Recorded

section Values
variable {item : Recorder Value} (records : Records item fun value => [value])
include records

end Values

end Recorded

example : (calls (value 64) 2 (.ofBytes [0x09, 0x03, 0x01, 0x09, 0x00, 0x09, 0x00])).1 =
    [.ok (.strictArray [.null]), .ok (.strictArray [.null])] := rfl

end RtmpRelay.Amf.Amf3
