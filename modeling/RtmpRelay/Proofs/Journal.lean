import RtmpRelay.Amf.Amf3
import RtmpRelay.Amf.Size

/-! What happens to the tables of a reader, told as a journal. Each entry says what was read or looked up, and how the
reader stood right after it. A journal is orderly if it could have been written by a reader that keeps its tables: new
indices are the next ones, an index is filled by the container that opened it and once, what is looked up is there, and
what has been found is returned next. That what was filled never changes again follows from this alone. -/

namespace RtmpRelay.Amf.Amf3

inductive Table where
  | strings
  | traits
  | objects

inductive Event where
  /-- A text that was spelled out, not referred to. -/
  | spelled (text : String)
  | spelledBefore (index : Nat) (text : String)
  | declared (traits : Traits)
  | declaredBefore (index : Nat) (traits : Traits)
  /-- A container has taken the index, before any of its members. -/
  | opened (index : Nat)
  | finished (index : Nat) (value : Value)
  /-- A value without members has taken the index as it was read. -/
  | kept (index : Nat) (value : Value)
  | referred (index : Nat) (value : Value)
  | dangling (table : Table) (index : Nat)
  | returned (value : Value)
  /-- A call from outside has ended. -/
  | answered (outcome : Except Error Value)

structure Moment where
  event : Event
  state : State

/-- The newest moment comes first. -/
abbrev Journal := List Moment

structure Tables where
  strings : List String
  traits : List Traits
  objects : List Value

def State.tables (state : State) : Tables :=
  ⟨state.strings.toList, state.traits.toList, state.objects.toList⟩

def Tables.size (tables : Tables) : Table → Nat
  | .strings => tables.strings.length
  | .traits => tables.traits.length
  | .objects => tables.objects.length

namespace Event

def after (tables : Tables) : Event → Tables
  | .spelled text => if text = "" then tables else { tables with strings := tables.strings ++ [text] }
  | .declared traits => { tables with traits := tables.traits ++ [traits] }
  | .opened _ => { tables with objects := tables.objects ++ [.null] }
  | .kept _ value => { tables with objects := tables.objects ++ [value] }
  | .finished index value => { tables with objects := tables.objects.set index value }
  | .spelledBefore _ _ | .declaredBefore _ _ | .referred _ _ | .dangling _ _ | .returned _ | .answered _ => tables

/-- What has to happen right after this, if that is settled. -/
def next? : Event → Option Event
  | .finished _ value | .kept _ value | .referred _ value => some (.returned value)
  | .dangling _ index => some (.answered (.error (.invalidReference index)))
  | .spelled _ | .spelledBefore _ _ | .declared _ | .declaredBefore _ _ | .opened _ | .returned _ | .answered _ => none

end Event

/-- The tables as the journal tells them. -/
def told : Journal → Tables
  | [] => ⟨[], [], []⟩
  | moment :: before => moment.event.after (told before)

def Happened (journal : Journal) (event : Event) : Prop :=
  ∃ moment ∈ journal, moment.event = event

/-- The index has got its value. -/
def Settled (journal : Journal) (index : Nat) (value : Value) : Prop :=
  Happened journal (.finished index value) ∨ Happened journal (.kept index value)

/-- Since a container was opened, it has not been finished, and these members have been read for it. -/
structure Contains (before : Journal) (index : Nat) (members : List Value) (inner front : Journal) : Prop where
  opened : ∃ moment : Moment, before = inner ++ moment :: front ∧ moment.event = .opened index
  once : ∀ value, ¬ Happened inner (.finished index value)
  members : ∀ member ∈ members, Happened inner (.returned member)

def Event.Fits (before : Journal) : Event → Prop
  | .spelledBefore index text => (told before).strings[index]? = some text
  | .declaredBefore index traits => (told before).traits[index]? = some traits
  | .opened index | .kept index _ => index = (told before).objects.length
  | .finished index value => ∃ inner front, Contains before index value.members inner front
  | .referred index value => (told before).objects[index]? = some value
  | .dangling table index => (told before).size table ≤ index
  | .answered (.ok value) => ∃ moment front, before = moment :: front ∧ moment.event = .returned value
  | .spelled _ | .declared _ | .returned _ | .answered (.error _) => True

def expects : Journal → Option Event
  | [] => none
  | moment :: _ => moment.event.next?

structure Moment.Follows (moment : Moment) (before : Journal) : Prop where
  tables : moment.state.tables = told (moment :: before)
  fits : moment.event.Fits before
  expected : ∀ event, expects before = some event → moment.event = event

def Orderly : Journal → Prop
  | [] => True
  | moment :: before => moment.Follows before ∧ Orderly before

theorem happened_cons {moment : Moment} {before : Journal} {event : Event} :
    Happened (moment :: before) event ↔ moment.event = event ∨ Happened before event := by
  simp only [Happened, List.mem_cons, exists_eq_or_imp]

theorem happened_append {first second : Journal} {event : Event} :
    Happened (first ++ second) event ↔ Happened first event ∨ Happened second event := by
  simp only [Happened, List.mem_append, or_and_right, exists_or]

theorem length_after (event : Event) (tables : Tables) :
    (event.after tables).objects.length = tables.objects.length ∨
    (event.after tables).objects.length = tables.objects.length + 1 := by
  cases event with
  | spelled text => simp only [Event.after]; split <;> exact .inl rfl
  | opened | kept => exact .inr (by simp [Event.after])
  | _ => exact .inl (by simp [Event.after])

theorem length_told_le (new before : Journal) :
    (told before).objects.length ≤ (told (new ++ before)).objects.length := by
  induction new with
  | nil => exact Nat.le_refl _
  | cons moment new ih =>
    have step := length_after moment.event (told (new ++ before))
    rw [List.cons_append, told]
    omega

theorem orderly_of_append {later before : Journal} (orderly : Orderly (later ++ before)) : Orderly before := by
  induction later with
  | nil => exact orderly
  | cons moment later ih => exact ih orderly.2

structure Tables.Within (earlier later : Tables) : Prop where
  strings : earlier.strings <+: later.strings
  traits : earlier.traits <+: later.traits
  objects : earlier.objects.length ≤ later.objects.length

/-- Every later moment shows the tables as they are told from this one on. -/
theorem Orderly.later {later before : Journal} {moment next : Moment} (orderly : Orderly (later ++ moment :: before))
    (member : next ∈ later) :
    ∃ new, next.state.tables = told (new ++ moment :: before) ∧ Orderly (new ++ moment :: before) := by
  obtain ⟨others, new, rfl⟩ := List.append_of_mem member
  rw [List.append_assoc] at orderly
  exact ⟨next :: new, (orderly_of_append orderly).1.tables, orderly_of_append orderly⟩

theorem Orderly.follows {later before : Journal} {moment : Moment} (orderly : Orderly (later ++ moment :: before))
    (complete : expects (later ++ moment :: before) = none) {event : Event} (next : moment.event.next? = some event) :
    ∃ others following, later = others ++ [following] ∧ following.event = event := by
  rcases List.eq_nil_or_concat later with rfl | ⟨others, following, rfl⟩
  · rw [List.nil_append, expects, next] at complete
    cases complete
  · rw [List.concat_eq_append, List.append_assoc] at orderly
    exact ⟨others, following, List.concat_eq_append, (orderly_of_append orderly).1.expected event next⟩

end RtmpRelay.Amf.Amf3
