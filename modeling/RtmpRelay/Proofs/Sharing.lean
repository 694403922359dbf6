import Mathlib.Data.List.Perm.Subperm
import RtmpRelay.Amf.Size
import RtmpRelay.Proofs.Advancing

/-! How large the values are that come out of the readers. Every value that is written out takes a byte at least, so
without references a value has no more nodes than bytes. A reference puts a whole object in for two bytes, and an object
may refer to another one twice, so that nodes can double with every few bytes. What does not grow like that is how many
different values there are: a reference adds none. -/

namespace RtmpRelay

namespace Assoc

/-- Every value of a map is the value of an entry of its own. -/
theorem values_subperm {κ : Type u} {α : Type v} [DecidableEq κ] [Ord κ] [Std.LawfulEqOrd κ] [Std.TransOrd κ]
    (entries : List (κ × α)) : ((ofEntries entries).map Prod.snd).Subperm (entries.map Prod.snd) := by
  have distinct : (ofEntries entries).Nodup := by
    refine (ascending_ofEntries entries).imp ?_
    intro one other order equal
    simp [equal] at order
  obtain ⟨kept, same, within⟩ := List.subperm_of_subset distinct fun entry member => mem_of_mem_ofEntries member
  exact ⟨kept.map Prod.snd, same.map Prod.snd, within.map Prod.snd⟩

end Assoc

namespace Amf

open Value (nodes parts)

/-- What a reading has to go on with: so many bytes, and the objects it can refer to. -/
structure Stock where
  left : Nat
  held : List Value

/-- How values can come out of a stock, with so much room for containers inside each other. Objects are referred to only
if they may be shared, and then they need no room. -/
inductive Yields (shared : Prop) : (room : Nat) → Stock → List Value → Stock → Prop where
  | spent {room : Nat} {start rest : Stock} (less : rest.left ≤ start.left) (fewer : rest.held ⊆ start.held) :
      Yields shared room start [] rest
  | append {room : Nat} {start middle rest : Stock} {values further : List Value}
      (first : Yields shared room start values middle) (second : Yields shared room middle further rest) :
      Yields shared room start (values ++ further) rest
  | reserved {room : Nat} {start : Stock} {left : Nat} (paid : left < start.left) :
      Yields shared room start [] ⟨left, .null :: start.held⟩
  | referred {room : Nat} {start : Stock} {left : Nat} {value : Value} (allowed : shared) (known : value ∈ start.held)
      (paid : left < start.left) : Yields shared room start [value] ⟨left, start.held⟩
  | contained {room : Nat} {start rest : Stock} {left : Nat} {values : List Value} {value : Value}
      (paid : left < start.left) (yields : Yields shared room ⟨left, start.held⟩ values rest)
      (inside : value.members.Subperm values) : Yields shared (room + 1) start [value] rest
  | remembered {room : Nat} {start rest : Stock} {values : List Value} {value : Value}
      (yields : Yields shared room start values rest) (found : value ∈ values) :
      Yields shared room start values ⟨rest.left, value :: rest.held⟩

namespace Yields
variable {shared : Prop} {room : Nat} {start middle rest : Stock} {values : List Value}

theorem less (yields : Yields shared room start values rest) : rest.left ≤ start.left := by
  induction yields with
  | spent less fewer => exact less
  | append first second one other => exact Nat.le_trans other one
  | reserved paid => exact Nat.le_of_lt paid
  | referred allowed known paid => exact Nat.le_of_lt paid
  | contained paid yields inside ih => exact Nat.le_trans ih (Nat.le_of_lt paid)
  | remembered yields found ih => exact ih

/-- More room is not needed, but does no harm. -/
theorem widen (yields : Yields shared room start values rest) : Yields shared (room + 1) start values rest := by
  induction yields with
  | spent less fewer => exact .spent less fewer
  | append first second one other => exact .append one other
  | reserved paid => exact .reserved paid
  | referred allowed known paid => exact .referred allowed known paid
  | contained paid yields inside ih => exact .contained paid ih inside
  | remembered yields found ih => exact .remembered ih found

theorem nodes_of_subperm {members : List Value} (inside : members.Subperm values) :
    (members.map nodes).sum ≤ (values.map nodes).sum := by
  obtain ⟨kept, same, within⟩ := inside
  rw [← (same.map nodes).sum_nat]
  exact (within.map nodes).sum_le_sum fun _ _ => Nat.zero_le _

theorem nodes_of_mem {value : Value} (found : value ∈ values) : value.nodes ≤ (values.map nodes).sum :=
  List.single_le_sum (fun _ _ => Nat.zero_le _) _ (List.mem_map_of_mem found)

/-- Where nothing is shared, every node has been paid for. -/
theorem nodes_le (yields : Yields False room start values rest) : (values.map nodes).sum + rest.left ≤ start.left := by
  induction yields with
  | spent less fewer => simpa using less
  | append first second one other =>
    rw [List.map_append, List.sum_append]
    omega
  | reserved paid => simpa using Nat.le_of_lt paid
  | referred allowed => exact allowed.elim
  | @contained room start rest left values value paid yields inside ih =>
    have fewer := nodes_of_subperm inside
    dsimp only at ih
    rw [List.map_singleton, List.sum_singleton, Value.nodes_eq]
    omega
  | remembered yields found ih => exact ih

/-- What is held, with what is read, grows by no more than a factor of two for every byte. -/
theorem nodes_grow (yields : Yields shared room start values rest) {bound : Nat}
    (bounded : ∀ object ∈ start.held, object.nodes ≤ bound) :
    ∃ larger, (∀ object ∈ rest.held, object.nodes ≤ larger) ∧ bound + (values.map nodes).sum ≤ larger ∧
      (larger + 1) * 2 ^ rest.left ≤ (bound + 1) * 2 ^ start.left := by
  have double : ∀ {left more : Nat}, left < more → ∀ size, 2 * size * 2 ^ left ≤ size * 2 ^ more := by
    intro left more paid size
    have power : 2 * 2 ^ left ≤ 2 ^ more := by
      rw [← Nat.pow_succ']
      exact Nat.pow_le_pow_right (by decide) paid
    calc 2 * size * 2 ^ left = size * (2 * 2 ^ left) := by ac_rfl
      _ ≤ size * 2 ^ more := Nat.mul_le_mul_left size power
  induction yields generalizing bound with
  | spent less fewer =>
    refine ⟨bound, fun object member => bounded object (fewer member), by simp, ?_⟩
    exact Nat.mul_le_mul_left _ (Nat.pow_le_pow_right (by decide) less)
  | append first second one other =>
    obtain ⟨middle, held, more, first⟩ := one bounded
    obtain ⟨larger, kept, further, second⟩ := other held
    refine ⟨larger, kept, ?_, Nat.le_trans second first⟩
    rw [List.map_append, List.sum_append]
    omega
  | reserved paid =>
    refine ⟨bound + 1, ?_, by simp, ?_⟩
    · intro object member
      rcases List.mem_cons.mp member with rfl | before
      · exact Nat.le_add_left 1 bound
      · exact Nat.le_succ_of_le (bounded object before)
    · refine Nat.le_trans (Nat.mul_le_mul_right _ ?_) (double paid (bound + 1))
      omega
  | @referred _ _ _ value allowed known paid =>
    have copied := bounded value known
    refine ⟨bound + value.nodes, fun object member => Nat.le_add_right_of_le (bounded object member), by simp, ?_⟩
    refine Nat.le_trans (Nat.mul_le_mul_right _ ?_) (double paid (bound + 1))
    omega
  | @contained room start rest left values value paid yields inside ih =>
    obtain ⟨larger, kept, more, power⟩ := ih bounded
    refine ⟨larger + 1, fun object member => Nat.le_succ_of_le (kept object member), ?_, ?_⟩
    · have fewer := nodes_of_subperm inside
      rw [List.map_singleton, List.sum_singleton, Value.nodes_eq]
      omega
    · calc (larger + 1 + 1) * 2 ^ rest.left ≤ 2 * ((larger + 1) * 2 ^ rest.left) := by
            rw [← Nat.mul_assoc]
            exact Nat.mul_le_mul_right _ (by omega)
        _ ≤ 2 * ((bound + 1) * 2 ^ left) := Nat.mul_le_mul_left 2 power
        _ = 2 * (bound + 1) * 2 ^ left := (Nat.mul_assoc _ _ _).symm
        _ ≤ (bound + 1) * 2 ^ start.left := double paid (bound + 1)
  | @remembered room start rest values value yields found ih =>
    obtain ⟨larger, kept, more, power⟩ := ih bounded
    refine ⟨larger, ?_, more, power⟩
    intro object member
    rcases List.mem_cons.mp member with rfl | before
    · have inside := nodes_of_mem found
      omega
    · exact kept object before

theorem parts_among (yields : Yields shared room start values rest) {known : List Value}
    (among : ∀ object ∈ start.held, object.parts ⊆ known) :
    ∃ further, known ⊆ further ∧ (∀ object ∈ rest.held, object.parts ⊆ further) ∧
      (∀ value ∈ values, value.parts ⊆ further) ∧ further.length + rest.left ≤ known.length + start.left := by
  induction yields generalizing known with
  | spent less fewer =>
    exact ⟨known, List.Subset.refl known, fun object member => among object (fewer member), nofun,
      Nat.add_le_add_left less _⟩
  | append first second one other =>
    obtain ⟨middle, grown, held, read, paid⟩ := one among
    obtain ⟨further, more, kept, last, also⟩ := other held
    refine ⟨further, List.Subset.trans grown more, kept, ?_, Nat.le_trans also paid⟩
    intro value member
    rcases List.mem_append.mp member with before | after
    · exact List.Subset.trans (read value before) more
    · exact last value after
  | reserved paid =>
    refine ⟨.null :: known, List.subset_cons_self _ _, ?_, nofun, ?_⟩
    · intro object member
      rcases List.mem_cons.mp member with rfl | before
      · exact List.cons_subset_cons _ (List.nil_subset known)
      · exact List.subset_cons_of_subset _ (among object before)
    · simp only [List.length_cons]
      omega
  | referred allowed member paid =>
    refine ⟨known, List.Subset.refl known, among, List.forall_mem_singleton.mpr (among _ member), ?_⟩
    exact Nat.add_le_add_left (Nat.le_of_lt paid) _
  | @contained room start rest left values value paid yields inside ih =>
    obtain ⟨further, grown, kept, read, bytes⟩ := ih among
    refine ⟨value :: further, List.subset_cons_of_subset _ grown, ?_, List.forall_mem_singleton.mpr ?_, ?_⟩
    · exact fun object member => List.subset_cons_of_subset _ (kept object member)
    · rw [Value.parts_eq]
      refine List.cons_subset_cons _ fun part occurs => ?_
      obtain ⟨member, found, here⟩ := List.mem_flatMap.mp occurs
      exact read member (inside.subset found) here
    · simp only [List.length_cons]
      dsimp only at bytes
      omega
  | @remembered room start rest values value yields found ih =>
    obtain ⟨further, grown, kept, read, bytes⟩ := ih among
    exact ⟨further, grown, List.forall_mem_cons.mpr ⟨read value found, kept⟩, read, bytes⟩

theorem nothing (start : Stock) : Yields shared room start [] start :=
  .spent (Nat.le_refl _) (List.Subset.refl _)

theorem then_spent (yields : Yields shared room start values middle) (less : rest.left ≤ middle.left)
    (fewer : rest.held ⊆ middle.held) : Yields shared room start values rest := by
  have both := yields.append (.spent less fewer)
  rwa [List.append_nil] at both

end Yields

/-- A reader of single values that come out of the stock, with no more room than there is. -/
def Accounts {σ : Type} (stock : σ → Stock) (shared : Prop) (room : Nat) (reader : EStateM Error σ Value) : Prop :=
  ∀ state, Ensures reader state fun value rest => Yields shared room (stock state) [value] (stock rest)

section Loops
variable {σ : Type} {stock : σ → Stock} {shared : Prop} {room : Nat} {start : σ} {value : EStateM Error σ Value}

theorem repeated_yields (reads : Accounts stock shared room value) (count : Nat) :
    Ensures (repeated value count) start fun items rest => Yields shared room (stock start) items (stock rest) := by
  refine .repeated ?_ count (.nothing _)
  exact fun items state yields => (reads state).imp fun _ _ further => yields.append further

theorem entries_yields {name : EStateM Error σ (Option String)}
    (names : ∀ state, Ensures name state fun _ rest => Yields shared room (stock state) [] (stock rest))
    (reads : Accounts stock shared room value) (rounds : Bytes) :
    Ensures (entries name value rounds) start fun named rest =>
      Yields shared room (stock start) (named.map Prod.snd) (stock rest) := by
  refine .entries ?_ rounds (.nothing _)
  intro held state yields
  refine (names state).imp fun key middle spent => ?_
  cases key with
  | none =>
    have both := yields.append spent
    rwa [List.append_nil] at both
  | some key =>
    refine (reads middle).imp fun next rest further => ?_
    rw [List.map_append]
    exact yields.append (spent.append further)

end Loops

namespace Amf3

theorem arrayValue_members (named : List (String × Value)) (dense : List Value) :
    (arrayValue named dense).members.Subperm (named.map Prod.snd ++ dense) := by
  unfold arrayValue
  split
  next => exact (List.sublist_append_right _ _).subperm
  next =>
    have values := Assoc.values_subperm (named ++ indexed dense)
    rwa [List.map_append, indexed_values] at values

theorem objectValue_members (traits : Traits) (named : List (String × Value)) :
    (traits.objectValue named).members.Subperm (named.map Prod.snd) := by
  have values := Assoc.values_subperm named
  unfold Traits.objectValue
  dsimp only
  split <;> exact values

def State.stock (state : State) : Stock :=
  ⟨state.unread.length, state.objects.toList⟩

section Values
variable {refer : (index : Nat) → Reader Value} {shared : Prop} {room : Nat} {state began rest : State}
  {value : Value}

/-- Looking up an object takes nothing and finds one that is held, if it may be shared at all. -/
def Looks (refer : (index : Nat) → Reader Value) (shared : Prop) : Prop :=
  ∀ index state, Ensures (refer index) state fun value rest => rest = state ∧ value ∈ state.objects ∧ shared

theorem Advances.yields (advances : Advances state rest) : Yields shared room state.stock [] rest.stock := by
  refine .spent advances.suffix.length_le ?_
  rw [State.stock, State.stock, advances.objects]
  exact List.Subset.refl _

theorem contained_yields {values : List Value} (advances : Advances state began)
    (paid : began.unread.length < state.unread.length) (yields : Yields shared room began.stock values rest.stock)
    (inside : value.members.Subperm values) : Yields shared (room + 1) state.stock [value] rest.stock := by
  refine .contained paid ?_ inside
  have same : began.stock = ⟨began.unread.length, state.stock.held⟩ := by
    rw [State.stock, State.stock, advances.objects]
  rwa [same] at yields

theorem flat_yields (advances : Advances state rest) (paid : rest.unread.length < state.unread.length)
    (flat : value.members = []) : Yields shared (room + 1) state.stock [value] rest.stock :=
  contained_yields advances paid (.nothing _) (flat ▸ List.nil_subperm)

theorem stored_yields {start : Stock} {objects : Array Value} (yields : Yields shared room start [value] rest.stock)
    (stored : ∀ object ∈ objects, object ∈ rest.objects ∨ object = value) :
    Yields shared room start [value] { rest with objects }.stock := by
  refine (yields.remembered (List.mem_singleton_self value)).then_spent (Nat.le_refl _) fun object member => ?_
  rcases stored object (Array.mem_toList_iff.mp member) with before | rfl
  · exact List.mem_cons_of_mem _ (Array.mem_toList_iff.mpr before)
  · exact List.mem_cons_self

theorem kept_yields (advances : Advances state rest) (paid : rest.unread.length < state.unread.length)
    (flat : value.members = []) : Ensures ((partsVia refer).kept value) rest fun value last =>
      Yields shared (room + 1) state.stock [value] last.stock :=
  .bind (.modify (.pure (stored_yields (flat_yields advances paid flat) fun _ member => Array.mem_push.mp member)))

/-- A place is taken for what a header announced, which has been paid for with the header. -/
theorem reserve_yields (advances : Advances began rest) (paid : rest.unread.length < began.unread.length) :
    Ensures reserve rest fun _ reserved => Yields shared room began.stock [] reserved.stock := by
  refine (reserve_ensures rest).imp fun _ reserved same => ?_
  have place : Yields shared room began.stock [] ⟨rest.unread.length, .null :: began.stock.held⟩ := .reserved paid
  refine place.then_spent (Nat.le_of_eq (same ▸ rfl)) fun object member => ?_
  rw [same, State.stock, State.withObject, Array.toList_push, advances.objects] at member
  rcases List.mem_append.mp member with before | here
  · exact List.mem_cons_of_mem _ before
  · exact List.mem_singleton.mp here ▸ List.mem_cons_self

theorem container_yields {inside : Reader Value} (advances : Advances state began)
    (paid : began.unread.length < state.unread.length) (further : Advances began rest)
    (shorter : rest.unread.length < began.unread.length)
    (reads : ∀ start, Ensures inside start fun value last =>
      ∃ values, Yields shared room start.stock values last.stock ∧ value.members.Subperm values) :
    Ensures (container inside) rest fun value last => Yields shared (room + 1) state.stock [value] last.stock := by
  have taken : Ensures reserve rest fun _ reserved => Yields shared room began.stock [] reserved.stock :=
    reserve_yields further shorter
  refine .bind (taken.imp fun slot reserved place => ?_)
  refine .bind ((reads reserved).imp fun value last ⟨values, yields, within⟩ => ?_)
  have whole := contained_yields advances paid (place.append yields) within
  exact .bind (.modify (.pure (stored_yields whole fun _ member => Array.mem_or_eq_of_mem_setIfInBounds member)))

theorem shared_yields (looks : Looks refer shared) {inPlace : Nat → Reader Value} (advances : Advances state began)
    (placed : ∀ size rest, Advances began rest → rest.unread.length < began.unread.length →
      Ensures (inPlace size) rest fun value last => Yields shared room state.stock [value] last.stock) :
    Ensures ((partsVia refer).shared inPlace) began fun value last =>
      Yields shared room state.stock [value] last.stock := by
  refine .bind (raw_ensures fun header unread read => ?_)
  obtain ⟨suffix, shorter⟩ := u29_shorter began.unread header unread read
  have further : Advances began { began with unread } := ⟨suffix, rfl⟩
  split
  next =>
    refine (looks _ _).imp ?_
    rintro object _ ⟨rfl, member, allowed⟩
    have found : object ∈ began.stock.held := Array.mem_toList_iff.mpr member
    exact advances.yields.append (.referred allowed found shorter)
  next => exact placed _ _ further shorter

theorem xml_yields (looks : Looks refer shared) (advances : Advances state began)
    (paid : began.unread.length < state.unread.length) :
    Ensures (partsVia refer).xml began fun value last => Yields shared (room + 1) state.stock [value] last.stock := by
  refine shared_yields looks advances fun size rest further shorter => ?_
  refine .bind ((text_advances refer size rest).imp fun text last ended => ?_)
  have less := Nat.lt_of_le_of_lt (further.trans ended).suffix.length_le paid
  exact kept_yields (advances.trans (further.trans ended)) less rfl

theorem date_yields (looks : Looks refer shared) (advances : Advances state began)
    (paid : began.unread.length < state.unread.length) :
    Ensures (partsVia refer).date began fun value last => Yields shared (room + 1) state.stock [value] last.stock := by
  refine shared_yields looks advances fun _ rest further shorter => ?_
  refine .bind ((double_advances refer rest).imp fun milliseconds last ended => ?_)
  have less := Nat.lt_of_le_of_lt (further.trans ended).suffix.length_le paid
  exact kept_yields (advances.trans (further.trans ended)) less rfl

section Members
variable {item : Reader Value}

theorem named_yields (reads : Accounts State.stock shared room item) :
    Ensures ((partsVia refer).entries (partsVia refer).name item) state fun named rest =>
      Yields shared room state.stock (named.map Prod.snd) rest.stock :=
  .bind (.get (entries_yields
    (fun inner => (name_advances refer inner).imp fun _ _ advances => advances.yields) reads _))

theorem memberValues_yields (reads : Accounts State.stock shared room item) (members : List String) :
    Ensures (Parts.memberValues item members) state fun fixed rest =>
      Yields shared room state.stock (fixed.map Prod.snd) rest.stock := by
  refine .mapM ?_ (.nothing _)
  intro fixed member inner yields
  refine .bind ((reads inner).imp fun next rest further => .pure ?_)
  rw [List.map_append]
  exact yields.append further

theorem furtherValues_yields (reads : Accounts State.stock shared room item) (isDynamic : Bool) :
    Ensures ((partsVia refer).furtherValues item isDynamic) state fun further rest =>
      Yields shared room state.stock (further.map Prod.snd) rest.stock := by
  unfold Parts.furtherValues
  split
  · exact named_yields reads
  · exact .pure (.nothing _)

theorem array_yields (looks : Looks refer shared) (reads : Accounts State.stock shared room item)
    (advances : Advances state began) (paid : began.unread.length < state.unread.length) :
    Ensures ((partsVia refer).array item) began fun value last =>
      Yields shared (room + 1) state.stock [value] last.stock := by
  refine shared_yields looks advances fun size rest further shorter => ?_
  refine container_yields advances paid further shorter fun start => ?_
  refine .bind ((named_yields reads).imp fun named middle first => ?_)
  refine .bind ((repeated_yields reads size).imp fun dense last second => .pure ?_)
  exact ⟨_, first.append second, arrayValue_members named dense⟩

theorem object_yields (looks : Looks refer shared) (reads : Accounts State.stock shared room item)
    (advances : Advances state began) (paid : began.unread.length < state.unread.length) :
    Ensures ((partsVia refer).object item) began fun value last =>
      Yields shared (room + 1) state.stock [value] last.stock := by
  refine shared_yields looks advances fun header rest further shorter => ?_
  refine .bind ((readTraits_advances refer header rest).imp fun traits named classified => ?_)
  have less := Nat.lt_of_le_of_lt classified.suffix.length_le shorter
  refine container_yields advances paid (further.trans classified) less fun start => ?_
  refine .bind ((memberValues_yields reads traits.members).imp fun fixed middle first => ?_)
  refine .bind ((furtherValues_yields reads traits.isDynamic).imp fun more last second => .pure ?_)
  have yields := first.append second
  rw [← List.map_append] at yields
  exact ⟨_, yields, objectValue_members traits (fixed ++ more)⟩

end Members

theorem valueVia_yields (looks : Looks refer shared) (room : Nat) :
    Accounts State.stock shared room (valueVia refer room) := by
  induction room with
  | zero => exact fun _ => .throw
  | succ room ih =>
    intro state
    refine .bind (raw_ensures ((Reader.byte_cons state.unread).imp fun marker behind front => ?_))
    let began : State := { state with unread := behind }
    have advances : Advances state began := ⟨front ▸ List.suffix_cons marker behind, rfl⟩
    have paid : began.unread.length < state.unread.length := front ▸ Nat.lt_succ_self behind.length
    have flat : ∀ {value rest}, Advances began rest → value.members = [] →
        Yields shared (room + 1) state.stock [value] rest.stock := fun further scalar =>
      flat_yields (advances.trans further) (Nat.lt_of_le_of_lt further.suffix.length_le paid) scalar
    unfold Parts.marked
    split
    iterate 4 exact .pure (flat (.refl began) rfl)
    next => exact .bind ((u29_advances refer began).imp fun _ _ further => .pure (flat further rfl))
    next => exact .bind ((double_advances refer began).imp fun _ _ further => .pure (flat further rfl))
    next => exact .bind ((string_advances refer began).imp fun _ _ further => .pure (flat further rfl))
    iterate 2 exact xml_yields looks advances paid
    next => exact date_yields looks advances paid
    next => exact array_yields looks ih advances paid
    next => exact object_yields looks ih advances paid
    all_goals exact .throw

end Values

theorem entry_looks : Looks (entry State.objects) True :=
  fun index state => (entry_mem State.objects index state).imp fun _ _ found => ⟨found.1, found.2, trivial⟩

theorem throw_looks (error : Error) : Looks (fun _ => throw error) False :=
  fun _ _ => .throw

end Amf3

namespace Amf0

/-- There is nothing to refer to outside the newer encoding. -/
def stock (unread : Bytes) : Stock :=
  ⟨unread.length, []⟩

section Values
variable {refer : (index : Nat) → Amf3.Reader Value} {shared : Prop} {room : Nat} {unread rest : Bytes}
  {item : Reader Value}

theorem suffix_yields (suffix : rest <:+ unread) : Yields shared room (stock unread) [] (stock rest) :=
  .spent suffix.length_le (List.Subset.refl _)

theorem properties_yields (reads : Accounts stock shared room item) :
    Ensures (parts.properties item) unread fun held rest => ∃ values,
      Yields shared room (stock unread) values (stock rest) ∧ (held.map Prod.snd).Subperm values := by
  have listed : Ensures (parts.entries parts.name item) unread fun named rest =>
      Yields shared room (stock unread) (named.map Prod.snd) (stock rest) :=
    .bind (.get (entries_yields
      (fun inner => (name_suffix inner).imp fun _ _ suffix => suffix_yields suffix) reads _))
  exact .bind (listed.imp fun named rest yields => .pure ⟨_, yields, Assoc.values_subperm named⟩)

/-- The tables begin empty and are dropped again. -/
theorem escapedVia_yields (looks : Amf3.Looks refer shared) (room : Nat) :
    Accounts stock shared room (escapedVia refer room) := by
  intro unread value rest read
  simp only [escapedVia] at read
  split at read
  next found state there =>
    cases read
    have yields := Amf3.valueVia_yields looks room (.ofBytes unread) _ _ there
    exact yields.then_spent (Nat.le_refl _) (List.nil_subset _)
  next => cases read

theorem valueVia_yields (looks : Amf3.Looks refer shared) (room : Nat) :
    Accounts stock shared room (valueVia (escapedVia refer) room) := by
  induction room with
  | zero => exact fun _ => .throw
  | succ room ih =>
    intro unread
    refine .bind ((Reader.byte_cons unread).imp fun marker behind front => ?_)
    have suffix : behind <:+ unread := front ▸ List.suffix_cons marker behind
    have paid : behind.length < unread.length := front ▸ Nat.lt_succ_self behind.length
    have flat : ∀ {value : Value} {rest}, rest <:+ behind → value.members = [] →
        Yields shared (room + 1) (stock unread) [value] (stock rest) := fun further scalar =>
      .contained (Nat.lt_of_le_of_lt further.length_le paid) (.nothing _) (scalar ▸ List.nil_subperm)
    have nested : ∀ {value : Value} {values middle rest}, middle <:+ behind →
        Yields shared room (stock middle) values (stock rest) → value.members.Subperm values →
        Yields shared (room + 1) (stock unread) [value] (stock rest) := fun further yields inside =>
      .contained (Nat.lt_of_le_of_lt further.length_le paid) yields inside
    unfold Parts.marked
    cases Marker.ofByte? marker with
    | none => exact .throw
    | some marker =>
      cases marker with
      | number => exact .bind ((Reader.double_suffix behind).imp fun _ _ further => .pure (flat further rfl))
      | boolean =>
        refine .bind ((Reader.byte_cons behind).imp fun first rest more => .pure (flat ?_ rfl))
        exact more ▸ List.suffix_cons first rest
      | string => exact .bind ((Reader.sizedText_suffix 2 behind).imp fun _ _ further => .pure (flat further rfl))
      | object =>
        refine .bind ((properties_yields ih).imp fun held rest ⟨values, yields, inside⟩ => ?_)
        exact .pure (nested (List.suffix_refl _) yields inside)
      | null | undefined => exact .pure (flat (List.suffix_refl _) rfl)
      | ecmaArray =>
        refine .bind ((Reader.natural_suffix 4 behind).imp fun _ middle further => ?_)
        refine .bind ((properties_yields ih).imp fun held rest ⟨values, yields, inside⟩ => ?_)
        exact .pure (nested further yields inside)
      | strictArray =>
        refine .bind ((Reader.natural_suffix 4 behind).imp fun count middle further => ?_)
        refine .bind ((repeated_yields ih count).imp fun values rest yields => ?_)
        exact .pure (nested further yields (List.Subperm.refl values))
      | date =>
        refine .bind ((Reader.double_suffix behind).imp fun _ middle further => ?_)
        exact .bind ((Reader.take_suffix 2 middle).imp fun _ _ last => .pure (flat (last.trans further) rfl))
      | longString | xmlDocument =>
        exact .bind ((Reader.sizedText_suffix 4 behind).imp fun _ _ further => .pure (flat further rfl))
      | typedObject =>
        refine .bind ((Reader.sizedText_suffix 2 behind).imp fun _ middle further => ?_)
        refine .bind ((properties_yields ih).imp fun held rest ⟨values, yields, inside⟩ => ?_)
        exact .pure (nested further yields inside)
      | avmPlus =>
        refine (escapedVia_yields looks room behind).imp fun _ _ yields => ?_
        exact (suffix_yields suffix).append yields.widen
      | movieClip | reference | objectEnd | unsupported | recordSet => exact .throw

end Values

theorem decodeVia_yields {refer : (index : Nat) → Amf3.Reader Value} {shared : Prop} (looks : Amf3.Looks refer shared)
    {bytes : Bytes} {value : Value} {size : Nat} (read : decodeVia (escapedVia refer) bytes = .ok (value, size)) :
    ∃ left, left + size = bytes.length ∧ Yields shared maxDepth (stock bytes) [value] ⟨left, []⟩ := by
  obtain ⟨rest, there, rfl⟩ := decodeVia_next read
  have yields := valueVia_yields looks maxDepth bytes _ _ there
  exact ⟨rest.length, Nat.add_sub_of_le yields.less, yields⟩

theorem decoded_of {β : Type} {measure : Value → β} {bytes : Bytes} {measured : β} {size : Nat}
    (answer : (decode bytes).toOption.map (fun found => (measure found.1, found.2)) = some (measured, size)) :
    ∃ value, decode bytes = .ok (value, size) ∧ measure value = measured := by
  cases read : decode bytes with
  | error error =>
    rw [read] at answer
    cases answer
  | ok found =>
    rw [read] at answer
    cases answer
    exact ⟨found.1, rfl, rfl⟩

/-- No more different values occur in a value than it took bytes, and the nodes at most double with each byte. If no
object is referred to, there is a byte for every node. -/
theorem decoded_size_is_bounded {bytes : Bytes} {value : Value} {size : Nat} (read : decode bytes = .ok (value, size)) :
    (∃ known : List Value, known.length ≤ size ∧ value.parts ⊆ known) ∧ value.nodes < 2 ^ size ∧
    ((∀ refer, decodeVia (escapedVia refer) bytes = decode bytes) → value.nodes ≤ size) := by
  obtain ⟨left, whole, yields⟩ := decodeVia_yields Amf3.entry_looks read
  have length : (stock bytes).left = left + size := whole.symm
  refine ⟨?_, ?_, fun unshared => ?_⟩
  · have nothing : ∀ object ∈ (stock bytes).held, object.parts ⊆ [] := nofun
    obtain ⟨known, -, -, among, paid⟩ := yields.parts_among nothing
    refine ⟨known, ?_, among value (List.mem_singleton_self value)⟩
    rw [length] at paid
    simp only [List.length_nil] at paid
    omega
  · have nothing : ∀ object ∈ (stock bytes).held, object.nodes ≤ 0 := nofun
    obtain ⟨larger, -, more, power⟩ := yields.nodes_grow nothing
    rw [length, Nat.pow_add, Nat.zero_add, Nat.one_mul, Nat.mul_comm] at power
    have bounded := Nat.le_of_mul_le_mul_left power (Nat.two_pow_pos left)
    rw [List.map_singleton, List.sum_singleton] at more
    omega
  · have closed := (unshared fun _ => throw .nestingTooDeep).trans read
    obtain ⟨left, whole, yields⟩ := decodeVia_yields (Amf3.throw_looks _) closed
    have paid := yields.nodes_le
    rw [List.map_singleton, List.sum_singleton] at paid
    change value.nodes + left ≤ bytes.length at paid
    omega

/-- Two texts in an array, the second of them by reference to the first. -/
def repeatedText : Bytes :=
  [0x11, 0x09, 0x05, 0x01, 0x06, 0x03, 0x61, 0x06, 0x00]

theorem repeatedText_size : ∃ value, decode repeatedText = .ok (value, 9) ∧
    (∀ refer, decodeVia (escapedVia refer) repeatedText = decode repeatedText) ∧ value.nodes ≤ 9 := by
  have read : ∀ refer, decodeVia (escapedVia refer) repeatedText =
      .ok (.strictArray [.string "a", .string "a"], 9) := fun _ => rfl
  have plain : decode repeatedText = .ok (.strictArray [.string "a", .string "a"], 9) := rfl
  have unshared : ∀ refer, decodeVia (escapedVia refer) repeatedText = decode repeatedText :=
    fun refer => (read refer).trans plain.symm
  exact ⟨_, plain, unshared, (decoded_size_is_bounded plain).2.2 unshared⟩

/-- Four arrays of two items in an array: the items of the first are null, and those of every other are the array before
it. -/
def doublings : Bytes :=
  [0x11, 0x09, 0x09, 0x01, 0x09, 0x05, 0x01, 0x01, 0x01, 0x09, 0x05, 0x01, 0x09, 0x02, 0x09, 0x02,
    0x09, 0x05, 0x01, 0x09, 0x04, 0x09, 0x04, 0x09, 0x05, 0x01, 0x09, 0x06, 0x09, 0x06]

theorem doublings_exceed_input : ∃ value, decode doublings = .ok (value, 30) ∧ 30 < value.nodes := by
  obtain ⟨value, read, nodes⟩ : ∃ value, decode doublings = .ok (value, 30) ∧ value.nodes = 57 :=
    decoded_of (by decide +kernel)
  exact ⟨value, read, by omega⟩

end Amf0
end Amf
end RtmpRelay
