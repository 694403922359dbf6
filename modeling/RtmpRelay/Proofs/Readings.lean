import RtmpRelay.Amf.Reader

/-! Reasoning about readers of values, in either encoding. A statement about a reading says what holds of the value and
of what is left if it succeeds, and is put together along the program text: one rule for each way to compose readers,
and one with an invariant for each loop. -/

namespace RtmpRelay.Amf

/-- What holds after a reading from the given state, if it succeeds. -/
def Ensures {σ α : Type} (reader : EStateM Error σ α) (start : σ) (post : α → σ → Prop) : Prop :=
  ∀ value rest, reader start = .ok value rest → post value rest

namespace Ensures
variable {σ α β : Type} {start : σ} {post : α → σ → Prop}

theorem pure {value : α} (holds : post value start) : Ensures (pure value) start post := by
  rintro _ _ ⟨⟩
  exact holds

theorem throw {error : Error} : Ensures (throw error) start post := by
  rintro _ _ ⟨⟩

theorem bind {first : EStateM Error σ β} {next : β → EStateM Error σ α}
    (holds : Ensures first start fun value rest => Ensures (next value) rest post) :
    Ensures (first >>= next) start post := by
  intro value rest read
  simp only [Bind.bind, EStateM.bind] at read
  split at read
  next middle state began => exact holds middle state began value rest read
  next => cases read

theorem get {post : σ → σ → Prop} (holds : post start start) : Ensures get start post := by
  rintro _ _ ⟨⟩
  exact holds

theorem modify {change : σ → σ} {post : Unit → σ → Prop} (holds : post () (change start)) :
    Ensures (modify change) start post := by
  rintro _ _ ⟨⟩
  exact holds

theorem imp {reader : EStateM Error σ α} {weaker : α → σ → Prop} (holds : Ensures reader start post)
    (implies : ∀ value rest, post value rest → weaker value rest) : Ensures reader start weaker :=
  fun value rest read => implies value rest (holds value rest read)

theorem repeatedFrom {item : EStateM Error σ α} {invariant : List α → σ → Prop}
    (step : ∀ items state, invariant items state → Ensures item state fun next rest => invariant (items ++ [next]) rest)
    (count : Nat) (items : Array α) (state : σ) (holds : invariant items.toList state) :
    Ensures (repeatedFrom item count items) state invariant := by
  induction count generalizing items state with
  | zero => exact .pure holds
  | succ count ih =>
    refine .bind ((step items.toList state holds).imp fun next rest kept => ?_)
    exact ih (items.push next) rest (Array.toList_push ▸ kept)

theorem repeated {item : EStateM Error σ α} {invariant : List α → σ → Prop}
    (step : ∀ items state, invariant items state → Ensures item state fun next rest => invariant (items ++ [next]) rest)
    (count : Nat) (holds : invariant [] start) : Ensures (repeated item count) start invariant :=
  repeatedFrom step count #[] start holds

/-- The invariant covers the entries so far; a name comes first and a value after it. -/
theorem entriesFrom {name : EStateM Error σ (Option String)} {value : EStateM Error σ Value}
    {invariant : List (String × Value) → σ → Prop}
    (step : ∀ held state, invariant held state → Ensures name state fun key middle =>
      match key with
      | none => invariant held middle
      | some key => Ensures value middle fun next rest => invariant (held ++ [(key, next)]) rest)
    (rounds : Bytes) (held : Array (String × Value)) (state : σ) (holds : invariant held.toList state) :
    Ensures (entriesFrom name value rounds held) state invariant := by
  induction rounds generalizing held state with
  | nil => exact .throw
  | cons _ rounds ih =>
    refine .bind ((step held.toList state holds).imp fun key middle kept => ?_)
    cases key with
    | none => exact .pure kept
    | some key =>
      refine .bind (kept.imp fun next rest grown => ?_)
      exact ih (held.push (key, next)) rest (Array.toList_push ▸ grown)

theorem entries {name : EStateM Error σ (Option String)} {value : EStateM Error σ Value}
    {invariant : List (String × Value) → σ → Prop}
    (step : ∀ held state, invariant held state → Ensures name state fun key middle =>
      match key with
      | none => invariant held middle
      | some key => Ensures value middle fun next rest => invariant (held ++ [(key, next)]) rest)
    (unread : Bytes) (holds : invariant [] start) : Ensures (entries name value unread) start invariant :=
  entriesFrom step unread #[] start holds

theorem mapMFrom {items : List β} {reader : β → EStateM Error σ α} {invariant : List α → σ → Prop}
    (step : ∀ results item state, invariant results state →
      Ensures (reader item) state fun next rest => invariant (results ++ [next]) rest)
    {results : List α} (holds : invariant results start) :
    Ensures (items.mapM reader) start fun further rest => invariant (results ++ further) rest := by
  induction items generalizing results start with
  | nil =>
    rw [List.mapM_nil]
    exact .pure ((List.append_nil results).symm ▸ holds)
  | cons item items ih =>
    rw [List.mapM_cons]
    refine .bind ((step results item start holds).imp fun next middle kept => ?_)
    refine .bind ((ih kept).imp fun further rest grown => .pure ?_)
    rwa [List.append_assoc] at grown

theorem mapM {items : List β} {reader : β → EStateM Error σ α} {invariant : List α → σ → Prop}
    (step : ∀ results item state, invariant results state →
      Ensures (reader item) state fun next rest => invariant (results ++ [next]) rest)
    (holds : invariant [] start) : Ensures (items.mapM reader) start invariant :=
  mapMFrom step holds

end Ensures

namespace Reader

theorem byte_cons (unread : Bytes) : Ensures byte unread fun first rest => unread = first :: rest := by
  intro first rest read
  cases unread with
  | nil => cases read
  | cons head tail =>
    cases read
    rfl

theorem take_suffix (count : Nat) (unread : Bytes) : Ensures (take count) unread fun _ rest => rest <:+ unread := by
  intro taken rest read
  rw [take, Bytes.split?_eq] at read
  split at read
  next found there =>
    cases read
    split at there
    · cases there
      exact List.drop_suffix count unread
    · cases there
  next => cases read

theorem natural_suffix (width : Nat) (unread : Bytes) : Ensures (natural width) unread fun _ rest => rest <:+ unread :=
  .bind ((take_suffix width unread).imp fun _ _ suffix => .pure suffix)

theorem double_suffix (unread : Bytes) : Ensures double unread fun _ rest => rest <:+ unread :=
  .bind ((take_suffix 8 unread).imp fun _ _ suffix => .pure suffix)

theorem text_suffix (bytes : Nat) (unread : Bytes) : Ensures (text bytes) unread fun _ rest => rest <:+ unread :=
  .bind ((take_suffix bytes unread).imp fun _ _ suffix => .pure suffix)

theorem sizedText_suffix (width : Nat) (unread : Bytes) :
    Ensures (sizedText width) unread fun _ rest => rest <:+ unread :=
  .bind ((natural_suffix width unread).imp fun size middle began =>
    (text_suffix size middle).imp fun _ _ suffix => suffix.trans began)

end Reader
end RtmpRelay.Amf
