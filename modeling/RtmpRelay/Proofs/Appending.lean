import RtmpRelay.Proofs.Fields

/-! Writing only ever appends. Whether a value can be written depends on its lengths and counts alone, and what is written
or left behind by a refusal stands behind what was there. Of several values, those before the first that is refused stand
there in full. -/

namespace RtmpRelay.Amf.Amf0
open Value (Throughout)

/-- Bytes are added at the end, however the writing ends, and only what is too long is refused. -/
def Appends (writer : Writer α) : Prop :=
  ∀ out, match writer out with
    | .ok _ after => ∃ added : Bytes, after = out ++ added
    | .error error after => (∃ cause, error = .unencodable cause) ∧ ∃ added : Bytes, after = out ++ added

namespace Appends
variable {first : Writer β} {next : β → Writer α}

theorem pure (value : α) : Appends (pure value) := by
  intro out
  exact ⟨[], Array.appendList_nil.symm⟩

theorem throw (cause : Oversize) : Appends (throw (.unencodable cause) : Writer α) := by
  intro out
  exact ⟨⟨cause, rfl⟩, [], Array.appendList_nil.symm⟩

theorem put (added : Bytes) : Appends (Writer.put added) := by
  intro out
  exact ⟨added, rfl⟩

theorem bind (begins : Appends first) (goesOn : ∀ value, Appends (next value)) : Appends (first >>= next) := by
  intro out
  have began := begins out
  cases ran : first out with
  | error error after =>
    rw [ran] at began
    rw [run_bind_error ran]
    exact began
  | ok value middle =>
    rw [ran] at began
    obtain ⟨front, rfl⟩ := began
    have ended := goesOn value (out ++ front)
    rw [run_bind_ok ran]
    cases further : next value (out ++ front) with
    | ok last after =>
      rw [further] at ended
      obtain ⟨behind, rfl⟩ := ended
      exact ⟨front ++ behind, Bytes.append_append out front behind⟩
    | error error after =>
      rw [further] at ended
      obtain ⟨oversize, behind, rfl⟩ := ended
      exact ⟨oversize, front ++ behind, Bytes.append_append out front behind⟩

theorem key (text : String) : Appends (Writer.key text) := by
  unfold Writer.key
  dsimp only
  split
  · exact (put _).bind fun _ => (put _).bind fun _ => pure _
  · exact throw _

theorem checkedLength (length : Nat) (oversize : Nat → Oversize) : Appends (Writer.checkedLength length oversize) := by
  unfold Writer.checkedLength
  split
  · exact pure ()
  · exact throw _

theorem string (text : String) : Appends (Writer.string text) := by
  unfold Writer.string
  dsimp only
  split
  · exact (put _).bind fun _ => (key text).bind fun _ => pure _
  · exact (checkedLength _ _).bind fun _ => (put _).bind fun _ => (put _).bind fun _ => (put _).bind fun _ => pure _

end Appends

mutual
theorem encode_appends : ∀ value, Appends (encode value)
  | .number value => by
    rw [encode]
    exact (Appends.put _).bind fun _ => (Appends.put _).bind fun _ => .pure _
  | .boolean value => by
    rw [encode]
    exact (Appends.put _).bind fun _ => (Appends.put _).bind fun _ => .pure _
  | .string text => by
    rw [encode]
    exact .string text
  | .object properties => by
    rw [encode]
    exact (Appends.put _).bind fun _ => (encodeProperties_appends properties).bind fun _ => .pure _
  | .null => by
    rw [encode]
    exact (Appends.put _).bind fun _ => .pure _
  | .undefined => by
    rw [encode]
    exact (Appends.put _).bind fun _ => .pure _
  | .ecmaArray properties => by
    rw [encode]
    refine (Appends.checkedLength _ _).bind fun _ => (Appends.put _).bind fun _ => (Appends.put _).bind fun _ => ?_
    exact (encodeProperties_appends properties).bind fun _ => .pure _
  | .strictArray items => by
    rw [encode]
    refine (Appends.checkedLength _ _).bind fun _ => (Appends.put _).bind fun _ => (Appends.put _).bind fun _ => ?_
    exact (encodeBatch_appends items).bind fun _ => .pure _
  | .date milliseconds => by
    rw [encode]
    exact (Appends.put _).bind fun _ => (Appends.put _).bind fun _ => (Appends.put _).bind fun _ => .pure _
  | .typedObject className properties => by
    rw [encode]
    refine (Appends.put _).bind fun _ => (Appends.key className).bind fun _ => ?_
    exact (encodeProperties_appends properties).bind fun _ => .pure _

theorem encodeBatch_appends : ∀ values, Appends (encodeBatch values)
  | [] => by
    rw [encodeBatch]
    exact .pure 0
  | value :: rest => by
    rw [encodeBatch]
    exact (encode_appends value).bind fun _ => (encodeBatch_appends rest).bind fun _ => .pure _

theorem encodeProperties_appends : ∀ properties, Appends (encodeProperties properties)
  | [] => by
    rw [encodeProperties]
    exact (Appends.put _).bind fun _ => .pure _
  | (name, value) :: rest => by
    rw [encodeProperties]
    refine (Appends.key name).bind fun _ => (encode_appends value).bind fun _ => ?_
    exact (encodeProperties_appends rest).bind fun _ => .pure _
end

theorem encode_ends (value : Value) (out : Array UInt8) :
    match encode value out with
    | .ok size after => Throughout FitsFields value ∧ ∃ form : Bytes, size = form.length ∧ after = out ++ form
    | .error error after => ¬ Throughout FitsFields value ∧ (∃ cause, error = .unencodable cause) ∧
      ∃ partly : Bytes, after = out ++ partly := by
  have fits := encode_ok_iff value out
  cases written : encode value out with
  | ok size after =>
    obtain ⟨form, -, same, appended⟩ := encode_appended out value size after written
    exact ⟨fits.mp ⟨size, after, written⟩, form, same, appended⟩
  | error error after =>
    have appended := encode_appends value out
    rw [written] at appended
    refine ⟨fun all => ?_, appended⟩
    obtain ⟨size, other, also⟩ := fits.mpr all
    rw [written] at also
    cases also

theorem encode_writes_of_ok {value : Value} {out after : Array UInt8} {size : Nat}
    (written : encode value out = .ok size after) :
    ∃ form, Writes (encode value) form ∧ size = form.length ∧ after = out ++ form := by
  obtain ⟨form, derived, same, appended⟩ := encode_appended out value size after written
  exact ⟨form, encode_writes value derived, same, appended⟩

/-- Each of the values is written in the form beside it, wherever that is. -/
def WrittenAs : List Value → List Bytes → Prop :=
  List.Forall₂ fun value form => Writes (encode value) form

theorem encodeBatch_ends (values : List Value) (out : Array UInt8) :
    match encodeBatch values out with
    | .ok size after => ∃ forms, WrittenAs values forms ∧ size = (forms.map List.length).sum ∧ after = out ++ forms.flatten
    | .error error after => ∃ done failed rest forms, values = done ++ failed :: rest ∧ WrittenAs done forms ∧
      encode failed (out ++ forms.flatten) = .error error after := by
  induction values generalizing out with
  | nil =>
    rw [encodeBatch]
    exact ⟨[], .nil, rfl, Array.appendList_nil.symm⟩
  | cons value values ih =>
    rw [encodeBatch]
    cases written : encode value out with
    | error error after =>
      rw [run_bind_error written]
      refine ⟨[], value, values, [], rfl, .nil, ?_⟩
      rw [List.flatten_nil, Array.appendList_nil]
      exact written
    | ok size middle =>
      obtain ⟨form, writes, same, rfl⟩ := encode_writes_of_ok written
      have others := ih (out ++ form)
      rw [run_bind_ok written]
      cases further : encodeBatch values (out ++ form) with
      | ok sizes after =>
        rw [further] at others
        obtain ⟨forms, listed, counted, appended⟩ := others
        rw [run_bind_ok further]
        refine ⟨form :: forms, .cons writes listed, ?_, ?_⟩
        · rw [same, counted, List.map_cons, List.sum_cons]
        · rw [appended, List.flatten_cons, Bytes.append_append]
      | error error after =>
        rw [further] at others
        obtain ⟨done, failed, rest, forms, split, listed, refused⟩ := others
        rw [run_bind_error further]
        refine ⟨value :: done, failed, rest, form :: forms, ?_, .cons writes listed, ?_⟩
        · rw [split, List.cons_append]
        · rw [List.flatten_cons, ← Bytes.append_append]
          exact refused

theorem fits_of_writtenAs {values : List Value} {forms : List Bytes} (listed : WrittenAs values forms) :
    ∀ value ∈ values, Throughout FitsFields value := by
  induction listed with
  | nil => exact fun value member => (nomatch member)
  | cons writes others ih =>
    exact List.forall_mem_cons.mpr ⟨(encode_ok_iff _ #[]).mp ⟨_, _, writes #[]⟩, ih⟩

/-- A value is written exactly if all lengths and counts in it fit their fields. Its form stands behind what was there,
and its size is the answer; of a value that is refused, a part may stand there. Values are written exactly if each of
them is, one behind the other; those before the first that is refused stand there in full. -/
theorem writing_only_appends :
    (∀ value out, match encode value out with
      | .ok size after => Throughout FitsFields value ∧ ∃ form : Bytes, size = form.length ∧ after = out ++ form
      | .error error after => ¬ Throughout FitsFields value ∧ (∃ cause, error = .unencodable cause) ∧
        ∃ partly : Bytes, after = out ++ partly) ∧
    ∀ values out, match encodeBatch values out with
      | .ok size after => (∀ value ∈ values, Throughout FitsFields value) ∧
        ∃ forms, WrittenAs values forms ∧ size = (forms.map List.length).sum ∧ after = out ++ forms.flatten
      | .error error after => ∃ done failed rest forms, ∃ partly : Bytes, values = done ++ failed :: rest ∧
        WrittenAs done forms ∧ ¬ Throughout FitsFields failed ∧
        encode failed (out ++ forms.flatten) = .error error after ∧ after = out ++ (forms.flatten ++ partly) := by
  refine ⟨encode_ends, fun values out => ?_⟩
  have ends := encodeBatch_ends values out
  cases written : encodeBatch values out with
  | ok size after =>
    rw [written] at ends
    obtain ⟨forms, listed, counted, appended⟩ := ends
    exact ⟨fits_of_writtenAs listed, forms, listed, counted, appended⟩
  | error error after =>
    rw [written] at ends
    obtain ⟨done, failed, rest, forms, split, listed, refused⟩ := ends
    have stopped := encode_ends failed (out ++ forms.flatten)
    rw [refused] at stopped
    obtain ⟨oversize, -, partly, appended⟩ := stopped
    refine ⟨done, failed, rest, forms, partly, split, listed, oversize, refused, ?_⟩
    rw [appended, Bytes.append_append]

end RtmpRelay.Amf.Amf0
