import RtmpRelay.Proofs.Actions

/-! Which clients get through the handshake. One round of it waits for bytes, answers them and goes on; a client passes
if it has something for each of the three rounds and the last is an echo, and otherwise it is known what it has been
sent by then. The bytes may come in any pieces: a handshake that has stopped for want of bytes goes on where it was. -/

namespace RtmpRelay

namespace Handshake
variable {random : Bytes}

/-- How many rounds there are from a stage on. -/
def Stage.rounds : Stage → Nat
  | .version => 3
  | .hello => 2
  | .echo => 1

theorem answer_rounds {stage : Stage} {received bytes : Bytes} {following : Option Stage}
    (answered : answer random stage received = .ok (bytes, following)) :
    following.elim 0 Stage.rounds + 1 = stage.rounds := by
  cases stage with
  | version =>
    simp only [answer] at answered
    split at answered <;> cases answered
    rfl
  | hello => cases answered; rfl
  | echo =>
    simp only [answer] at answered
    split at answered <;> cases answered
    rfl

/-- A client that comes with a hello and echoes the random bytes of the server; the first eight bytes of an echo do not
matter. -/
structure Echoes (random hello echo : Bytes) : Prop where
  whole : hello.length = 1536
  also : echo.length = 1536
  same : echo.drop 8 = random

/-- Why a client is refused that sends all these bytes, and what it has been sent by then. -/
inductive Refused (random : Bytes) : Bytes → Error → Bytes → Prop where
  | silent : Refused random [] (.transport .unexpectedEnd) []
  | version {version rest} (other : version ≠ 3) :
      Refused random (version :: rest) (.handshake (.version version)) []
  | hello {hello} (short : hello.length < 1536) :
      Refused random (3 :: hello) (.transport .unexpectedEnd) (opening random)
  | echo {hello echo} (whole : hello.length = 1536) (short : echo.length < 1536) :
      Refused random (3 :: (hello ++ echo)) (.transport .unexpectedEnd) (opening random ++ Handshake.echo hello)
  | other {hello echo rest} (whole : hello.length = 1536) (also : echo.length = 1536) (other : echo.drop 8 ≠ random) :
      Refused random (3 :: (hello ++ (echo ++ rest))) (.handshake .echo) (opening random ++ Handshake.echo hello)

theorem echoes_or_refused (random stream : Bytes) :
    (∃ hello echo rest, stream = 3 :: (hello ++ (echo ++ rest)) ∧ Echoes random hello echo) ∨
    ∃ error sent, Refused random stream error sent := by
  have cut (bytes : Bytes) :
      bytes.length < 1536 ∨ ∃ hello rest, bytes = hello ++ rest ∧ hello.length = 1536 := by
    by_cases short : bytes.length < 1536
    · exact .inl short
    · exact .inr ⟨_, _, (List.take_append_drop 1536 bytes).symm, List.length_take_of_le (by omega)⟩
  cases stream with
  | nil => exact .inr ⟨_, _, .silent⟩
  | cons version greeting =>
    by_cases three : version = 3
    · subst three
      obtain short | ⟨hello, rest, rfl, whole⟩ := cut greeting
      · exact .inr ⟨_, _, .hello short⟩
      · obtain short | ⟨echo, rest, rfl, also⟩ := cut rest
        · exact .inr ⟨_, _, .echo whole short⟩
        · by_cases same : echo.drop 8 = random
          · exact .inl ⟨hello, echo, rest, rfl, whole, also, same⟩
          · exact .inr ⟨_, _, .other whole also same⟩
    · exact .inr ⟨_, _, .version three⟩

end Handshake

namespace Endpoint
open Handshake (Stage Echoes Refused)

section Rounds
variable {random : Bytes} {stages : Nat} {stage : Stage} {endpoint : Endpoint}

def shaking (endpoint : Endpoint) (stage : Stage) : Endpoint :=
  { endpoint with connection := { endpoint.connection with phase := .handshaking stage } }

theorem handshake_at (phase : endpoint.connection.phase = .handshaking stage) :
    handshake random endpoint = handshakeFrom random 3 stage endpoint := by
  rw [handshake, bind_connection?, phase]

theorem handshake_past (past : ∀ stage, endpoint.connection.phase ≠ .handshaking stage) :
    handshake random endpoint = .error (.failed (.violation .handshakeRepeated)) endpoint := by
  rw [handshake, bind_connection?]
  cases phase : endpoint.connection.phase with
  | handshaking stage => exact absurd phase (past stage)
  | readingHeader | publishing | playing | closed => rfl

theorem handshakeFrom_short (short : endpoint.inbound.length < stage.awaited) :
    handshakeFrom random (stages + 1) stage endpoint = .error endpoint.starvation (endpoint.shaking stage) := by
  have missing : Chunk.Reader.take stage.awaited (endpoint.shaking stage).inbound = none := by
    rw [Chunk.Reader.take, Bytes.split?_eq]
    exact if_neg (Nat.not_le_of_lt short)
  rw [handshakeFrom, bind_ok (show update _ endpoint = .ok () (endpoint.shaking stage) from rfl),
    bind_error (receive_none missing)]
  rfl

/-- A round whose bytes are there: a refusal leaves the handshake at its beginning. -/
theorem handshakeFrom_taken {received rest : Bytes} (front : endpoint.inbound = received ++ rest)
    (size : received.length = stage.awaited) :
    handshakeFrom random (stages + 1) stage endpoint =
      match Handshake.answer random stage received with
      | .error error => .error (.failed error) { endpoint.shaking .version with inbound := rest }
      | .ok (bytes, some next) => handshakeFrom random stages next
          { endpoint.shaking stage with inbound := rest, outbound := endpoint.outbound ++ bytes }
      | .ok (bytes, none) => .ok () { endpoint with
          connection := { endpoint.connection with phase := .readingHeader }
          inbound := rest
          outbound := endpoint.outbound ++ bytes } := by
  have taken : Chunk.Reader.take stage.awaited (endpoint.shaking stage).inbound = some (received, rest) := by
    rw [show (endpoint.shaking stage).inbound = received ++ rest from front, ← size]
    exact Bytes.split?_append received rest
  rw [handshakeFrom, bind_ok (show update _ endpoint = .ok () (endpoint.shaking stage) from rfl),
    bind_ok (receive_some taken)]
  cases Handshake.answer random stage received with
  | error error => rfl
  | ok answer =>
    obtain ⟨bytes, following⟩ := answer
    cases following <;> rfl

/-- No more rounds are needed than there are stages. -/
theorem handshakeFrom_enough (enough : stage.rounds ≤ stages) (endpoint : Endpoint) :
    handshakeFrom random stages stage endpoint = handshakeFrom random 3 stage endpoint := by
  suffices exact : ∀ stages stage endpoint, stage.rounds ≤ stages →
      handshakeFrom random stages stage endpoint = handshakeFrom random stage.rounds stage endpoint by
    rw [exact stages stage endpoint enough, exact 3 stage endpoint (by cases stage <;> decide)]
  intro stages
  induction stages with
  | zero => intro stage _ none; cases stage <;> contradiction
  | succ stages ih =>
    intro stage endpoint enough
    obtain ⟨fewer, left⟩ : ∃ fewer, stage.rounds = fewer + 1 := by cases stage <;> exact ⟨_, rfl⟩
    rw [left]
    by_cases short : endpoint.inbound.length < stage.awaited
    · rw [handshakeFrom_short short, handshakeFrom_short short]
    · have front := (List.take_append_drop stage.awaited endpoint.inbound).symm
      have size := List.length_take_of_le (Nat.le_of_not_lt short)
      rw [handshakeFrom_taken front size, handshakeFrom_taken front size]
      cases answered : Handshake.answer random stage (endpoint.inbound.take stage.awaited) with
      | error error => rfl
      | ok answer =>
        obtain ⟨bytes, following⟩ := answer
        cases following with
        | none => rfl
        | some next =>
          have rounds : next.rounds + 1 = stage.rounds := Handshake.answer_rounds answered
          obtain rfl : fewer = next.rounds := by omega
          exact ih next _ (by omega)

/-- A handshake that is through has changed nothing about the connection but its phase. -/
theorem handshakeFrom_connection {next : Endpoint} (enough : stage.rounds ≤ stages)
    (done : handshakeFrom random stages stage endpoint = .ok () next) :
    next.connection = { endpoint.connection with phase := .readingHeader } := by
  induction stages generalizing stage endpoint with
  | zero => cases stage <;> contradiction
  | succ stages ih =>
    by_cases short : endpoint.inbound.length < stage.awaited
    · rw [handshakeFrom_short short] at done
      cases done
    · have front := (List.take_append_drop stage.awaited endpoint.inbound).symm
      rw [handshakeFrom_taken front (List.length_take_of_le (Nat.le_of_not_lt short))] at done
      cases answered : Handshake.answer random stage (endpoint.inbound.take stage.awaited) with
      | error error => rw [answered] at done; cases done
      | ok answer =>
        obtain ⟨bytes, following⟩ := answer
        rw [answered] at done
        cases following with
        | none => cases done; rfl
        | some later =>
          have rounds : later.rounds + 1 = stage.rounds := Handshake.answer_rounds answered
          have fewer : later.rounds ≤ stages := by omega
          exact (ih fewer done).trans rfl

end Rounds

/-- The handshake with a client whose bytes come in pieces, and who closes its side after them. -/
def handshakeOver (random : Bytes) : List Bytes → Action Unit
  | [], endpoint => handshake random endpoint.close
  | piece :: pieces, endpoint =>
    match handshake random (endpoint.feed piece) with
    | .error .waiting after => handshakeOver random pieces after
    | .error stop after => .error stop (after.feed pieces.flatten).close
    | .ok () after => .ok () (after.feed pieces.flatten).close

section Pieces
variable {random : Bytes} {stage : Stage} {endpoint : Endpoint}

/-- The last bytes of a client come in. -/
def completed (endpoint : Endpoint) (bytes : Bytes) : Endpoint :=
  (endpoint.feed bytes).close

private theorem handshakeFrom_completed (more : Bytes) (stages : Nat) :
    ∀ (stage : Stage) (endpoint : Endpoint), endpoint.ended = false → stage.rounds ≤ stages →
      handshakeFrom random stages stage (endpoint.completed more) =
        match handshakeFrom random stages stage endpoint with
        | .error .waiting after => handshake random (after.completed more)
        | .error stop after => .error stop (after.completed more)
        | .ok () after => .ok () (after.completed more) := by
  induction stages with
  | zero => intro stage _ _ none; cases stage <;> contradiction
  | succ stages ih =>
    intro stage endpoint opened enough
    by_cases short : endpoint.inbound.length < stage.awaited
    · rw [handshakeFrom_short short, starvation, if_neg (by rw [opened]; exact Bool.false_ne_true),
        handshakeFrom_enough enough]
      rfl
    · have front := (List.take_append_drop stage.awaited endpoint.inbound).symm
      have size := List.length_take_of_le (Nat.le_of_not_lt short)
      have longer : (endpoint.completed more).inbound =
          endpoint.inbound.take stage.awaited ++ (endpoint.inbound.drop stage.awaited ++ more) := by
        rw [← List.append_assoc, ← front]
        rfl
      rw [handshakeFrom_taken front size, handshakeFrom_taken longer size]
      cases answered : Handshake.answer random stage (endpoint.inbound.take stage.awaited) with
      | error error => rfl
      | ok answer =>
        obtain ⟨bytes, following⟩ := answer
        cases following with
        | none => rfl
        | some next =>
          have rounds : next.rounds + 1 = stage.rounds := Handshake.answer_rounds answered
          exact ih next { endpoint.shaking stage with
            inbound := endpoint.inbound.drop stage.awaited, outbound := endpoint.outbound ++ bytes } opened (by omega)

theorem handshakeFrom_ended (stages : Nat) :
    ∀ (stage : Stage) (endpoint : Endpoint),
      (left (handshakeFrom random stages stage endpoint)).ended = endpoint.ended := by
  induction stages with
  | zero => exact fun _ _ => rfl
  | succ stages ih =>
    intro stage endpoint
    by_cases short : endpoint.inbound.length < stage.awaited
    · rw [handshakeFrom_short short]
      rfl
    · have front := (List.take_append_drop stage.awaited endpoint.inbound).symm
      rw [handshakeFrom_taken front (List.length_take_of_le (Nat.le_of_not_lt short))]
      cases Handshake.answer random stage (endpoint.inbound.take stage.awaited) with
      | error error => rfl
      | ok answer =>
        obtain ⟨bytes, following⟩ := answer
        cases following with
        | none => rfl
        | some next => exact ih next _

theorem handshake_ended (random : Bytes) (endpoint : Endpoint) :
    (left (handshake random endpoint)).ended = endpoint.ended := by
  cases phase : endpoint.connection.phase with
  | handshaking stage =>
    rw [handshake_at phase]
    exact handshakeFrom_ended 3 stage endpoint
  | readingHeader | publishing | playing | closed => rw [handshake_past (by rw [phase]; nofun)]; rfl

theorem handshake_completed (opened : endpoint.ended = false) (more : Bytes) :
    handshake random (endpoint.completed more) =
      match handshake random endpoint with
      | .error .waiting after => handshake random (after.completed more)
      | .error stop after => .error stop (after.completed more)
      | .ok () after => .ok () (after.completed more) := by
  cases phase : endpoint.connection.phase with
  | handshaking stage =>
    rw [handshake_at phase, handshake_at (show (endpoint.completed more).connection.phase = _ from phase)]
    exact handshakeFrom_completed more 3 stage endpoint opened (by cases stage <;> decide)
  | readingHeader | publishing | playing | closed =>
    have past : ∀ stage, endpoint.connection.phase ≠ .handshaking stage := by rw [phase]; nofun
    rw [handshake_past past, handshake_past (show ∀ stage, (endpoint.completed more).connection.phase ≠ _ from past)]

/-- However the bytes are cut, the handshake ends as if they had been there at once. -/
theorem handshakeOver_eq (random : Bytes) (pieces : List Bytes) :
    ∀ endpoint : Endpoint, endpoint.ended = false →
      handshakeOver random pieces endpoint = handshake random (endpoint.completed pieces.flatten) := by
  induction pieces with
  | nil =>
    intro endpoint opened
    rw [completed, feed, List.flatten_nil, List.append_nil]
    rfl
  | cons piece pieces ih =>
    intro endpoint opened
    have joined : endpoint.completed (piece :: pieces).flatten = (endpoint.feed piece).completed pieces.flatten := by
      rw [completed, completed, feed, feed, feed, List.flatten_cons, List.append_assoc]
    have still : (endpoint.feed piece).ended = false := opened
    rw [joined, handshake_completed still, handshakeOver]
    cases ran : handshake random (endpoint.feed piece) with
    | ok done after => rfl
    | error stop after =>
      cases stop with
      | failed error => rfl
      | waiting =>
        refine ih after ?_
        have same := handshake_ended random (endpoint.feed piece)
        rw [ran] at same
        exact same.trans opened

end Pieces

section Clients
variable {random hello echo rest : Bytes} {endpoint : Endpoint}

theorem handshakeFrom_version (stream : endpoint.inbound = 3 :: rest) :
    handshakeFrom random 3 .version endpoint = handshakeFrom random 2 .hello { endpoint with
      inbound := rest, outbound := endpoint.outbound ++ Handshake.opening random } := by
  rw [handshakeFrom_taken (show endpoint.inbound = [3] ++ rest from stream) rfl]
  rfl

theorem handshakeFrom_hello (stream : endpoint.inbound = hello ++ rest) (whole : hello.length = Stage.hello.awaited) :
    handshakeFrom random 2 .hello endpoint = handshakeFrom random 1 .echo { endpoint with
      inbound := rest, outbound := endpoint.outbound ++ Handshake.echo hello } := by
  rw [handshakeFrom_taken stream whole]
  rfl

theorem handshakeFrom_echoes (echoes : Echoes random hello echo)
    (stream : endpoint.inbound = 3 :: (hello ++ (echo ++ rest))) :
    handshakeFrom random 3 .version endpoint = .ok () { endpoint with
      connection := { endpoint.connection with phase := .readingHeader }
      inbound := rest
      outbound := endpoint.outbound ++ (Handshake.opening random ++ Handshake.echo hello) } := by
  have answered : Handshake.answer random .echo echo = .ok ([], none) := if_pos echoes.same
  rw [handshakeFrom_version stream, handshakeFrom_hello rfl echoes.whole,
    handshakeFrom_taken rfl (show echo.length = Stage.echo.awaited from echoes.also), answered]
  dsimp only
  rw [Array.appendList_nil, Bytes.append_append]

theorem handshakeFrom_refused {error : Error} {sent : Bytes} (refused : Refused random endpoint.inbound error sent)
    (ended : endpoint.ended = true) :
    ∃ stage unread, handshakeFrom random 3 .version endpoint = .error (.failed error)
      { endpoint.shaking stage with inbound := unread, outbound := endpoint.outbound ++ sent } := by
  generalize stream : endpoint.inbound = bytes at refused
  have starving : endpoint.starvation = .failed (.transport .unexpectedEnd) := if_pos ended
  cases refused with
  | silent =>
    refine ⟨.version, [], ?_⟩
    rw [handshakeFrom_short (by rw [stream]; exact Nat.one_pos), starving, Array.appendList_nil, ← stream]
    rfl
  | @version version rest other =>
    have answered : Handshake.answer random .version [version] = .error (.handshake (.version version)) := if_neg other
    refine ⟨.version, rest, ?_⟩
    rw [handshakeFrom_taken (show endpoint.inbound = [version] ++ rest from stream) rfl, answered, Array.appendList_nil]
    rfl
  | @hello hello short =>
    refine ⟨.hello, hello, ?_⟩
    rw [handshakeFrom_version stream, handshakeFrom_short (show hello.length < Stage.hello.awaited from short)]
    exact congrArg (EStateM.Result.error · _) starving
  | @echo hello echo whole short =>
    refine ⟨.echo, echo, ?_⟩
    rw [handshakeFrom_version stream, handshakeFrom_hello rfl whole,
      handshakeFrom_short (show echo.length < Stage.echo.awaited from short), ← Bytes.append_append]
    exact congrArg (EStateM.Result.error · _) starving
  | @other hello echo rest whole also other =>
    have answered : Handshake.answer random .echo echo = .error (.handshake .echo) := if_neg other
    refine ⟨.version, rest, ?_⟩
    rw [handshakeFrom_version stream, handshakeFrom_hello rfl whole,
      handshakeFrom_taken rfl (show echo.length = Stage.echo.awaited from also), answered, ← Bytes.append_append]
    rfl

/-- A client passes the handshake just if it greets with the version, sends a hello and echoes the random bytes of the
server. What it sends beyond that is left for later and not counted, and in every other case the connection is still
shaking hands. -/
theorem handshake_passes_echoes (settings : ConnectionSettings) (random : Bytes) (pieces : List Bytes) :
    let stream := pieces.flatten
    let fresh := Endpoint.new settings
    ((∃ after, handshakeOver random pieces fresh = .ok () after) ↔
      ∃ hello echo rest, stream = 3 :: (hello ++ (echo ++ rest)) ∧ Echoes random hello echo) ∧
    match handshakeOver random pieces fresh with
    | .ok () after =>
      ∃ hello echo rest, stream = 3 :: (hello ++ (echo ++ rest)) ∧ Echoes random hello echo ∧ after = { fresh with
        connection := { fresh.connection with phase := .readingHeader }
        inbound := rest
        ended := true
        outbound := (3 :: (List.replicate 8 0 ++ random ++
          hello.take 4 ++ List.replicate 4 0 ++ hello.drop 8)).toArray }
    | .error stop after =>
      ∃ error sent stage unread, Refused random stream error sent ∧ stop = .failed error ∧ after = { fresh with
        connection := { fresh.connection with phase := .handshaking stage }
        inbound := unread
        ended := true
        outbound := sent.toArray } := by
  intro stream fresh
  have whole : handshakeOver random pieces fresh = handshakeFrom random 3 .version (fresh.completed stream) :=
    handshakeOver_eq random pieces fresh rfl
  have nothing : (fresh.completed stream).outbound = #[] := rfl
  have written (bytes : Bytes) : (#[] : Array UInt8) ++ bytes = bytes.toArray :=
    List.toArray_appendList [] bytes
  rw [whole]
  obtain ⟨hello, echo, rest, greeting, echoes⟩ | ⟨error, sent, refused⟩ := Handshake.echoes_or_refused random stream
  · have passed := handshakeFrom_echoes echoes (show (fresh.completed stream).inbound = _ from greeting)
    rw [passed]
    refine ⟨⟨fun _ => ⟨hello, echo, rest, greeting, echoes⟩, fun _ => ⟨_, rfl⟩⟩,
      hello, echo, rest, greeting, echoes, ?_⟩
    rw [nothing, written, Handshake.opening, Handshake.echo]
    simp only [List.cons_append, List.append_assoc]
    rfl
  · obtain ⟨stage, unread, failed⟩ := handshakeFrom_refused
      (show Refused random (fresh.completed stream).inbound error sent from refused) rfl
    refine ⟨⟨fun ⟨after, passed⟩ => ?_, fun ⟨hello, echo, rest, greeting, echoes⟩ => ?_⟩, ?_⟩
    · rw [failed] at passed
      cases passed
    · exact ⟨_, handshakeFrom_echoes echoes (show (fresh.completed stream).inbound = _ from greeting)⟩
    · rw [failed]
      refine ⟨error, sent, stage, unread, refused, rfl, ?_⟩
      rw [nothing, written]
      rfl

end Clients
end Endpoint
end RtmpRelay
