import Mathlib.Logic.Relation
import RtmpRelay.Proofs.Paying
import RtmpRelay.Server

/-! The rounds come to an end. What is left to do shrinks whenever a session moves, and what a packet adds for the others
has been paid for by the bytes that it was made of. So the limits on steps and rounds are never met: a session runs until
it has to wait, and a server until all of them do. -/

namespace RtmpRelay

namespace Session
open Relation (ReflTransGen)

/-- A step that moves the session. -/
def Moves (random : Bytes) (before after : Session × Relay) : Prop :=
  before.1.step random .queue before.2 = (after.1, after.2, .moved)

variable {random : Bytes}

theorem advance_pays (others rounds : Nat) (session : Session) (relay : Relay) (progress : Progress) :
    Pays others (session.work others relay + progress.count) session relay
      (advance random rounds (session, relay, progress)) := by
  induction rounds generalizing session relay progress with
  | zero => exact ⟨id, fun _ numbered => numbered, 0, fun _ => .refl relay, by rw [advance, Nat.mul_zero, Nat.zero_add]⟩
  | succ rounds ih =>
    have pays : Pays others (session.work others relay) session relay (session.step random .queue relay) := step_pays ..
    obtain ⟨next, after, found, stepped⟩ : ∃ next after found,
        session.step random .queue relay = (next, after, found) := ⟨_, _, _, rfl⟩
    rw [advance, stepped]
    rw [stepped] at pays
    cases found with
    | moved => exact (pays.weaken (Nat.le_add_right _ _)).trans (ih next after .moved)
    | waiting =>
      obtain ⟨sent, fills, paid⟩ := pays.spent
      exact ⟨pays.tidy, pays.numbered, sent, fills, Nat.add_le_add_right paid progress.count⟩

theorem run_pays (others : Nat) (session : Session) (relay : Relay) :
    Pays others (session.work others relay) session relay (session.run random relay) :=
  advance_pays others _ session relay .waiting

theorem work_le (others : Nat) (session : Session) (relay : Relay) : session.work others relay ≤
    (others + 2) * session.endpoint.inbound.length + session.queued relay + 6 := by
  rw [work, queued]
  cases session.role with
  | negotiating | publisher | finished => simp
  | player subscriber isReading => cases isReading <;> simp

theorem advance_settles (rounds : Nat) (session : Session) (relay : Relay) (progress : Progress)
    (enough : session.work 0 relay ≤ rounds) :
    let reached := advance random rounds (session, relay, progress)
    ∃ last, ReflTransGen (Moves random) (session, relay) last ∧
      last.1.step random .queue last.2 = (reached.1, reached.2.1, .waiting) := by
  induction rounds generalizing session relay progress with
  | zero =>
    refine ⟨(session, relay), .refl, ?_⟩
    rw [step]
    cases role : session.role with
    | finished result => rfl
    | negotiating | publisher | player =>
      exact absurd (work_pos role nofun) (Nat.not_lt.mpr enough)
  | succ rounds ih =>
    have pays : Pays 0 (session.work 0 relay) session relay (session.step random .queue relay) := step_pays ..
    obtain ⟨next, after, found, stepped⟩ : ∃ next after found,
        session.step random .queue relay = (next, after, found) := ⟨_, _, _, rfl⟩
    rw [advance, stepped]
    rw [stepped] at pays
    cases found with
    | waiting => exact ⟨(session, relay), .refl, stepped⟩
    | moved =>
      obtain ⟨sent, -, paid⟩ := pays.spent
      simp only [Progress.count] at paid
      obtain ⟨last, further, waits⟩ := ih next after .moved (by omega)
      have moves : Moves random (session, relay) (next, after) := stepped
      exact ⟨last, .head moves further, waits⟩

/-- A session runs until it has to wait. -/
theorem run_settles (session : Session) (relay : Relay) :
    let reached := session.run random relay
    ∃ last, ReflTransGen (Moves random) (session, relay) last ∧
      last.1.step random .queue last.2 = (reached.1, reached.2.1, .waiting) :=
  advance_settles _ session relay .waiting (work_le 0 session relay)

theorem Numbered.mono {session : Session} {before after : Relay} (numbered : session.Numbered before)
    (further : before.nextId ≤ after.nextId) : session.Numbered after :=
  fun subscriber isReading role => Nat.lt_of_lt_of_le (numbered subscriber isReading role) further

/-- A packet from others adds no more than one to what is left to do. -/
theorem work_of_fills {session : Session} {before after : Relay} {others sent : Nat} (fills : Relay.Fills sent before after)
    (numbered : session.Numbered before) : session.work others after ≤ session.work others before + sent := by
  unfold work
  cases role : session.role with
  | finished | negotiating | publisher => exact Nat.le_add_right _ sent
  | player subscriber isReading =>
    have grown := fills.queues subscriber.id (numbered subscriber isReading role)
    dsimp only
    omega

end Session

namespace Server
open Relation (ReflTransGen)
open Relay (Fills)

def work (others : Nat) (relay : Relay) (clients : List Client) : Nat :=
  total (fun client => client.session.work others relay) clients

structure Sound (relay : Relay) (clients : List Client) : Prop where
  tidy : relay.Tidy
  numbered : ∀ client ∈ clients, client.session.Numbered relay

theorem work_of_fills {others sent : Nat} {before after : Relay} {clients : List Client} (fills : Fills sent before after)
    (numbered : ∀ client ∈ clients, client.session.Numbered before) :
    work others after clients ≤ work others before clients + clients.length * sent := by
  induction clients with
  | nil => exact Nat.zero_le _
  | cons client clients ih =>
    obtain ⟨here, there⟩ := List.forall_mem_cons.mp numbered
    have first : client.session.work others after ≤ _ := Session.work_of_fills fills here
    have rest := ih there
    simp only [work, total, List.length_cons, Nat.succ_mul] at rest ⊢
    omega

/-- What a turn of some clients leads to. The packets that reach the others, who are not among them, are paid for. -/
structure Turns (everybody others : Nat) (relay : Relay) (clients : List Client) (reached : Relay × List Client × Progress) :
    Prop where
  sound : Sound reached.1 reached.2.1
  length : reached.2.1.length = clients.length
  spent : ∃ sent, Fills sent relay reached.1 ∧
    others * sent + work everybody reached.1 reached.2.1 + reached.2.2.count ≤ work everybody relay clients

theorem turn_pays {everybody : Nat} (clients : List Client) (others : Nat) (relay : Relay) (sound : Sound relay clients)
    (counted : clients.length + others = everybody) : Turns everybody others relay clients (turn relay clients) := by
  induction clients generalizing others relay with
  | nil => exact ⟨sound, rfl, 0, .refl relay, by simp [turn, work, total, Progress.count]⟩
  | cons client clients ih =>
    obtain ⟨here, there⟩ := List.forall_mem_cons.mp sound.numbered
    have pays : Session.Pays everybody _ client.session relay (client.session.run client.random relay) :=
      Session.run_pays everybody client.session relay
    obtain ⟨session, middle, progress, ran⟩ : ∃ session middle progress,
        client.session.run client.random relay = (session, middle, progress) := ⟨_, _, _, rfl⟩
    rw [ran] at pays
    obtain ⟨first, early, paid⟩ := pays.spent
    have filled := early sound.tidy
    have next : Sound middle clients :=
      ⟨pays.tidy sound.tidy, fun other member => (there other member).mono filled.nextId⟩
    have counted : clients.length + (others + 1) = everybody := by rw [← counted, List.length_cons]; omega
    have turns := ih (others + 1) middle next counted
    obtain ⟨after, rest, further, turned⟩ : ∃ after rest further, turn middle clients = (after, rest, further) :=
      ⟨_, _, _, rfl⟩
    rw [turned] at turns
    obtain ⟨second, late, spent⟩ := turns.spent
    have reached : turn relay (client :: clients) =
        (after, { client with session } :: rest, if progress = .moved then .moved else further) := by
      rw [turn, ran]
      dsimp only
      rw [turned]
    have moving := pays.numbered sound.tidy here
    rw [reached]
    refine ⟨⟨turns.sound.tidy, List.forall_mem_cons.mpr ⟨moving.mono late.nextId, turns.sound.numbered⟩⟩,
      congrArg (· + 1) turns.length, first + second, filled.trans late, ?_⟩
    have count : (if progress = .moved then Progress.moved else further).count ≤ progress.count + further.count := by
      cases progress <;> simp [Progress.count]
    have ahead : session.work everybody after ≤ session.work everybody middle + second := Session.work_of_fills late moving
    have behind : work everybody middle clients ≤ work everybody relay clients + clients.length * first :=
      work_of_fills filled there
    have packets : everybody * first = clients.length * first + others * first + first := by
      rw [← counted, Nat.add_mul, Nat.add_mul, Nat.one_mul, Nat.add_assoc]
    have others_paid : (others + 1) * second = others * second + second := Nat.succ_mul others second
    show others * (first + second) + (session.work everybody after + work everybody after rest) +
      (if progress = .moved then Progress.moved else further).count ≤
        client.session.work everybody relay + work everybody relay clients
    rw [Nat.mul_add]
    dsimp only at paid spent
    omega

/-- A round in which some client moves. -/
def Moves (before after : Server) : Prop :=
  turn before.relay before.clients = (after.relay, after.clients, .moved)

theorem rounds_settles (rounds : Nat) (server : Server) (sound : Sound server.relay server.clients)
    (enough : work server.clients.length server.relay server.clients < rounds) :
    let reached := server.rounds rounds
    Sound reached.relay reached.clients ∧ ∃ last, ReflTransGen Moves server last ∧
      turn last.relay last.clients = (reached.relay, reached.clients, .waiting) := by
  induction rounds generalizing server with
  | zero => exact absurd enough (Nat.not_lt_zero _)
  | succ rounds ih =>
    have turns := turn_pays server.clients 0 server.relay sound rfl
    obtain ⟨relay, clients, progress, turned⟩ : ∃ relay clients progress,
        turn server.relay server.clients = (relay, clients, progress) := ⟨_, _, _, rfl⟩
    rw [Server.rounds, turned]
    rw [turned] at turns
    cases progress with
    | waiting => exact ⟨turns.sound, server, .refl, turned⟩
    | moved =>
      obtain ⟨sent, -, paid⟩ := turns.spent
      have same : clients.length = server.clients.length := turns.length
      have less : work clients.length relay clients < rounds := by
        rw [same]
        simp only [Progress.count, Nat.add_zero] at paid
        omega
      obtain ⟨still, last, further, waits⟩ := ih ⟨relay, clients⟩ turns.sound less
      have moves : Moves server ⟨relay, clients⟩ := turned
      exact ⟨still, last, .head moves further, waits⟩

theorem work_lt_limit (server : Server) : work server.clients.length server.relay server.clients < server.limit := by
  have each (others : Nat) (clients : List Client) : work others server.relay clients ≤
      (others + 2) * total (·.session.endpoint.inbound.length) clients +
        total (·.session.queued server.relay) clients + 6 * clients.length := by
    induction clients with
    | nil => exact Nat.zero_le _
    | cons client clients ih =>
      have first := Session.work_le others client.session server.relay
      simp only [work, total, List.length_cons, Nat.mul_add] at ih ⊢
      omega
  have all := each server.clients.length server.clients
  unfold limit
  dsimp only
  rw [Nat.mul_add]
  omega

/-- A server that clients connect to, feed and leave at any time. -/
inductive Reached : Server → Prop where
  | new (sinkBuffer : Nat) : Reached (.new sinkBuffer)
  | connect {server : Server} (reached : Reached server) (settings : ConnectionSettings) (random : Bytes) :
      Reached (server.connect settings random)
  | update {server : Server} (reached : Reached server) (index : Nat) (change : Endpoint → Endpoint) :
      Reached (server.update index change)
  | run {server : Server} (reached : Reached server) : Reached server.run

theorem Reached.sound {server : Server} (reached : Reached server) : Sound server.relay server.clients := by
  induction reached with
  | new sinkBuffer => exact ⟨.new sinkBuffer, List.forall_mem_nil _⟩
  | connect _ settings random ih =>
    refine ⟨ih.tidy, List.forall_mem_append.mpr ⟨ih.numbered, List.forall_mem_singleton.mpr ?_⟩⟩
    exact fun _ _ role => nomatch role
  | update _ index change ih =>
    refine ⟨ih.tidy, fun client member => ?_⟩
    obtain ⟨place, found⟩ := List.mem_iff_getElem?.mp member
    rw [Server.update, List.getElem?_modify] at found
    obtain ⟨before, there, rfl⟩ := Option.map_eq_some_iff.mp found
    have numbered := ih.numbered before (List.mem_of_getElem? there)
    split
    · exact numbered
    · exact numbered
  | @run server _ ih => exact (rounds_settles _ server ih server.work_lt_limit).1

/-- A server runs until all of its clients have to wait. -/
theorem run_settles {server : Server} (reached : Reached server) :
    ∃ last, ReflTransGen Moves server last ∧
      turn last.relay last.clients = (server.run.relay, server.run.clients, .waiting) :=
  (rounds_settles _ server reached.sound server.work_lt_limit).2

end Server
end RtmpRelay
