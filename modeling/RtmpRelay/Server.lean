import RtmpRelay.Session

/-!
Several connections on one relay. They take turns in the order in which they were opened, each until it has
to wait, round after round as long as any of them moves.
-/

namespace RtmpRelay

structure Client where
  session : Session
  random : Bytes

structure Server where
  relay : Relay
  clients : List Client

namespace Server

def new (sinkBuffer : Nat) : Server :=
  ⟨.new sinkBuffer, []⟩

def connect (server : Server) (settings : ConnectionSettings) (random : Bytes) : Server :=
  { server with clients := server.clients ++ [⟨.new settings, random⟩] }

/-- Changes what has come in and gone out on one connection. -/
def update (server : Server) (index : Nat) (change : Endpoint → Endpoint) : Server :=
  { server with
    clients := server.clients.modify index fun client =>
      { client with session := { client.session with endpoint := change client.session.endpoint } } }

/-- Lets every client run once, and answers whether any of them moved. -/
def turn (relay : Relay) : List Client → Relay × List Client × Progress
  | [] => (relay, [], .waiting)
  | client :: rest =>
    let (session, relay, progress) := client.session.run client.random relay
    let (relay, others, further) := turn relay rest
    (relay, { client with session } :: others, if progress = .moved then .moved else further)

def rounds : Nat → Server → Server
  | 0, server => server
  | more + 1, server =>
    match turn server.relay server.clients with
    | (relay, clients, .waiting) => ⟨relay, clients⟩
    | (relay, clients, .moved) => rounds more ⟨relay, clients⟩

def total (measure : Client → Nat) : List Client → Nat
  | [] => 0
  | client :: rest => measure client + total measure rest

/-- So many rounds at most: each but the last takes a byte or a packet or ends a connection, and a byte makes at most
one packet for each client. -/
def limit (server : Server) : Nat :=
  let bytes := total (·.session.endpoint.inbound.length) server.clients
  let packets := total (·.session.queued server.relay) server.clients
  let count := server.clients.length
  (count + 2) * (bytes + 4) + packets + 5 * count + 1

/-- Runs all clients until none of them moves. -/
def run (server : Server) : Server :=
  server.rounds server.limit

end Server
end RtmpRelay
