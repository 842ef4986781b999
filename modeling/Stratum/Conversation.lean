import Stratum.Dialogue

/-!
# Conversations

Two programs that run at the same time and are each other's peers. What one has sent arrives at the other
in order, but in pieces of any size and whenever it may; behind the last of it the other learns that the
end is closed, if it is. A program goes on when something has arrived, as far as that allows.

When something arrives is up to the network. So a conversation goes on by a relation, which leaves open
what happens next.
-/

namespace Stratum

namespace Transport

/-- A transport to which bytes have come in pieces. -/
def arriveInPieces (t : Transport) (pieces : List Bytes) : Transport :=
  { t with incoming := t.incoming ++ pieces }

/-- A transport to which nothing comes any more, and from which perhaps nothing is taken any more. -/
def endInput (t : Transport) (broken : Bool) : Transport :=
  { t with inputEnded := true, outputBroken := broken }

end Transport

/-- A program that runs, and how much has reached it. -/
structure Runner (σ : Type) where
  /-- The program. Its end of the connection keeps all that it has sent. -/
  state : σ
  /-- What the program is doing. -/
  progress : Progress := .waiting
  /-- How many of the bytes that its peer has sent have arrived. -/
  heard : Nat := 0

namespace Runner

variable {σ : Type} (p : Program σ)

/-- The program's end of the connection. -/
def transport (r : Runner σ) : Transport := p.transport r.state

/-- The program goes on as far as what has arrived allows. One that has ended closes its end, and does
nothing more. -/
def go (r : Runner σ) : Runner σ :=
  if r.progress.hasEnded then r
  else
    let (progress, s) := p.run r.state
    { r with state := if progress.hasEnded then p.withTransport s (p.transport s).close else s, progress }

/-- Bytes arrive in pieces, and the program goes on. -/
def receive (r : Runner σ) (pieces : List Bytes) : Runner σ :=
  go p { r with
    state := p.withTransport r.state ((r.transport p).arriveInPieces pieces)
    heard := r.heard + pieces.flatten.length }

/-- It turns out that nothing arrives any more, and perhaps that nothing is taken any more. The program
goes on. -/
def endInput (r : Runner σ) (broken : Bool) : Runner σ :=
  go p { r with state := p.withTransport r.state ((r.transport p).endInput broken) }

/-- What can reach a program next, if this is its peer's end of the connection. -/
inductive Hears (peer : Transport) (r : Runner σ) : Runner σ → Prop where
  /-- Some of the bytes on their way, in pieces. -/
  | bytes (pieces : List Bytes) (some : pieces.flatten ≠ [])
    (next : pieces.flatten <+: peer.outgoing.drop r.heard) : Hears peer r (r.receive p pieces)
  /-- That the peer has closed its end. No bytes are on their way, and it is news. -/
  | ending (broken : Bool) (closed : peer.isOpen = false) (all : r.heard = peer.outgoing.length)
    (news : (r.transport p).inputEnded = false) : Hears peer r (r.endInput p broken)

end Runner

/-- Two programs that talk to each other. -/
structure Conversation (σ τ : Type) where
  /-- The one that begins. -/
  client : Runner σ
  /-- The one that answers. -/
  server : Runner τ

namespace Conversation

variable {σ τ : Type} (p : Program σ) (q : Program τ)

/-- Two programs that have just been connected, and have gone as far as they can before anything
arrives. -/
def start (client : σ) (server : τ) : Conversation σ τ where
  client := Runner.go p { state := client }
  server := Runner.go q { state := server }

/-- Something reaches one of the programs. -/
inductive Step : Conversation σ τ → Conversation σ τ → Prop where
  /-- The client hears of the server. -/
  | client {c : Conversation σ τ} {r : Runner σ} (hears : c.client.Hears p (c.server.transport q) r) :
    Step c { c with client := r }
  /-- The server hears of the client. -/
  | server {c : Conversation σ τ} {r : Runner τ} (hears : c.server.Hears q (c.client.transport p) r) :
    Step c { c with server := r }

/-- So many steps lead from one state of a conversation to another. -/
inductive Run : (steps : Nat) → Conversation σ τ → Conversation σ τ → Prop where
  /-- None. -/
  | none (c : Conversation σ τ) : Run 0 c c
  /-- One more. -/
  | more {n : Nat} {c c' c'' : Conversation σ τ} (run : Run n c c') (step : Step p q c' c'') :
    Run (n + 1) c c''

end Conversation

end Stratum
