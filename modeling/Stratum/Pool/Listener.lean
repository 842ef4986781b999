import Stratum.Pool.Server

/-!
# The listener of a pool

A pool that is ready waits for one connection. Its host name is resolved to addresses; the first of them
where a socket listens is taken, and one connection is accepted there. What the system
says to each of these steps is given, so that every way in which a pool can end without a connection is
here: by its command line, its key files, its certificate or its listener.
-/

namespace Stratum.Pool

/-- What the system says to the steps that make a socket listen at an address. -/
structure Address where
  /-- There is a socket. -/
  opened : Bool := true
  /-- The address may be used again. -/
  reusable : Bool := true
  /-- It is bound to the address. -/
  bound : Bool := true
  /-- It listens. -/
  listening : Bool := true
  deriving DecidableEq

/-- Whether a socket listens in the end. -/
def Address.succeed (a : Address) : Bool := a.opened && a.reusable && a.bound && a.listening

/-- What the system says to a program that waits for a connection. -/
inductive AcceptAnswer where
  /-- A signal has interrupted the waiting. -/
  | interrupted
  /-- There will be no connection. -/
  | failed
  /-- A connection is there. -/
  | connected
  deriving DecidableEq

/-- The network as a pool finds it. -/
structure Network where
  /-- The addresses that the host name stands for. -/
  addresses : List Address := [{}]
  /-- Why there are none, in words. -/
  reason : Bytes := []
  /-- What is said to a waiting pool, one answer after another. -/
  accepting : List AcceptAnswer := [.connected]

/-- Why a pool has no connection. -/
inductive ListenFault where
  /-- The host name stands for no address. -/
  | unresolved (host : Bytes) (port : UInt16) (reason : Bytes)
  /-- No socket listens at any address. -/
  | notListening
  /-- No connection is accepted. -/
  | acceptFailed
  deriving DecidableEq

namespace ListenFault

/-- The kind of a fault. -/
def kind : ListenFault → ErrorKind := fun _ => .ioError

/-- What went wrong, in words. -/
def text : ListenFault → Bytes
  | unresolved host port reason => Utf8.ofString "cannot resolve " ++ host ++
      Utf8.ofString (":" ++ toString port.toNat ++ ": ") ++ reason
  | notListening => Utf8.ofString "cannot listen"
  | acceptFailed => Utf8.ofString "accept failed"

end ListenFault

namespace Network

/-- Waits for a connection, again after each interruption. There is no result as long as nothing is
said. -/
def accept : List AcceptAnswer → Option (Except ListenFault Transport)
  | [] => none
  | .interrupted :: answers => accept answers
  | .failed :: _ => some (.error .acceptFailed)
  | .connected :: _ => some (.ok {})

/-- Listens and accepts one connection. -/
def acceptOne (n : Network) (host : Bytes) (port : UInt16) : Option (Except ListenFault Transport) :=
  if n.addresses.isEmpty then some (.error (.unresolved host port n.reason))
  else if n.addresses.any (·.succeed) then accept n.accepting
  else some (.error .notListening)

end Network

/-- The end of a pool that has no connection, if it comes to one: it is ended while it starts, or its
listener fails. A pool that still waits, or has a connection, has not ended. -/
def endUnconnected (S : Suite) (args : List Bytes) (now : UInt32) (host : Host) (n : Network) :
    Option Outcome :=
  match (launch S args now host).1 with
  | .ended outcome => some outcome
  | .ready config _ =>
    match n.acceptOne config.bindHost config.port with
    | some (.error cause) => some { exit := if cause.kind = .ioError then 0 else 1 }
    | some (.ok _) | none => none

end Stratum.Pool
