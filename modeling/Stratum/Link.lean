import Stratum.Transport

/-!
# Links

Two transports that are each other's peers. What one end has sent arrives at the other, and each end
learns when the other sends or takes no more.
-/

namespace Stratum

namespace Transport

/-- A transport after everything that its peer has sent has arrived. -/
def arriveFrom (t peer : Transport) : Transport :=
  { t.arrive peer.outgoing with
    inputEnded := !peer.isOpen || peer.outputEnded
    outputBroken := !peer.isOpen }

/-- A transport after everything it has sent has left it. -/
def delivered (t : Transport) : Transport := { t with outgoing := [] }

end Transport

/-- The two ends of a connection. -/
structure Link where
  /-- The end of the initiator. -/
  initiator : Transport := {}
  /-- The end of the responder. -/
  responder : Transport := {}
  deriving DecidableEq

namespace Link

/-- The end of a side. -/
def get (l : Link) : Role → Transport
  | .initiator => l.initiator
  | .responder => l.responder

/-- The link with another transport at one end, after everything it has sent has arrived. -/
def set (l : Link) (side : Role) (t : Transport) : Link :=
  match side with
  | .initiator => { initiator := t.delivered, responder := l.responder.arriveFrom t }
  | .responder => { initiator := l.initiator.arriveFrom t, responder := t.delivered }

end Link

end Stratum
