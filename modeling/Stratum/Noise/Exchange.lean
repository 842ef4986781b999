import Stratum.Noise.Initiator
import Stratum.Noise.Responder

/-!
# A handshake from end to end

Both sides of a handshake, with nothing between them that could change a message.
-/

namespace Stratum.Handshake

/-- The two sides after both messages, the first with a payload. The initiator draws random bytes before
the responder. -/
def exchange (S : Suite) (i : Initiator) (r : Responder) (payload : Bytes) (entropy : Entropy) :
    Except Fault (Initiator × Responder) :=
  match i.writeFirstMessage S payload entropy with
  | (.error cause, _, _) => .error cause
  | (.ok first, i, entropy) =>
    match r.respond S first entropy with
    | (.error cause, _, _) => .error cause
    | (.ok second, r, _) =>
      match i.readSecondMessage S second with
      | (.error cause, _) => .error cause
      | (.ok (), i) => .ok (i, r)

/-- The two sessions that a handshake without a payload establishes. -/
def sessions (S : Suite) (i : Initiator) (r : Responder) (config : SessionConfig) (entropy : Entropy) :
    Except Fault (Session × Session) := do
  let (i, r) ← exchange S i r [] entropy
  return (← (i.intoSession config).1, ← (r.intoSession config).1)

end Stratum.Handshake
