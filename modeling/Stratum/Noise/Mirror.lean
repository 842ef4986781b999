import Stratum.Noise.Symmetric
import Stratum.Session

/-!
# Mirrored symmetric states

The symmetric states of both sides, next to each other, on their way through a script: data and secrets that
both mix in, and texts that one side seals and the other opens. A state is changed where it stands,
one call after another, so that it says what a call that failed or refused has left of it.
-/

namespace Stratum

/-! ### Calls on a cipher -/

namespace CipherState

/-- Encrypts the next message, or passes it as it is. -/
def write (S : Suite) (ad text : Bytes) : EStateM Fault CipherState Bytes := do
  match ← get with
  | .unkeyed _ => return text
  | .keyed c =>
    if c.nonce = reservedNonce then throw (.session .sendNonce)
    else
      match S.sealText c.key c.nonce ad text with
      | .error cause => throw (.cipher cause)
      | .ok sealed =>
        set (CipherState.keyed { c with nonce := c.nonce + 1 })
        return sealed

/-- Decrypts the next message, or passes it as it is. One that does not authenticate takes no nonce. -/
def read (S : Suite) (ad sealed : Bytes) : EStateM Fault CipherState (Option Bytes) := do
  match ← get with
  | .unkeyed _ => return some sealed
  | .keyed c =>
    if c.nonce = reservedNonce then throw (.session .receiveNonce)
    else
      match S.openSealed c.key c.nonce ad sealed with
      | .error cause => throw (.cipher cause)
      | .ok none => return none
      | .ok (some text) =>
        set (CipherState.keyed { c with nonce := c.nonce + 1 })
        return some text

end CipherState

/-! ### Calls on a symmetric state -/

namespace SymmetricState

/-- A call on the cipher of a state. -/
abbrev onCipher {α : Type} (x : EStateM Fault CipherState α) : EStateM Fault SymmetricState α :=
  onPart (·.cipher) (fun s cipher => { s with cipher }) x

/-- Encrypts a text and binds the ciphertext to the handshake. -/
def write (S : Suite) (text : Bytes) : EStateM Fault SymmetricState Bytes := do
  let sealed ← onCipher (CipherState.write S (← get).hash.toBytes text)
  modify (mixHash S · sealed)
  return sealed

/-- Decrypts a ciphertext and binds it to the handshake. One that does not authenticate is not bound. -/
def read (S : Suite) (sealed : Bytes) : EStateM Fault SymmetricState (Option Bytes) := do
  match ← onCipher (CipherState.read S (← get).hash.toBytes sealed) with
  | none => return none
  | some text =>
    modify (mixHash S · sealed)
    return some text

end SymmetricState

/-! ### Two states and a script -/

/-- The states of both sides. -/
structure SymmetricPair where
  /-- The state of the initiator. -/
  initiator : SymmetricState
  /-- The state of the responder. -/
  responder : SymmetricState
  deriving DecidableEq

namespace SymmetricPair

/-- Both sides in one state. -/
def same (s : SymmetricState) : SymmetricPair := ⟨s, s⟩

/-- A call on the state of one side. -/
def onSide {α : Type} (role : Role) (x : EStateM Fault SymmetricState α) : EStateM Fault SymmetricPair α :=
  match role with
  | .initiator => onPart (·.initiator) (fun p initiator => { p with initiator }) x
  | .responder => onPart (·.responder) (fun p responder => { p with responder }) x

end SymmetricPair

/-- A step of a script. -/
inductive ScriptStep where
  /-- Both bind data to the handshake. -/
  | mixHash (data : Bytes)
  /-- Both mix in a secret. -/
  | mixKey (material : Bytes)
  /-- One side sends a text to the other. -/
  | transfer (writer : Role) (text : Bytes)
  deriving DecidableEq

namespace ScriptStep

open SymmetricPair

/-- Does a step on both sides, and says what a reader got. -/
def perform (S : Suite) : ScriptStep → EStateM Fault SymmetricPair (List (Option Bytes))
  | mixHash data => do
    onSide .initiator (modify (SymmetricState.mixHash S · data))
    onSide .responder (modify (SymmetricState.mixHash S · data))
    return []
  | mixKey material => do
    onSide .initiator (modify (SymmetricState.mixKey S · material))
    onSide .responder (modify (SymmetricState.mixKey S · material))
    return []
  | transfer writer text => do
    let sealed ← onSide writer (SymmetricState.write S text)
    let received ← onSide writer.other (SymmetricState.read S sealed)
    return [received]

end ScriptStep

/-- The steps that two sides take together. -/
abbrev Script := List ScriptStep

namespace Script

/-- Does the steps of a script, one after another, and says what the readers got. -/
def run (S : Suite) : Script → EStateM Fault SymmetricPair (List (Option Bytes))
  | [] => return []
  | step :: rest => do
    let received ← step.perform S
    return received ++ (← run S rest)

/-- The texts that are sent, in order. -/
def texts : Script → List Bytes
  | [] => []
  | .transfer _ text :: rest => text :: texts rest
  | .mixHash _ :: rest | .mixKey _ :: rest => texts rest

/-- How many texts are sent before the next secret is mixed in. -/
def untilKey : Script → Nat
  | [] | .mixKey _ :: _ => 0
  | .transfer _ _ :: rest => untilKey rest + 1
  | .mixHash _ :: rest => untilKey rest

/-- A secret is followed by no more texts, up to the next one, than its key has nonces, and under a key a
call takes every text. There is a key from the start or there is none. -/
def Fits : (keyed : Bool) → Script → Prop
  | _, [] => True
  | keyed, .mixHash _ :: rest => Fits keyed rest
  | _, .mixKey _ :: rest => untilKey rest ≤ reservedNonce.toNat ∧ Fits true rest
  | keyed, .transfer _ text :: rest => (keyed = true → Aead.Takes text) ∧ Fits keyed rest

end Script

end Stratum
