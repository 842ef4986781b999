import Mathlib.Data.List.Nodup
import Stratum.Proofs.HandshakeRuns
import Stratum.Proofs.PieceRecord

/-!
# Nonces and keys

The pieces of a direction are numbered by their nonces, and the key changes by their
number. This module shows that both are a matter of how many pieces have passed, and of
nothing else:

* a piece takes the number of the pieces before it as its nonce, and passes under the
  key that belongs to that number (`Direction.keyAt`), whatever it is a piece of;
* the two counters of a direction, its nonce and its count, are one, and never wrap
  (`Direction.OnSchedule`);
* **`Session.pieces_on_schedule`**: so it is in both directions of a session that a
  handshake has handed out, after any calls, also such that failed; and two ends whose
  directions started alike are alike again whenever as many pieces have passed.
-/

namespace Stratum

/-! ### The key of a piece -/

namespace Direction

variable (S : Suite) (interval : UInt64)

/-- The key of the piece with a number, from the first key on: it has changed once for each interval that
lies before the piece, and never if the interval is zero. -/
def keyAt (key : Key) (number : Nat) : Key := (KeyedCipher.nextKey S)^[number / interval.toNat] key

theorem keyAt_zero (key : Key) : keyAt S interval key 0 = key := by
  rw [keyAt, Nat.zero_div]
  rfl

/-- The key changes behind the last piece of an interval. -/
theorem keyAt_succ (key : Key) (number : Nat) : keyAt S interval key (number + 1)
    = if interval ≠ 0 ∧ (number + 1) % interval.toNat = 0 then KeyedCipher.nextKey S (keyAt S interval key number)
      else keyAt S interval key number := by
  rw [keyAt, keyAt]
  by_cases hi : interval = 0
  · have hzero : interval.toNat = 0 := by rw [hi]; rfl
    rw [if_neg fun h => h.1 hi, hzero, Nat.div_zero, Nat.div_zero]
  · by_cases hmod : (number + 1) % interval.toNat = 0
    · rw [if_pos ⟨hi, hmod⟩, Nat.succ_div_of_dvd (Nat.dvd_of_mod_eq_zero hmod), Function.iterate_succ_apply']
    · rw [if_neg fun h => hmod h.2, Nat.succ_div_of_not_dvd fun h => hmod (Nat.mod_eq_zero_of_dvd h)]

variable {S interval} {d : Direction}

theorem next_count (d : Direction) : (d.next S interval).count = d.count + 1 := rfl

theorem next_key (d : Direction) : (d.next S interval).cipher.key
    = if interval ≠ 0 ∧ (d.count + 1) % interval = 0 then KeyedCipher.nextKey S d.cipher.key
      else d.cipher.key := by
  simp only [next, advance]
  split <;> rfl

/-! ### A direction on schedule -/

/-- A direction, the pieces that have passed it, and the key that it began with. -/
structure OnSchedule (S : Suite) (interval : UInt64) (key : Key) (d : Direction) (passed : List Passage) :
    Prop where
  /-- The pieces took the nonces 0, 1, 2 and so on. -/
  nonces : passed.map (fun p => p.nonce.toNat) = List.range passed.length
  /-- Each piece passed under the key of its number. -/
  keys : passed.map Passage.key = (List.range passed.length).map (keyAt S interval key)
  /-- The next nonce is the number of pieces that have passed. -/
  nonce_eq : d.cipher.nonce.toNat = passed.length
  /-- They are counted so. -/
  count_eq : d.count = d.cipher.nonce
  /-- The next key is that of their number. -/
  key_eq : d.cipher.key = keyAt S interval key passed.length

namespace OnSchedule

variable {key : Key} {passed : List Passage}

/-- A direction that nothing has passed is on schedule. -/
theorem start (key : Key) : OnSchedule S interval key (.ofCipher (.ofKey key)) [] where
  nonces := rfl
  keys := rfl
  nonce_eq := rfl
  count_eq := rfl
  key_eq := (keyAt_zero S interval key).symm

/-- **It stays on schedule when a piece passes.** -/
theorem push (h : OnSchedule S interval key d passed) (hroom : 0 < d.room) {p : Passage}
    (hkey : p.key = d.cipher.key) (hnonce : p.nonce = d.cipher.nonce) :
    OnSchedule S interval key (d.next S interval) (passed ++ [p]) := by
  have hlt : d.cipher.nonce.toNat + 1 < 18446744073709551616 := by
    rw [room_eq] at hroom
    omega
  have hsucc : (d.cipher.nonce + 1).toNat = d.cipher.nonce.toNat + 1 := by
    rw [UInt64.toNat_add]
    exact Nat.mod_eq_of_lt hlt
  have hlength : (passed ++ [p]).length = passed.length + 1 := List.length_append
  refine ⟨?_, ?_, ?_, ?_, ?_⟩
  · rw [hlength, List.range_succ, List.map_append, h.nonces, ← h.nonce_eq, ← hnonce]
    rfl
  · rw [hlength, List.range_succ, List.map_append, List.map_append, h.keys]
    exact congrArg (_ ++ [·]) (hkey.trans h.key_eq)
  · rw [next_nonce, hsucc, hlength, h.nonce_eq]
  · rw [next_nonce, next_count, h.count_eq]
  · -- The words in which the pieces are counted do not wrap, so they divide as numbers do.
    have hmod : (d.count + 1) % interval = 0 ↔ (passed.length + 1) % interval.toNat = 0 := by
      rw [← UInt64.toNat_inj, UInt64.toNat_mod, h.count_eq, hsucc, h.nonce_eq]
      rfl
    rw [next_key, hlength, keyAt_succ, ← h.key_eq]
    simp only [hmod]

/-- No two pieces take the same nonce. -/
theorem nodup (h : OnSchedule S interval key d passed) : (passed.map Passage.nonce).Nodup := by
  have hnumbers : ((passed.map Passage.nonce).map UInt64.toNat).Nodup := by
    rw [List.map_map]
    exact h.nonces ▸ List.nodup_range
  exact hnumbers.of_map

/-- No piece takes the reserved nonce. -/
theorem reserved (h : OnSchedule S interval key d passed) : reservedNonce ∉ passed.map Passage.nonce := by
  intro hmem
  obtain ⟨p, hp, hreserved⟩ := List.mem_map.1 hmem
  have hnumber : p.nonce.toNat ∈ List.range passed.length := by
    rw [← h.nonces]
    exact List.mem_map.2 ⟨p, hp, rfl⟩
  have hbelow := List.mem_range.1 hnumber
  have hlast : d.cipher.nonce.toNat < 18446744073709551616 := d.cipher.nonce.toNat_lt
  rw [hreserved, show reservedNonce.toNat = 18446744073709551615 from rfl, ← h.nonce_eq] at hbelow
  omega

/-- Two directions that began with the same key are the same when as many pieces have passed. -/
theorem eq_of_length_eq {d' : Direction} {passed' : List Passage} (h : OnSchedule S interval key d passed)
    (h' : OnSchedule S interval key d' passed') (hlength : passed.length = passed'.length) : d = d' := by
  have hkey : d.cipher.key = d'.cipher.key := by rw [h.key_eq, h'.key_eq, hlength]
  have hnonce : d.cipher.nonce = d'.cipher.nonce := by
    rw [← UInt64.toNat_inj, h.nonce_eq, h'.nonce_eq, hlength]
  have hcount : d.count = d'.count := by rw [h.count_eq, h'.count_eq, hnonce]
  obtain ⟨⟨_, _⟩, _⟩ := d
  obtain ⟨⟨_, _⟩, _⟩ := d'
  cases hkey
  cases hnonce
  cases hcount
  rfl

end OnSchedule

end Direction

/-! ### Sessions on schedule -/

namespace Recorded

variable {S : Suite} {s : Session}

/-- A session that nothing has passed. -/
def start (s : Session) : Recorded := ⟨s, [], []⟩

/-- Both directions of a recorded session are on the schedule that a session began with, and what is written
down is what was sealed and what was opened. -/
structure OnSchedule (S : Suite) (s : Session) (r : Recorded) : Prop where
  /-- The settings are as they were. -/
  config_eq : r.session.config = s.config
  /-- So it is with what is sent. -/
  sending : Direction.OnSchedule S s.config.rekeyInterval s.sending.cipher.key r.session.sending r.sent
  /-- Each piece sent was sealed as it is written down. -/
  sealed : ∀ p ∈ r.sent, p.sealed = S.encrypt p.key p.nonce [] p.text
  /-- So it is with what is received. -/
  receiving : Direction.OnSchedule S s.config.rekeyInterval s.receiving.cipher.key r.session.receiving r.received
  /-- Each piece received was opened as it is written down. -/
  opened : ∀ p ∈ r.received, S.decrypt? p.key p.nonce [] p.sealed = some p.text

/-- **Sealing and opening a piece keep a session on schedule.** -/
theorem invariant_onSchedule (S : Suite) (s : Session) : Invariant S (OnSchedule S s) where
  still {r s'} h hstill := by
    obtain ⟨hsending, hreceiving, hconfig⟩ := hstill
    exact ⟨hconfig.trans h.config_eq, by rw [hsending]; exact h.sending, h.sealed,
      by rw [hreceiving]; exact h.receiving, h.opened⟩
  seals {r} piece h hroom := by
    refine ⟨h.config_eq, ?_, List.forall_mem_append.2 ⟨h.sealed, ?_⟩, h.receiving, h.opened⟩
    · rw [← h.config_eq]
      exact (h.config_eq ▸ h.sending).push hroom rfl rfl
    · simp [Direction.passage]
  opens {r piece sealed} h hroom hopened := by
    refine ⟨h.config_eq, h.sending, h.sealed, ?_, List.forall_mem_append.2 ⟨h.opened, ?_⟩⟩
    · rw [← h.config_eq]
      exact (h.config_eq ▸ h.receiving).push hroom rfl rfl
    · simp [hopened]

/-- A session that a handshake has handed out is on schedule. -/
theorem onSchedule_start (hs : Handshake.HandsOut S s) : OnSchedule S s (start s) := by
  obtain ⟨ks, kr, hsending, hreceiving, -⟩ := hs.fresh
  refine ⟨rfl, ?_, fun _ h => absurd h List.not_mem_nil, ?_, fun _ h => absurd h List.not_mem_nil⟩
  · show Direction.OnSchedule S _ s.sending.cipher.key s.sending []
    rw [hsending]
    exact .start ks
  · show Direction.OnSchedule S _ s.receiving.cipher.key s.receiving []
    rw [hreceiving]
    exact .start kr

end Recorded

namespace Session

variable {S : Suite} {s : Session}

/-- **The pieces of a session are on schedule.** Whatever is called on a session that a handshake has handed
out, and whichever calls fail: in both directions the pieces that have passed took the nonces 0, 1, 2 and so
on, each under the key of its number, and both counters are the number of pieces; so no nonce is taken twice,
and the reserved one is not taken. Two ends whose directions began alike are alike after as many pieces. -/
theorem pieces_on_schedule (hs : Handshake.HandsOut S s) (calls : List Call) :
    ((Recorded.start s).run S calls).session = s.run S calls ∧
      ((Recorded.start s).run S calls).OnSchedule S s ∧
      (((Recorded.start s).run S calls).sent.map Passage.nonce).Nodup ∧
      (((Recorded.start s).run S calls).received.map Passage.nonce).Nodup ∧
      reservedNonce ∉ ((Recorded.start s).run S calls).sent.map Passage.nonce ∧
      reservedNonce ∉ ((Recorded.start s).run S calls).received.map Passage.nonce ∧
      ∀ {s' : Session}, Handshake.HandsOut S s' → s.sending = s'.receiving →
        s.config.rekeyInterval = s'.config.rekeyInterval → ∀ calls',
          ((Recorded.start s).run S calls).sent.length = ((Recorded.start s').run S calls').received.length →
            (s.run S calls).sending = (s'.run S calls').receiving := by
  have honSchedule {s : Session} (hs : Handshake.HandsOut S s) (calls : List Call) :
      ((Recorded.start s).run S calls).OnSchedule S s :=
    Recorded.run_keeps (Recorded.invariant_onSchedule S s) (Recorded.onSchedule_start hs) calls
  have h := honSchedule hs calls
  have hsession := Recorded.run_session (S := S) (Recorded.start s) calls
  refine ⟨hsession, h, h.sending.nodup, h.receiving.nodup, h.sending.reserved, h.receiving.reserved, ?_⟩
  intro s' hs' hbegan hinterval calls' hlength
  have hsession' := Recorded.run_session (S := S) (Recorded.start s') calls'
  have hreceiving := (honSchedule hs' calls').receiving
  rw [← hbegan, ← hinterval, hsession'] at hreceiving
  have hsending := h.sending
  rw [hsession] at hsending
  exact hsending.eq_of_length_eq hreceiving hlength

open Handshake.Sample in
/-- Both ends of a handshake on the suite of the protocol, with a new key for every piece: a frame that one
encrypts and the other decrypts brings them to the same key and the same nonce. -/
theorem pieces_on_schedule_on_sample :
    ∃ (si sr : Session) (c : Bytes), si.config.rekeyInterval = 1 ∧
      ((Recorded.start si).run Suite.standard [.encrypt Sample.frame]).OnSchedule Suite.standard si ∧
      ((Recorded.start sr).run Suite.standard [.decrypt c]).OnSchedule Suite.standard sr ∧
      (si.run Suite.standard [.encrypt Sample.frame]).sending = (sr.run Suite.standard [.decrypt c]).receiving := by
  obtain ⟨_, hverify⟩ := exists_verify
  have hS := Suite.standard_exact.toSealing
  obtain ⟨run⟩ : Nonempty (Handshake.Run Suite.standard initiator responder [] initiatorEntropy responderEntropy) :=
    Handshake.exists_run hS rfl rfl hverify (by decide) (by decide) (by decide) ephemeral_agree static_agree
  have hi : Initiator.make authority.publicKey (some 2000) = .ok initiator := rfl
  have hr : Responder.make (some static) certificate = .ok responder := rfl
  obtain ⟨si, sr, hsi, hsr, hci, hcr, hto, -⟩ : ∃ si sr, Handshake.HandsOut Suite.standard si ∧
      Handshake.HandsOut Suite.standard sr ∧ si.config = { rekeyInterval := 1 } ∧
        sr.config = { rekeyInterval := 1 } ∧ si.sending = sr.receiving ∧ sr.sending = si.receiving :=
    run.exists_handsOut hS hi hr ephemeral_agree static_agree rfl rfl
  have hinterval : si.config.rekeyInterval = sr.config.rekeyInterval := by rw [hci, hcr]
  obtain ⟨_, _, hsending, -, -, hsound⟩ := hsi.fresh
  obtain ⟨_, _, -, -, hpending, hsound'⟩ := hsr.fresh
  have hroom : Sample.frame.pieces.length ≤ si.sending.room := by
    rw [Frame.length_pieces, hsending]
    show 1 + 1 ≤ (reservedNonce - 0).toNat
    decide
  -- One end encrypts the frame, and the other decrypts it.
  have hencrypt := (encrypt_eq_ok_iff (S := Suite.standard)).2
    ⟨hsound, by rw [hci]; decide, hroom, rfl, rfl⟩
  have hdecrypt := decrypt_sealedFrame hS hsound' hpending (f := Sample.frame) (by rw [hcr]; decide)
    (by rw [← hto]; exact hroom)
  rw [← hto, ← hinterval] at hdecrypt
  obtain ⟨hsession, hschedule, -, -, -, -, hends⟩ := pieces_on_schedule hsi [.encrypt Sample.frame]
  obtain ⟨hsession', hschedule', -⟩ := pieces_on_schedule hsr [.decrypt _]
  refine ⟨si, sr, _, by rw [hci], hschedule, hschedule', hends hsr hto hinterval _ ?_⟩
  rw [← hschedule.sending.nonce_eq, ← hschedule'.receiving.nonce_eq, hsession, hsession']
  have hsent : si.run Suite.standard [.encrypt Sample.frame] = _ :=
    congrArg RecordM.after (Step.bind_of_ok hencrypt)
  have hreceived : sr.run Suite.standard [.decrypt _] = _ := congrArg RecordM.after (Step.bind_of_ok hdecrypt)
  rw [hsent, hreceived]
  rfl

end Session

end Stratum
