import Stratum.Proofs.PlannedTurns
import Stratum.Proofs.PoolAnswers
import Stratum.Proofs.StartUp

/-!
# A miner gets a channel at a pool

The miner and the pool are two programs that know nothing of each other but the protocol. A
`Deployment` has one of each, with their command lines, files, clocks and random bytes, so that
they fit: the miner trusts the authority whose key the pool has, and its clock is in the window of
the certificate. This module shows that the miner then gets its channel.

* `Deployment.exists_sessions`: the handshake gives both sides a session, and what one sends is what
  the other receives.
* `Deployment.exists_setup_exchange`, `Deployment.exists_channel_exchange`: the set-up that the miner
  sends is one that the pool accepts, and its request is one that the pool grants.
* `Deployment.Talk` is everything that the two say to each other, and `Deployment.exists_talk` has
  the turns of either side go along it.
* **`Deployment.miner_and_pool_interoperate`**: both programs start, and however the network cuts and
  delays what they send, they come to their end after a bounded number of steps. Then each has said
  what the talk has it say, and reports success.

Of the suite this uses that opening undoes sealing; of the keys at hand, that their owners agree on
secrets and that what the authority has signed can be verified.
-/

namespace Stratum

/-! ### What the miner asks for -/

theorem ConfigFault.unless_eq_ok_iff {cause : ConfigFault} {ok : Bool} : cause.unless ok = .ok () ↔ ok = true := by
  unfold ConfigFault.unless
  split
  · rename_i hok
    exact ⟨fun _ => hok, fun _ => rfl⟩
  · rename_i hok
    exact ⟨nofun, fun h => absurd h hok⟩

namespace Miner

variable {c : MinerConfig}

/-- The settings that a command line gives, and what is known of them. -/
theorem configOf_eq_ok {host port path user : Bytes} (h : configOf host port path user = .ok c) :
    c.host = host ∧ c.authorityPath = path ∧ c.userIdentity = user ∧ c.session = {} ∧
      user ≠ [] ∧ user.length ≤ 255 := by
  obtain ⟨_, -, h⟩ := Attempt.bind_eq_ok_iff.1 h
  obtain ⟨_, hvalidate, h⟩ := Attempt.bind_eq_ok_iff.1 h
  cases h
  obtain ⟨_, -, hvalidate⟩ := Attempt.bind_eq_ok_iff.1 hvalidate
  obtain ⟨_, -, hvalidate⟩ := Attempt.bind_eq_ok_iff.1 hvalidate
  obtain ⟨_, -, hvalidate⟩ := Attempt.bind_eq_ok_iff.1 hvalidate
  obtain ⟨_, huser, -⟩ := Attempt.bind_eq_ok_iff.1 hvalidate
  have hnamed := ConfigFault.unless_eq_ok_iff.1 huser
  rw [Bool.and_eq_true, Bool.not_eq_true', List.isEmpty_eq_false_iff, decide_eq_true_eq] at hnamed
  exact ⟨rfl, rfl, rfl, rfl, hnamed.1, hnamed.2⟩

theorem requestText_of_valid {b : LengthBound} {bs : Bytes} (hlen : bs.length ≤ b.max)
    (hvalid : Utf8.isValid bs = true) : requestText bs = .ok (⟨bs, hlen, hvalid⟩ : Text b) := by
  unfold requestText Text.ofBytes
  rw [dif_pos hlen, dif_pos hvalid]
  rfl

/-- The set-up of a miner obeys the rule of set-ups, and is one that pools accept. -/
theorem exists_setup (hlen : c.host.length ≤ 255) (hvalid : Utf8.isValid c.host = true) :
    ∃ setup : SetupConnection, setupRequest c = .ok ⟨.setupConnection, setup⟩ ∧ setup.validate = .ok () ∧
      Pool.answerSetup setup = .ok {} := by
  unfold setupRequest
  rw [requestText_of_valid (b := .upTo255) hlen hvalid]
  refine ⟨_, rfl, rfl, ?_⟩
  unfold Pool.answerSetup
  dsimp only
  rw [if_neg (by decide), if_neg (by decide), if_neg (by decide)]

/-- The miner asks for one channel, under the number 1, for any target. -/
theorem exists_request (hlen : c.userIdentity.length ≤ 255) (hvalid : Utf8.isValid c.userIdentity = true) :
    ∃ request : OpenStandardMiningChannel, channelRequest c = .ok ⟨.openStandardMiningChannel, request⟩ ∧
      request.requestId = 1 ∧ request.maxTarget = .replicate 32 0xFF ∧
        request.userIdentity.toBytes = c.userIdentity := by
  unfold channelRequest
  rw [requestText_of_valid (b := .upTo255) hlen hvalid]
  exact ⟨_, rfl, rfl, rfl, rfl⟩

end Miner

/-! ### What the pool answers -/

namespace Pool

variable {accepted accepted' : Bool} {f g : Frame} {m reply : Message} {entropy rest : Entropy}

/-- Whatever the arguments are, sessions have the standard settings. -/
theorem Configures.session_eq {args : List Bytes} {c : PoolConfig} (h : Configures args (.ok c)) : c.session = {} := by
  generalize hconfig : Except.ok c = config at h
  cases h with
  | three => exact session_of_configOf hconfig.symm
  | four => exact session_of_configOf hconfig.symm

/-- A message that is answered by a message with a frame is answered by that frame. -/
theorem answerFrame_of_answer (hdecode : f.decodeMessage = .ok (.message m))
    (hanswer : answer accepted m entropy = .ok (some reply, accepted') rest) (hframe : reply.toFrame = .ok g) :
    answerFrame accepted f entropy = .ok (some g, accepted') rest := by
  suffices hchoose : choose accepted f entropy = .ok (some reply, accepted') rest from
    answerFrame_of_choose hchoose (congrArg some hframe)
  cases hunknown : f.hasUnknownProtocol with
  | true =>
    obtain ⟨e, he⟩ := Frame.decodeMessage_of_hasUnknownProtocol hunknown
    cases he.symm.trans hdecode
  | false =>
    unfold choose
    rw [hunknown, hdecode]
    exact hanswer

/-- A set-up that can be accepted is, whatever was before. -/
theorem answer_of_answerSetup {setup : SetupConnection} {success : SetupConnectionSuccess}
    (h : answerSetup setup = .ok success) :
    answer accepted ⟨.setupConnection, setup⟩ entropy
      = .ok (some ⟨.setupConnectionSuccess, success⟩, true) entropy := by
  unfold answer
  dsimp only
  rw [h]
  rfl

/-- A named user gets a channel: under the number of the request, with the target asked for. -/
theorem openStandard_grants {request : OpenStandardMiningChannel} (hnamed : request.userIdentity.toBytes ≠ [])
    (hlen : 8 ≤ entropy.length) :
    ∃ success : OpenStandardMiningChannelSuccess, ∃ rest,
      openStandard request entropy = .ok ⟨.openStandardMiningChannelSuccess, success⟩ rest ∧
        success.requestId = request.requestId ∧ success.target = request.maxTarget ∧
          success.extranoncePrefix.toBytes.length = prefixLength := by
  obtain ⟨id, p, rest, hlength, hdraws⟩ := draws_channel hlen
  unfold openStandard
  rw [if_neg (by rwa [List.isEmpty_iff])]
  exact ⟨_, rest, hdraws _, rfl, rfl, hlength⟩

end Pool

/-! ### The random bytes of a handshake -/

/-- The responder draws a key and nothing else. -/
theorem Handshake.Run.restB_eq {S : Suite} {i₀ : Initiator} {r₀ : Responder} {payload : Bytes} {ea eb : Entropy}
    (run : Handshake.Run S i₀ r₀ payload ea eb) : run.restB = eb.drop 32 := by
  obtain ⟨first, second, waiting, initiator, responder, restA, restB, wrote, answered, read⟩ := run
  obtain ⟨-, ss, ei, hfirst, rfl⟩ := Initiator.writeFirstMessage_eq_ok_iff.1 wrote
  obtain ⟨-, -, rfl, rfl⟩ := Initiator.firstMessage_eq_ok_iff.1 hfirst
  obtain ⟨-, _, hanswer, -⟩ := Responder.respond_eq_ok_iff.1 answered
  obtain ⟨-, _, hgenerate, -⟩ := Responder.answer_eq_ok_iff.1 hanswer
  exact (KeyPair.generate_eq_ok_iff.1 hgenerate).2.2

/-! ### A pool and a miner that fit -/

/-- A pool and a miner: how they are called, what they find, and why they fit. -/
structure Deployment (S : Suite) where
  /-- The command line of the pool. -/
  poolArgs : List Bytes
  /-- The settings of the pool. -/
  poolConfig : PoolConfig
  /-- They are those of the command line. -/
  poolConfigures : Pool.Configures poolArgs (.ok poolConfig)
  /-- The files and the random bytes that the pool finds. -/
  host : Host
  /-- The secret key of the authority. -/
  authority : Key
  /-- It is in the key directory of the pool. -/
  authorityLoads : KeyFile.load (Pool.authorityPath poolConfig) host.files = .ok authority
  /-- The pool's key pair. -/
  static : KeyPair
  /-- The random bytes that the pool has for the connection. -/
  poolEntropy : Entropy
  /-- The pair is in the key directory too, or is made and can be written there. -/
  hasKeys : Pool.HasKeys S poolConfig host static poolEntropy
  /-- They suffice for a key, and for the number and the prefix of a channel. -/
  poolEntropy_le : 40 ≤ poolEntropy.length
  /-- The time at which the pool starts. -/
  startedAt : UInt32
  /-- The certificate of the pool. -/
  certificate : CertificateMessage
  /-- It is issued when the pool starts. -/
  issued : CertificateMessage.issue S (.ofPrivate S authority) static.publicKey poolConfig.certificate startedAt
    = .ok certificate
  /-- What the authority signs can be verified. -/
  accepts : (AuthorityKeyPair.ofPrivate S authority).Accepts S (certificate.signedBytes static.publicKey)
  /-- The host on the command line of the miner. -/
  minerHost : Bytes
  /-- The port. -/
  minerPort : Bytes
  /-- The file of the authority's public key. -/
  authorityPath : Bytes
  /-- The name that the miner works under. -/
  userIdentity : Bytes
  /-- The settings of the miner. -/
  minerConfig : MinerConfig
  /-- They are those of the command line, and valid. -/
  minerConfigures : Miner.configOf minerHost minerPort authorityPath userIdentity = .ok minerConfig
  /-- The host is short enough for a message. -/
  minerHost_le : minerHost.length ≤ 255
  /-- It is a text. -/
  minerHost_valid : Utf8.isValid minerHost = true
  /-- So is the name. -/
  userIdentity_valid : Utf8.isValid userIdentity = true
  /-- The files that the miner finds. -/
  minerFiles : FileStore
  /-- It trusts the authority of the pool. -/
  authorityTrusted : KeyFile.load authorityPath minerFiles = .ok (S.signingPublicKey authority)
  /-- The time that the miner's clock shows. -/
  clock : UInt32
  /-- It is in the window of the certificate. -/
  validFrom_le : certificate.validFrom ≤ clock
  /-- It is in the window of the certificate. -/
  clock_lt : clock < certificate.notValidAfter
  /-- The random bytes of the miner. -/
  minerEntropy : Entropy
  /-- They suffice for a key. -/
  minerEntropy_le : 32 ≤ minerEntropy.length
  /-- The fresh keys of both sides agree on a secret. -/
  ephemeralAgree : (KeyPair.ofEntropy S minerEntropy).Agree S (.ofEntropy S poolEntropy)
  /-- So do the fresh key of the miner and the pool's key. -/
  staticAgree : (KeyPair.ofEntropy S minerEntropy).Agree S static

namespace Deployment

variable {S : Suite}

/-- The arguments of the miner. -/
def minerArgs (D : Deployment S) : List Bytes := [D.minerHost, D.minerPort, D.authorityPath, D.userIdentity]

/-- The public key that the miner trusts. -/
def trusted (D : Deployment S) : Key := S.signingPublicKey D.authority

/-- The miner's side of the handshake before it begins. -/
def initiator (D : Deployment S) : Initiator where
  authority := D.trusted
  clock := D.clock
  phase := .uninitialized

/-- The pool's side of the handshake before it begins. -/
def responder (D : Deployment S) : Responder where
  staticKeys := D.static
  certificate := D.certificate
  phase := .awaitingFirstMessage

/-- **Everything that the two say to each other** when the miner gets its channel: the two messages of the
handshake, and two frames each way. -/
structure Talk (D : Deployment S) where
  /-- The handshake. -/
  run : Handshake.Run S D.initiator D.responder [] D.minerEntropy D.poolEntropy
  /-- The session that it gives the miner. -/
  session : Session
  /-- It is handed out. -/
  handed : (run.initiator.intoSession D.minerConfig.session).1 = .ok session
  /-- The miner sets up the connection. -/
  setup : SetupConnection
  /-- As its settings say. -/
  setup_eq : Miner.setupRequest D.minerConfig = .ok ⟨.setupConnection, setup⟩
  /-- The frame of the set-up. -/
  setupFrame : Frame
  /-- It holds the set-up. -/
  setupFrame_eq : Message.toFrame ⟨.setupConnection, setup⟩ = .ok setupFrame
  /-- The frame of the pool's answer. -/
  acceptance : Frame
  /-- The set-up is accepted, for version 2 and without flags. -/
  acceptance_eq : acceptance.decodeMessage
    = .ok (.message ⟨.setupConnectionSuccess, ({ usedVersion := 2, flags := 0 } : SetupConnectionSuccess)⟩)
  /-- The miner asks for a channel. -/
  request : OpenStandardMiningChannel
  /-- As its settings say. -/
  request_eq : Miner.channelRequest D.minerConfig = .ok ⟨.openStandardMiningChannel, request⟩
  /-- The frame of the request. -/
  requestFrame : Frame
  /-- It holds the request. -/
  requestFrame_eq : Message.toFrame ⟨.openStandardMiningChannel, request⟩ = .ok requestFrame
  /-- The pool grants a channel. -/
  success : OpenStandardMiningChannelSuccess
  /-- The frame of the pool's answer. -/
  grant : Frame
  /-- It says so. -/
  grant_eq : grant.decodeMessage = .ok (.message ⟨.openStandardMiningChannelSuccess, success⟩)
  /-- It is granted under the number of the request. -/
  requestId : success.requestId = 1
  /-- The target is the one that is asked for. -/
  target : success.target = request.maxTarget
  /-- Extranonces start with four bytes. -/
  prefixLength : success.extranoncePrefix.toBytes.length = 4

/-- What the miner sends. -/
def Talk.fromMiner {D : Deployment S} (talk : D.Talk) : Bytes :=
  Transport.framed talk.run.first ++ talk.session.sending.sealedFrames S 0 [talk.setupFrame, talk.requestFrame]

/-- What the pool sends. -/
def Talk.fromPool {D : Deployment S} (talk : D.Talk) : Bytes :=
  Transport.framed talk.run.second ++ talk.session.receiving.sealedFrames S 0 [talk.acceptance, talk.grant]

variable {D : Deployment S}

/-! ### The handshake -/

/-- A direction that nothing has passed has nonces enough for two frames of two pieces. -/
theorem room_ofKey (key : Key) : 4 ≤ (Direction.ofCipher (.ofKey key)).room := by
  rw [Direction.room_eq]
  show 4 ≤ 18446744073709551615 - (0 : UInt64).toNat
  decide

theorem session_eq (D : Deployment S) : D.minerConfig.session = {} :=
  (Miner.configOf_eq_ok D.minerConfigures).2.2.2.1

/-- **The handshake succeeds**, and gives both sides a session: what one sends is what the other receives. -/
theorem exists_sessions (hS : S.Sealing) (D : Deployment S) :
    ∃ (run : Handshake.Run S D.initiator D.responder [] D.minerEntropy D.poolEntropy) (si sr : Session),
      (run.initiator.intoSession D.minerConfig.session).1 = .ok si ∧ (run.responder.intoSession {}).1 = .ok sr ∧
        (∀ frames, si.Standing S si.sending si.receiving frames) ∧
        (∀ frames, sr.Standing S si.receiving si.sending frames) ∧ 4 ≤ si.sending.room ∧ 4 ≤ si.receiving.room ∧
          run.first.length = 32 ∧ run.second.length = 170 ∧ 8 ≤ run.restB.length := by
  obtain ⟨_, hverify⟩ :=
    CertificateMessage.verify_of_issue D.issued D.accepts D.validFrom_le D.clock_lt
  have hkey : 32 ≤ D.poolEntropy.length := Nat.le_trans (by decide) D.poolEntropy_le
  obtain ⟨run⟩ : Nonempty (Handshake.Run S D.initiator D.responder [] D.minerEntropy D.poolEntropy) :=
    Handshake.exists_run hS rfl rfl hverify (by decide) D.minerEntropy_le hkey D.ephemeralAgree D.staticAgree
  obtain ⟨hfirst, hsecond, k₁, k₂, hash, c, -, hinitiator, hresponder⟩ :=
    run.mirror hS D.ephemeralAgree D.staticAgree
  have hvalid : D.minerConfig.session.validate = .ok () := by
    rw [D.session_eq]
    rfl
  have hi := (Initiator.intoSession_eq_ok_iff hinitiator).2 ⟨hvalid, rfl, rfl⟩
  have hr : run.responder.intoSession {} = _ := (Responder.intoSession_eq_ok_iff hresponder).2 ⟨rfl, rfl, rfl⟩
  refine ⟨run, _, _, congrArg Prod.fst hi, congrArg Prod.fst hr, ?_, ?_, room_ofKey k₁, room_ofKey k₂, hfirst, hsecond,
    ?_⟩
  · exact fun frames => ⟨D.session_eq, rfl, rfl, .header rfl rfl⟩
  · exact fun frames => ⟨rfl, rfl, rfl, .header rfl rfl⟩
  · have hlen := D.poolEntropy_le
    rw [run.restB_eq, List.length_drop]
    omega

/-! ### The plans of both sides -/

namespace Talk

/-- What the miner awaits behind message 1, and what it answers. -/
def minerPlan (talk : D.Talk) : List Exchange :=
  let out := talk.session.sending
  let inward := talk.session.receiving
  [⟨Transport.framed talk.run.second, out.sealedFrame S 0 talk.setupFrame⟩,
    ⟨inward.sealedFrame S 0 talk.acceptance,
      (out.afterFrame S 0 talk.setupFrame).sealedFrame S 0 talk.requestFrame⟩,
    ⟨(inward.afterFrame S 0 talk.acceptance).sealedFrame S 0 talk.grant, []⟩]

/-- What the pool awaits, and what it answers. -/
def poolPlan (talk : D.Talk) : List Exchange :=
  let inward := talk.session.sending
  let out := talk.session.receiving
  [⟨Transport.framed talk.run.first, Transport.framed talk.run.second⟩,
    ⟨inward.sealedFrame S 0 talk.setupFrame, out.sealedFrame S 0 talk.acceptance⟩,
    ⟨(inward.afterFrame S 0 talk.setupFrame).sealedFrame S 0 talk.requestFrame,
      (out.afterFrame S 0 talk.acceptance).sealedFrame S 0 talk.grant⟩]

/-- The plans fit each other. -/
theorem plansMatch (talk : D.Talk) : Matches (Transport.framed talk.run.first) talk.minerPlan talk.poolPlan :=
  .round (.round (.round .nil))

theorem fromMiner_eq (talk : D.Talk) :
    Transport.framed talk.run.first ++ Exchange.replies talk.minerPlan = talk.fromMiner := rfl

theorem fromPool_eq (talk : D.Talk) : Exchange.replies talk.poolPlan = talk.fromPool := rfl

end Talk

/-- A frame of two pieces fits a direction that has room for two such frames, and leaves room for one more. -/
theorem room_afterFrame {d : Direction} {f : Frame} (hroom : 4 ≤ d.room) (hf : f.pieces.length ≤ 2) :
    f.pieces.length ≤ d.room ∧ 2 ≤ (d.afterFrame S 0 f).room := by
  have hfits : f.pieces.length ≤ d.room := by omega
  have hleft : (d.afterFrame S 0 f).room + f.pieces.length = d.room := Direction.room_skip hfits
  exact ⟨hfits, by omega⟩

/-- The miner's set-up is accepted, whatever random bytes the pool has left. -/
theorem exists_setup_exchange (D : Deployment S) :
    ∃ (setup : SetupConnection) (f g : Frame),
      Miner.setupRequest D.minerConfig = .ok ⟨.setupConnection, setup⟩ ∧
      Message.toFrame ⟨.setupConnection, setup⟩ = .ok f ∧ f.pieces.length ≤ 2 ∧
      g.decodeMessage = .ok (.message
        ⟨.setupConnectionSuccess, ({ usedVersion := 2, flags := 0 } : SetupConnectionSuccess)⟩) ∧
      g.pieces.length ≤ 2 ∧ ∀ entropy, Pool.answerFrame false f entropy = .ok (some g, true) entropy := by
  obtain ⟨hhost, -⟩ := Miner.configOf_eq_ok D.minerConfigures
  have hlength : D.minerConfig.host.length ≤ 255 := by
    rw [hhost]
    exact D.minerHost_le
  have hvalid : Utf8.isValid D.minerConfig.host = true := by
    rw [hhost]
    exact D.minerHost_valid
  obtain ⟨setup, hsetup, hrule, haccepts⟩ := Miner.exists_setup hlength hvalid
  obtain ⟨f, hf, hdecode, hpieces⟩ : ∃ f, Message.toFrame ⟨.setupConnection, setup⟩ = .ok f ∧ _ ∧ _ :=
    (Message.Sendable.of_type hrule (by decide)).exists_frame
  obtain ⟨g, hg, hanswer, hpieces'⟩ :
      ∃ g, Message.toFrame ⟨.setupConnectionSuccess, ({} : SetupConnectionSuccess)⟩ = .ok g ∧ _ ∧ _ :=
    (Message.Sendable.of_type rfl (by decide)).exists_frame
  exact ⟨setup, f, g, hsetup, hf, hpieces, hanswer, hpieces', fun entropy =>
    Pool.answerFrame_of_answer hdecode (Pool.answer_of_answerSetup haccepts) hg⟩

/-- The miner's request is granted if there are random bytes for a channel. -/
theorem exists_channel_exchange (D : Deployment S) {entropy : Entropy} (hlen : 8 ≤ entropy.length) :
    ∃ (request : OpenStandardMiningChannel) (success : OpenStandardMiningChannelSuccess) (f g : Frame) (rest : Entropy),
      Miner.channelRequest D.minerConfig = .ok ⟨.openStandardMiningChannel, request⟩ ∧
      Message.toFrame ⟨.openStandardMiningChannel, request⟩ = .ok f ∧ f.pieces.length ≤ 2 ∧
      g.decodeMessage = .ok (.message ⟨.openStandardMiningChannelSuccess, success⟩) ∧ g.pieces.length ≤ 2 ∧
      Pool.answerFrame true f entropy = .ok (some g, true) rest ∧ success.requestId = 1 ∧
        success.target = request.maxTarget ∧ success.extranoncePrefix.toBytes.length = 4 := by
  obtain ⟨-, -, huser, -, hnamed, hlength⟩ := Miner.configOf_eq_ok D.minerConfigures
  have hvalid : Utf8.isValid D.minerConfig.userIdentity = true := by
    rw [huser]
    exact D.userIdentity_valid
  obtain ⟨request, hrequest, hid, -, hname⟩ := Miner.exists_request (by rwa [huser]) hvalid
  rw [huser] at hname
  obtain ⟨f, hf, hdecode, hpieces⟩ : ∃ f, Message.toFrame ⟨.openStandardMiningChannel, request⟩ = .ok f ∧ _ ∧ _ :=
    (Message.Sendable.of_type rfl (by decide)).exists_frame
  obtain ⟨success, rest, hopen, hsuccessId, htarget, hprefix⟩ := Pool.openStandard_grants (by rwa [hname]) hlen
  obtain ⟨g, hg, hanswer, hpieces'⟩ :
      ∃ g, Message.toFrame ⟨.openStandardMiningChannelSuccess, success⟩ = .ok g ∧ _ ∧ _ :=
    (Message.Sendable.of_type rfl (by decide)).exists_frame
  exact ⟨request, success, f, g, rest, hrequest, hf, hpieces, hanswer, hpieces',
    Pool.answerFrame_of_answer hdecode (Step.bind_of_ok hopen) hg, hsuccessId.trans hid, htarget, hprefix⟩

/-- **Both programs go along one talk**: there is one that the turns of either side make, message by message. -/
theorem exists_talk (hS : S.Sealing) (D : Deployment S) :
    ∃ talk : D.Talk, talk.run.first.length = 32 ∧
      Follows (Miner.Client.program S) (Miner.Client.turn S) true talk.minerPlan
        (Miner.Client.agreeing S D.minerConfig talk.run.waiting) ∧
      Follows (Pool.Server.program S) (Pool.Server.turn S) false talk.poolPlan
        (Pool.Server.agreeing S D.responder D.poolEntropy) := by
  obtain ⟨run, si, sr, hi, hr, hminer, hpool, hroomOut, hroomIn, hfirst, hsecond, hentropy⟩ := exists_sessions hS D
  obtain ⟨setup, f₁, g₁, hsetup, hf₁, hpieces₁, hanswer₁, hpieces₁', hpool₁⟩ := exists_setup_exchange D
  obtain ⟨request, success, f₂, g₂, rest, hrequest, hf₂, hpieces₂, hanswer₂, hpieces₂', hpool₂, hid, htarget,
    hprefix⟩ := exists_channel_exchange D hentropy
  obtain ⟨hfits₁, hleft₁⟩ := room_afterFrame (S := S) hroomOut hpieces₁
  obtain ⟨hfits₁', hleft₁'⟩ := room_afterFrame (S := S) hroomIn hpieces₁'
  refine ⟨⟨run, si, hi, setup, hsetup, f₁, hf₁, g₁, hanswer₁, request, hrequest, f₂, hf₂, success, g₂, hanswer₂,
    hid, htarget, hprefix⟩, hfirst, ?_, ?_⟩
  · refine .next (Miner.Client.takes_handshake ?_ run.read hi (hminer [g₁]) hsetup hf₁ hfits₁) ?_
    · rw [hsecond]
      decide
    refine .next (Miner.Client.takes_reply hS hfits₁' hanswer₁ hrequest hf₂ (Nat.le_trans hpieces₂ hleft₁) [g₂]) ?_
    exact .last (Miner.Client.finishes hS (Nat.le_trans hpieces₂' hleft₁') hanswer₂)
  · refine .next (Pool.Server.takes_handshake ?_ run.answered ?_ hr (hpool [f₁])) ?_
    · rw [hfirst]
      decide
    · rw [hsecond]
      decide
    refine .next (Pool.Server.takes_frame hS hfits₁ (hpool₁ run.restB) hfits₁' [f₂]) ?_
    refine .next (Pool.Server.takes_frame hS (Nat.le_trans hpieces₂ hleft₁) hpool₂ (Nat.le_trans hpieces₂' hleft₁') [])
      ?_
    exact .idle (Pool.Server.idles hS)

/-! ### The conversation -/

/-- The miner has its channel, and both programs have ended well. -/
structure Served {D : Deployment S} (talk : D.Talk) (c : Conversation Miner.Client Pool.Server) : Prop where
  /-- The miner has ended, and reports success. -/
  minerExit : Miner.Client.exit? c.client.progress = some 0
  /-- So does the pool. -/
  poolExit : Pool.Server.exit? c.server.progress = some 0
  /-- What the miner has sent. -/
  fromMiner : (c.client.transport (Miner.Client.program S)).outgoing = talk.fromMiner
  /-- What the pool has sent. -/
  fromPool : (c.server.transport (Pool.Server.program S)).outgoing = talk.fromPool

/-- The miner starts. -/
theorem miner_launch (D : Deployment S) : Miner.launch D.minerArgs D.minerFiles = .ready D.minerConfig D.trusted := by
  obtain ⟨-, hpath, -⟩ := Miner.configOf_eq_ok D.minerConfigures
  have hstart : Miner.start D.minerHost D.minerPort D.authorityPath D.userIdentity D.minerFiles
      = .ok (D.minerConfig, D.trusted) := by
    unfold Miner.start
    refine Attempt.bind_eq_ok_iff.2 ⟨_, D.minerConfigures, ?_⟩
    rw [hpath]
    exact Attempt.bind_eq_ok_iff.2 ⟨_, D.authorityTrusted, rfl⟩
  unfold Miner.launch minerArgs
  dsimp only
  rw [hstart]

/-- The miner sends message 1 before anything arrives, and waits. -/
theorem miner_begins (talk : D.Talk) (hfirst : talk.run.first.length = 32)
    (hfollows : Follows (Miner.Client.program S) (Miner.Client.turn S) true talk.minerPlan
      (Miner.Client.agreeing S D.minerConfig talk.run.waiting)) :
    Comes (Miner.Client.program S) (Miner.Client.turn S) true talk.minerPlan [] (Transport.framed talk.run.first)
      ((Miner.Client.program S).run (.make D.minerConfig D.trusted D.clock D.minerEntropy)) := by
  have hlength : talk.run.first.length ≤ maxNoiseMessage := by
    rw [hfirst]
    decide
  obtain ⟨s, hturn, hstage, hlive⟩ := Miner.Client.turn_connected
    (s := .make D.minerConfig D.trusted D.clock D.minerEntropy) rfl talk.run.wrote hlength ⟨rfl, rfl, rfl, rfl, rfl⟩
  have hrun : (Miner.Client.program S).run (.make D.minerConfig D.trusted D.clock D.minerEntropy)
      = takeTurns (Miner.Client.turn S) 3 s := by
    show takeTurns (Miner.Client.turn S) (3 + 1) _ = _
    rw [takeTurns, hturn]
  have hturns : min talk.minerPlan.length 0 < 3 := Nat.lt_of_le_of_lt (Nat.min_le_right _ _) (by decide)
  rw [hrun]
  exact takeTurns_follows hfollows hstage hlive List.nil_prefix hturns

/-- The pool waits at once. -/
theorem pool_begins (talk : D.Talk) {entropy : Entropy} (hentropy : entropy = D.poolEntropy)
    (hfollows : Follows (Pool.Server.program S) (Pool.Server.turn S) false talk.poolPlan
      (Pool.Server.agreeing S D.responder D.poolEntropy)) :
    Comes (Pool.Server.program S) (Pool.Server.turn S) false talk.poolPlan [] []
      ((Pool.Server.program S).run (.make D.poolConfig D.responder entropy)) := by
  exact (Pool.Server.takesTurns S 3).run_follows hfollows (Nat.le_refl 3)
    ⟨D.poolConfigures.session_eq, rfl, hentropy⟩ ⟨rfl, rfl, rfl, rfl, rfl⟩ List.nil_prefix

/-- **A miner gets its channel at a pool.** Whatever their keys and settings, and however the network delivers
what they send: both start, and they cannot go on forever. As long as something is on its way they go on,
and when nothing is, the miner has asked for its channel and got it, and both have ended with status 0. -/
theorem miner_and_pool_interoperate (hS : S.Sealing) (D : Deployment S) :
    ∃ (host : Host) (talk : D.Talk) (bound : Nat),
      Pool.launch S D.poolArgs D.startedAt D.host = (.ready D.poolConfig D.responder, host) ∧
      Miner.launch D.minerArgs D.minerFiles = .ready D.minerConfig D.trusted ∧
      ∀ n c, Conversation.Run (Miner.Client.program S) (Pool.Server.program S) n
          (.start (Miner.Client.program S) (Pool.Server.program S)
            (.make D.minerConfig D.trusted D.clock D.minerEntropy)
            (.make D.poolConfig D.responder host.entropy)) c →
        n ≤ bound ∧
          ((∃ c', Conversation.Step (Miner.Client.program S) (Pool.Server.program S) c c') ∨ Served talk c) := by
  obtain ⟨host, hpool, hentropy⟩ := Pool.launch_ready D.poolConfigures D.authorityLoads D.hasKeys D.issued
  obtain ⟨talk, hfirst, hminerFollows, hpoolFollows⟩ := exists_talk hS D
  obtain ⟨bound, hcompletes⟩ := Conversation.completes (Miner.Client.takesTurns S) (Pool.Server.takesTurns S 3)
    talk.plansMatch (miner_begins talk hfirst hminerFollows) (pool_begins talk hentropy hpoolFollows)
  refine ⟨host, talk, bound, hpool, D.miner_launch, fun n c hrun => ?_⟩
  obtain ⟨hbound, hnext⟩ := hcompletes n c hrun
  refine ⟨hbound, hnext.imp_right fun complete => ?_⟩
  refine ⟨?_, ?_, complete.toServer.trans talk.fromMiner_eq, complete.toClient.trans talk.fromPool_eq⟩
  · rw [complete.client]
    rfl
  · rw [complete.server]
    rfl

/-! ### A pool and a miner -/

namespace Sample

/-- The secret key of the authority. -/
def authorityKey : Key := .replicate 32 4

theorem ofPrivate_authorityKey :
    AuthorityKeyPair.ofPrivate Suite.standard authorityKey = Handshake.Sample.authority := by
  decide +kernel

/-- The settings of the pool. -/
def poolConfig : PoolConfig := { keysDir := Utf8.ofString "keys" }

/-- The files that it finds: both secret keys. -/
def poolFiles : FileStore :=
  (({} : FileStore).addFile (Pool.authorityPath poolConfig) (KeyFile.text authorityKey.toBytes)).addFile
    (Pool.staticPath poolConfig) (KeyFile.text Handshake.Sample.static.privateKey.toBytes)

/-- The random bytes that it finds. Those of the handshake are the first. -/
def poolEntropy : Entropy := List.replicate 40 2

theorem ofEntropy_poolEntropy :
    KeyPair.ofEntropy Suite.standard poolEntropy = .ofEntropy Suite.standard Handshake.Sample.responderEntropy := rfl

theorem hasKeys : Pool.HasKeys Suite.standard poolConfig { files := poolFiles, entropy := poolEntropy }
    Handshake.Sample.static poolEntropy :=
  .loaded (show KeyFile.load _ _ = .ok Handshake.Sample.static.privateKey by decide +kernel) (by decide +kernel)

/-- The settings of the miner. -/
def minerConfig : MinerConfig where
  host := Utf8.ofString "localhost"
  authorityPath := Utf8.ofString "authority-key.pub"
  userIdentity := Utf8.ofString "worker1"

/-- The files that it finds: the public key of the authority. -/
def minerFiles : FileStore :=
  ({} : FileStore).addFile minerConfig.authorityPath
    (KeyFile.text (Suite.standard.signingPublicKey authorityKey).toBytes)

end Sample

/-- A pool in second 1000 and a miner whose clock shows second 2000. -/
def sample : Deployment Suite.standard where
  poolArgs := ["0.0.0.0", "3336", "keys"].map Utf8.ofString
  poolConfig := Sample.poolConfig
  poolConfigures := .three (Utf8.ofString "0.0.0.0") (Utf8.ofString "3336") (Utf8.ofString "keys")
  host := { files := Sample.poolFiles, entropy := Sample.poolEntropy }
  authority := Sample.authorityKey
  authorityLoads := by decide +kernel
  static := Handshake.Sample.static
  poolEntropy := Sample.poolEntropy
  hasKeys := Sample.hasKeys
  poolEntropy_le := by decide
  startedAt := 1000
  certificate := Handshake.Sample.certificate
  issued := by
    rw [Sample.ofPrivate_authorityKey]
    exact Handshake.Sample.issue_eq
  accepts := by
    rw [Sample.ofPrivate_authorityKey]
    exact Handshake.Sample.accepts
  minerHost := Utf8.ofString "localhost"
  minerPort := Utf8.ofString "3336"
  authorityPath := Utf8.ofString "authority-key.pub"
  userIdentity := Utf8.ofString "worker1"
  minerConfig := Sample.minerConfig
  minerConfigures := rfl
  minerHost_le := by decide
  minerHost_valid := by decide
  userIdentity_valid := by decide
  minerFiles := Sample.minerFiles
  authorityTrusted := by decide +kernel
  clock := 2000
  validFrom_le := by decide
  clock_lt := by decide
  minerEntropy := Handshake.Sample.initiatorEntropy
  minerEntropy_le := by decide
  ephemeralAgree := by
    rw [Sample.ofEntropy_poolEntropy]
    exact Handshake.Sample.ephemeral_agree
  staticAgree := Handshake.Sample.static_agree

/-- The assumptions can be met: a pool and a miner on the suite of the protocol. -/
theorem miner_and_pool_interoperate_on_sample :
    ∃ (host : Host) (talk : sample.Talk) (bound : Nat),
      Pool.launch Suite.standard sample.poolArgs 1000 sample.host = (.ready Sample.poolConfig sample.responder, host) ∧
      Miner.launch sample.minerArgs Sample.minerFiles = .ready Sample.minerConfig sample.trusted ∧
      ∀ n c, Conversation.Run (Miner.Client.program Suite.standard) (Pool.Server.program Suite.standard) n
          (.start (Miner.Client.program Suite.standard) (Pool.Server.program Suite.standard)
            (.make Sample.minerConfig sample.trusted 2000 Handshake.Sample.initiatorEntropy)
            (.make Sample.poolConfig sample.responder host.entropy)) c →
        n ≤ bound ∧
          ((∃ c', Conversation.Step (Miner.Client.program Suite.standard) (Pool.Server.program Suite.standard) c c') ∨
            Served talk c) :=
  miner_and_pool_interoperate Suite.standard_exact.toSealing sample

end Deployment

end Stratum
