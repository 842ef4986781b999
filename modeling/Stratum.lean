import Stratum.Bytes
import Stratum.Certificate
import Stratum.Config
import Stratum.Conversation
import Stratum.Crypto.Aead
import Stratum.Crypto.Blake2s
import Stratum.Crypto.Block
import Stratum.Crypto.ChaCha20
import Stratum.Crypto.Ed25519
import Stratum.Crypto.Field25519
import Stratum.Crypto.Hkdf
import Stratum.Crypto.Poly1305
import Stratum.Crypto.Sha512
import Stratum.Crypto.Suite
import Stratum.Crypto.X25519
import Stratum.Dialogue
import Stratum.Entropy
import Stratum.ErrorKind
import Stratum.Fault
import Stratum.FileStore
import Stratum.Frame.Basic
import Stratum.Frame.Decode
import Stratum.Frame.Reader
import Stratum.Host
import Stratum.KeyFile
import Stratum.KeyPair
import Stratum.Keygen
import Stratum.Link
import Stratum.Main
import Stratum.Message.Basic
import Stratum.Message.Channel
import Stratum.Message.Dispatch
import Stratum.Message.Job
import Stratum.Message.Kind
import Stratum.Message.Record
import Stratum.Message.Setup
import Stratum.Message.Share
import Stratum.Miner.Client
import Stratum.Noise.Cipher
import Stratum.Noise.Exchange
import Stratum.Noise.Handshake
import Stratum.Noise.Initiator
import Stratum.Noise.Responder
import Stratum.Noise.Symmetric
import Stratum.Pool.Reply
import Stratum.Pool.Server
import Stratum.Proofs.Codec
import Stratum.Proofs.MessageFrames
import Stratum.Proofs.Sealing
import Stratum.Proofs.Steps
import Stratum.Protocol
import Stratum.Session
import Stratum.Text.Base58
import Stratum.Text.Decimal
import Stratum.Text.Radix
import Stratum.Text.Utf8
import Stratum.Transport
import Stratum.Wire.Cursor
import Stratum.Wire.Decode
import Stratum.Wire.Encode
import Stratum.Wire.Fault
import Stratum.Wire.Format
import Stratum.Wire.Value
import Stratum.Proofs.HandshakeAgreement
import Stratum.Proofs.RecordLayer
import Stratum.Proofs.Streaming
import Stratum.Proofs.Delivery
import Stratum.Proofs.FrameDecoding
import Stratum.Proofs.FrameStream
import Stratum.Proofs.HandshakeRuns
import Stratum.Proofs.Authentication
import Stratum.Proofs.PieceRecord
import Stratum.Proofs.NonceSchedule
import Stratum.Proofs.SetupGate
import Stratum.Proofs.FailClosed
import Stratum.Proofs.HandshakePhases
import Stratum.Proofs.GrowingReads
import Stratum.Proofs.AllOrNothing
import Stratum.Proofs.MessageDispatch
import Stratum.Proofs.Reception
import Stratum.Proofs.PoolAnswers
import Stratum.Proofs.CutPayloads
import Stratum.Proofs.HostileMessages
import Stratum.Proofs.FrameVerdicts
import Stratum.Proofs.RadixChange
import Stratum.Proofs.Base58Bijection
import Stratum.Proofs.Utf8Validation
import Stratum.Proofs.CertificateWindow
import Stratum.Pool.Listener
import Stratum.Proofs.StartUpFailures
import Stratum.Proofs.Conversations
import Stratum.Proofs.PlannedTurns
import Stratum.Proofs.StartUp
import Stratum.Proofs.Interoperation
import Stratum.Crypto.AeadBuffers
import Stratum.Noise.Mirror
import Stratum.Proofs.SealedBuffers
import Stratum.Proofs.MirroredStates
import Stratum.Proofs.StoredKeys
import Stratum.Proofs.RequestTexts
import Stratum.NumberSetting
import Stratum.Proofs.NumberSettings
import Stratum.Crypto.HkdfBuffers
import Stratum.Proofs.KeyExpansion
import Stratum.Proofs.SliceCursor
import Stratum.Proofs.SliceReads
import Stratum.Proofs.SliceDecoding
import Stratum.Proofs.CursorBounds
