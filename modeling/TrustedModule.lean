import TrustedModule.Authorization.Nonce
import TrustedModule.Client.Sessions
import TrustedModule.Device.Faulty
import TrustedModule.Device.Playback
import TrustedModule.Device.Simulator
import TrustedModule.Quote
import TrustedModule.Proofs.Wire.RoundTrip
import TrustedModule.Proofs.Exchange.Framing
import TrustedModule.Proofs.Simulator.Authorization
import TrustedModule.Proofs.Simulator.Evolution
import TrustedModule.Proofs.Simulator.Replay
import TrustedModule.Proofs.Simulator.Outputs
import TrustedModule.Proofs.Exchange.Submission
import TrustedModule.Proofs.Exchange.Authorized
import TrustedModule.Proofs.Exchange.Calls
import TrustedModule.Proofs.Exchange.Handlers
import TrustedModule.Proofs.Exchange.Delivery
import TrustedModule.Proofs.Exchange.Synchrony
import TrustedModule.Proofs.Exchange.Opening
import TrustedModule.Proofs.Exchange.Sealing
import TrustedModule.Proofs.Rsa.Power
import TrustedModule.Proofs.Authorization.Binding
import TrustedModule.Proofs.Simulator.Settling
import TrustedModule.Proofs.Simulator.Effects
import TrustedModule.Proofs.Simulator.History
import TrustedModule.Proofs.Simulator.Handles
import TrustedModule.Proofs.Simulator.Outcomes
import TrustedModule.Proofs.Simulator.Accounting
import TrustedModule.Proofs.Authorization.Lifecycle
import TrustedModule.Proofs.Exchange.Staleness
import TrustedModule.Proofs.Exchange.Pairing
import TrustedModule.Proofs.Pcr.Selection
import TrustedModule.Proofs.Simulator.Decoding
import TrustedModule.Proofs.Simulator.Halting
import TrustedModule.Proofs.Quote
import TrustedModule.Proofs.Wire.Failures
import TrustedModule.Proofs.Authorization.Failure
import TrustedModule.Proofs.Exchange.Agreement
import TrustedModule.Proofs.Pcr.Composite
import TrustedModule.Proofs.Pcr.Sets
import TrustedModule.Proofs.Pcr.Binding
import TrustedModule.Proofs.Buffer.Failure
import TrustedModule.Proofs.Buffer.Indexing
import TrustedModule.Proofs.Rsa.Signature
import TrustedModule.Proofs.Exchange.Quoting
import TrustedModule.Proofs.Wire.Truncation
import TrustedModule.Proofs.Wire.Verdicts
import TrustedModule.Proofs.Wire.Sizes
import TrustedModule.Proofs.Exchange.Unsealing
import TrustedModule.Proofs.Wire.Absorption
