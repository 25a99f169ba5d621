import SshMobile.Channel.EndToEnd
import SshMobile.Channel.Send
import SshMobile.Connect.HardClose
import SshMobile.Connect.RetiredEpochs
import SshMobile.Connection.SingleWinner
import SshMobile.Crypto.Completeness
import SshMobile.Delivery.Lease
import SshMobile.Discovery.Publisher
import SshMobile.Media.Keyframes
import SshMobile.Relay.Commit
import SshMobile.Relay.Isolation
import SshMobile.Relay.RemovePeer
import SshMobile.Relay.Resume
import SshMobile.Relay.StreamPath
import SshMobile.Server.Forwarding
import SshMobile.Server.PendingQuota
import SshMobile.Server.ProofNonces
import SshMobile.Stream.CloseRace
import SshMobile.Stream.Events
import SshMobile.Stream.HalfClose
import SshMobile.Stream.Identity
import SshMobile.Transfer.Lifecycle
