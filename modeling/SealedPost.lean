import SealedPost.Poller.Timeline
import SealedPost.Main
import SealedPost.Proofs.Message.Acceptance
import SealedPost.Proofs.Text.Base64
import SealedPost.Proofs.Text.Blank
import SealedPost.Proofs.Text.Utf8
import SealedPost.Proofs.Text.Decimal
import SealedPost.Proofs.Config.Validity
import SealedPost.Proofs.Config.Sources
import SealedPost.Proofs.Store.Spelling
import SealedPost.Proofs.Identity.ReceivingKey
import SealedPost.Proofs.Identity.Derivation
import SealedPost.Proofs.Identity.KeyText
import SealedPost.Proofs.Identity.KeyLanguage
import SealedPost.Proofs.Keyring
import SealedPost.Proofs.Keyring.Mixture
import SealedPost.Proofs.Messenger
import SealedPost.Proofs.Messenger.Opening
import SealedPost.Proofs.Messenger.Separation
import SealedPost.Proofs.Messenger.Spelling
import SealedPost.Proofs.CommandLine.Delivery
import SealedPost.Proofs.Poller.Timeline
import SealedPost.Proofs.Poller.Start
import SealedPost.Proofs.Poller.Restart
import SealedPost.Proofs.Poller.Overlap
import SealedPost.Proofs.Poller.Independence
import SealedPost.Proofs.Relay.Retry
import SealedPost.Proofs.Relay.Skipping
import SealedPost.Proofs.Relay.Requests
import SealedPost.Proofs.Swarm.Retrieval
import SealedPost.Proofs.Poller.Authenticity
import SealedPost.Proofs.Swarm.Mailboxes
import SealedPost.Proofs.Poller.Draining
import SealedPost.Proofs.Poller.OnClock
import SealedPost.Proofs.Relay.Lifetime
import SealedPost.Proofs.Messenger.Failures
import SealedPost.Proofs.Swarm.Entries
import SealedPost.Proofs.CommandLine.Registration
import SealedPost.Proofs.Relay.Readings
import SealedPost.Proofs.Store.History
import SealedPost.Proofs.Keyring.Loading
import SealedPost.Proofs.Keyring.Recovery
import SealedPost.Proofs.Keyring.Fresh
import SealedPost.Proofs.Swarm.Batches
import SealedPost.Proofs.Identity.SeedText
