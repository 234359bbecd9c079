import ChainWatch.BlockCounter.Display
import ChainWatch.BlockCounter.Session
import ChainWatch.Cache.Expiring
import ChainWatch.Cache.Crowd
import ChainWatch.Cache.Reference
import ChainWatch.CallLog
import ChainWatch.HeadFeed.Session
import ChainWatch.HeadFollower
import ChainWatch.Limiter.Callers
import ChainWatch.Limiter.Client
import ChainWatch.Limiter.Session
import ChainWatch.Main
import ChainWatch.Metrics.Address
import ChainWatch.Metrics.Exposition
import ChainWatch.Mining.Run
import ChainWatch.Nonce
import ChainWatch.Proofs.BlockCounter.Sessions
import ChainWatch.Proofs.Cache.Structures
import ChainWatch.Proofs.Cache.Turns
import ChainWatch.Proofs.Fee.Acceptance
import ChainWatch.Proofs.Fee.Growth
import ChainWatch.Proofs.Fee.Rounding
import ChainWatch.Proofs.HeadFollower.Recording
import ChainWatch.Proofs.Limiter.Accounting
import ChainWatch.Proofs.Limiter.Calls
import ChainWatch.Proofs.Limiter.Faithful
import ChainWatch.Proofs.Limiter.Serving
import ChainWatch.Proofs.Mining.Accounting
import ChainWatch.Proofs.Mining.Bound
import ChainWatch.Proofs.Mining.Failures
import ChainWatch.Proofs.Mining.Inclusion
import ChainWatch.Proofs.Mining.Windows
import ChainWatch.Proofs.Node.Answering
import ChainWatch.Proofs.Nonce.Tracking
import ChainWatch.Proofs.Resubscription.Accounting
import ChainWatch.Proofs.Resubscription.GivingUp
import ChainWatch.Proofs.Resubscription.Lifecycle
import ChainWatch.Proofs.Settings.Running
import ChainWatch.Proofs.Storage.Ground
import ChainWatch.Proofs.Storage.Interleaving
import ChainWatch.Proofs.Storage.Placing
import ChainWatch.Proofs.Storage.Refinement
import ChainWatch.Proofs.Storage.Turns
import ChainWatch.Proofs.Storage.Undisturbed
import ChainWatch.Resubscription.Run
import ChainWatch.Settings.Reader
import ChainWatch.Storage.Layout
import ChainWatch.Storage.Reference
import ChainWatch.Subscription.Session
import ChainWatch.Subscription.Holder
import ChainWatch.Proofs.Subscription.Reporting
import ChainWatch.Proofs.Subscription.Sessions
import ChainWatch.Resubscription.Upkeep
import ChainWatch.Proofs.Resubscription.Delivery
import ChainWatch.Proofs.Resubscription.Stopping
import ChainWatch.Proofs.Resubscription.Runs
import ChainWatch.BlockCounter.Company
import ChainWatch.Proofs.BlockCounter.Company
import ChainWatch.Proofs.Settings.Filling
import ChainWatch.Proofs.BlockCounter.Abandonment
import ChainWatch.Proofs.BlockCounter.Settling
import ChainWatch.HeadFeed.Feed
import ChainWatch.Proofs.HeadFeed.Forwarding
import ChainWatch.Proofs.HeadFeed.Sessions
import ChainWatch.Proofs.Storage.Conduct
import ChainWatch.Proofs.Storage.Confinement
import ChainWatch.Proofs.Storage.Reachable
import ChainWatch.Proofs.Storage.Completion
import ChainWatch.Proofs.Storage.Interruption
import ChainWatch.Proofs.Storage.Copying
import ChainWatch.Proofs.Storage.Storing
import ChainWatch.Proofs.Storage.Resuming
import ChainWatch.Proofs.Storage.Spelling
import ChainWatch.Proofs.Storage.Containment
import ChainWatch.Proofs.Storage.Lasting
import ChainWatch.Proofs.Storage.History
import ChainWatch.Proofs.Storage.Stages
import ChainWatch.Proofs.Storage.WriteOnce
