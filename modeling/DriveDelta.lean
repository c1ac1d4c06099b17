import DriveDelta.Config.File
import DriveDelta.LogFile
import DriveDelta.Rehearsal.Tokens
import DriveDelta.Rehearsal.Visits
import DriveDelta.Rehearsal.Waits
import DriveDelta.Proofs.Cache.Session
import DriveDelta.Proofs.Cache.Line
import DriveDelta.Proofs.Cache.Trace
import DriveDelta.Proofs.Cache.Convergence
import DriveDelta.Proofs.Cache.Replay
import DriveDelta.Proofs.Cache.Staleness
import DriveDelta.Proofs.Cache.Rehearsed
import DriveDelta.Proofs.Cache.Failure
import DriveDelta.Proofs.Cache.FullListing
import DriveDelta.Proofs.Cache.Closing
import DriveDelta.Proofs.Cache.Freshness
import DriveDelta.Proofs.Cache.Shadow
import DriveDelta.Proofs.Cache.Strategies
import DriveDelta.Proofs.Cache.Enumeration
import DriveDelta.Proofs.Cache.LastWriter
import DriveDelta.Proofs.Cache.Integrity
import DriveDelta.Proofs.Calls.Cancellation
import DriveDelta.Proofs.Calls.Accounts
import DriveDelta.Proofs.Calls.Lone
import DriveDelta.Proofs.Calls.Attempts
import DriveDelta.Proofs.Calls.Feedback
import DriveDelta.Proofs.Context.Derivation
import DriveDelta.Proofs.Delta.Decoding
import DriveDelta.Proofs.Delta.Fetching
import DriveDelta.Proofs.Admission.Conformance
import DriveDelta.Proofs.Admission.Separation
import DriveDelta.Proofs.Admission.Safety
import DriveDelta.Proofs.Admission.Abandonment
import DriveDelta.Proofs.Retry.Pauses
import DriveDelta.Proofs.Admission.Pacing
import DriveDelta.Proofs.Admission.Promptness
import DriveDelta.Proofs.Admission.Ways
import DriveDelta.Proofs.Retry.Configured
import DriveDelta.Proofs.Delta.Addressing
import DriveDelta.Proofs.Config.Independence
import DriveDelta.Proofs.Wire.Headers
import DriveDelta.Proofs.Admission.Telling
import DriveDelta.Proofs.Calls.Ranges
