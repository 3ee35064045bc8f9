import GoshTransfer.Lib.Transition
import GoshTransfer.Lib.InodeStore
import GoshTransfer.Lib.Renumbering
import GoshTransfer.Lib.Trimming
import GoshTransfer.Lib.Ranking
import GoshTransfer.Lib.Histories
import GoshTransfer.Lib.UnixPath
import GoshTransfer.Lib.IpText
import GoshTransfer.Protocol
import GoshTransfer.Manifest
import GoshTransfer.Names
import GoshTransfer.Session
import GoshTransfer.Decisions
import GoshTransfer.Register
import GoshTransfer.Upload
import GoshTransfer.Sender
import GoshTransfer.DecisionMove
import GoshTransfer.RegisterMove
import GoshTransfer.UploadMove
import GoshTransfer.Records
import GoshTransfer.System
import GoshTransfer.Load
import GoshTransfer.Discipline
import GoshTransfer.Facts
import GoshTransfer.Base
import GoshTransfer.DiskEffect
import GoshTransfer.Parts
import GoshTransfer.Kept
import GoshTransfer.Reports
import GoshTransfer.Completion
import GoshTransfer.Outcomes
import GoshTransfer.LateCancel
import GoshTransfer.Atomic
import GoshTransfer.Territory
import GoshTransfer.Forgetting
import GoshTransfer.Promises
import GoshTransfer.Contents
import GoshTransfer.Integrity
import GoshTransfer.Publication
import GoshTransfer.Resume
import GoshTransfer.Certificates
import GoshTransfer.Delivery
import GoshTransfer.Checkpoints
import GoshTransfer.Isolation
import GoshTransfer.Authority
import GoshTransfer.Legacy
import GoshTransfer.LegacyUpload
import GoshTransfer.Sandbox
import GoshTransfer.DirectoryTree
import GoshTransfer.Discovery
import GoshTransfer.Trust
import GoshTransfer.Security
import GoshTransfer.Engine
import GoshTransfer.Traffic
import GoshTransfer.Restart
import GoshTransfer.LegacyMove
import GoshTransfer.LegacyLocks
import GoshTransfer.Lifecycle
import GoshTransfer.Approvals
import GoshTransfer.Disclosure
import GoshTransfer.Expiry
import GoshTransfer.Retention
import GoshTransfer.Receipts
import GoshTransfer.Proclamation
import GoshTransfer.LegacyFiles
import GoshTransfer.Settlement
import GoshTransfer.Conclusions
import GoshTransfer.ExactlyOnce
import GoshTransfer.Accounting
import GoshTransfer.Bookkeeping
import GoshTransfer.ByteReports
import GoshTransfer.Tally
import GoshTransfer.Counting
import GoshTransfer.Progress
import GoshTransfer.Receiver
import GoshTransfer.OneProtocol
import GoshTransfer.Coexistence
import GoshTransfer.Owners
import GoshTransfer.Unwinding
import GoshTransfer.UploadUnwinding
import GoshTransfer.Bystanders
import GoshTransfer.Noninterference
import GoshTransfer.Validation
import GoshTransfer.Numbering
import GoshTransfer.Exhaustion
import GoshTransfer.Blocked
import GoshTransfer.WindowsNames
import GoshTransfer.History
import GoshTransfer.Throttle
import GoshTransfer.PeerTimeout
import GoshTransfer.LegacySender
import GoshTransfer.SenderCounter
import GoshTransfer.PanicFree
import GoshTransfer.PendingList
import GoshTransfer.LegacyWaiting
import GoshTransfer.DurableWaiting
import GoshTransfer.Dockets
import GoshTransfer.Recounting
import GoshTransfer.Listing
import GoshTransfer.Retained
import GoshTransfer.DecideOne
import GoshTransfer.DecideAll
import GoshTransfer.Lib.Waiting
import GoshTransfer.Deadlock
import GoshTransfer.Draining
import GoshTransfer.LegacyDeadlock
import GoshTransfer.Lib.Refinement
import GoshTransfer.Catalogue
import GoshTransfer.Linearization
import GoshTransfer.Coherence
import GoshTransfer.Durability
import GoshTransfer.Neighbourhood
import GoshTransfer.Introductions
import GoshTransfer.Resumption
import GoshTransfer.Reliability
import GoshTransfer.Sending
import GoshTransfer.LegacyDelivery
import GoshTransfer.LegacyAnnouncement
import GoshTransfer.ControlLog
import GoshTransfer.Preparation
import GoshTransfer.Negotiating
import GoshTransfer.Placement
import GoshTransfer.TreeDelivery
import GoshTransfer.Finishing
import GoshTransfer.Fulfilment
import GoshTransfer.Candour
import GoshTransfer.LegacyDraining
import GoshTransfer.Abandoned
import GoshTransfer.LegacyAbandoned
