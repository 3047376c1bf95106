import TransactionalServer.Session
import TransactionalServer.Connection
import TransactionalServer.Receiving
import TransactionalServer.Proofs.Framing
import TransactionalServer.Library.Store
import TransactionalServer.Proofs.Echo
import TransactionalServer.Proofs.LogSteps
import TransactionalServer.Proofs.Missing
import TransactionalServer.Proofs.Replies
import TransactionalServer.Backup
import TransactionalServer.Proofs.Commands
import TransactionalServer.Proofs.Frames
import TransactionalServer.Proofs.Totality
import TransactionalServer.Proofs.BackupSteps
import TransactionalServer.Proofs.Settling
import TransactionalServer.Proofs.Replication
import TransactionalServer.Proofs.CommitDecision
import TransactionalServer.Proofs.Delivery
import TransactionalServer.Proofs.Completion
import TransactionalServer.Proofs.RetryTermination
import TransactionalServer.Proofs.ManagerFrames
import TransactionalServer.Proofs.Resend
import TransactionalServer.System
import TransactionalServer.Proofs.Reserved
import TransactionalServer.Proofs.SessionSteps
import TransactionalServer.Ledger
import TransactionalServer.Proofs.LedgerSteps
import TransactionalServer.Process
import TransactionalServer.Proofs.ProcessSteps
import TransactionalServer.Proofs.Roles
import TransactionalServer.Proofs.Completeness
import TransactionalServer.Proofs.Immutability
import TransactionalServer.Proofs.Filing
import TransactionalServer.Proofs.AtMostOnce
import TransactionalServer.Proofs.FileContents
import TransactionalServer.Proofs.Acknowledgments
import TransactionalServer.Proofs.Durability
import TransactionalServer.Proofs.AbortFinality
import TransactionalServer.Proofs.BackupProgress
import TransactionalServer.Proofs.OneReply
import TransactionalServer.Proofs.Decoding
import TransactionalServer.Proofs.OrderIndependence
import TransactionalServer.Proofs.Redelivery
import TransactionalServer.Library.Safety
import TransactionalServer.Proofs.Stored
import TransactionalServer.Proofs.Lookups
import TransactionalServer.Proofs.Pending
import TransactionalServer.Proofs.Convergence
import TransactionalServer.Clocked
import TransactionalServer.Proofs.Changes
import TransactionalServer.Library.Locality
import TransactionalServer.Proofs.Answers
import TransactionalServer.Proofs.Rejections
import TransactionalServer.Proofs.FailedCommits
import TransactionalServer.Proofs.Commutation
import TransactionalServer.Library.Traversal
import TransactionalServer.Proofs.SweepIndependence
import TransactionalServer.Proofs.FileNames
import TransactionalServer.Proofs.Activity
import TransactionalServer.Proofs.Retries
import TransactionalServer.Proofs.Promotion
import TransactionalServer.Proofs.Capacity
import TransactionalServer.Proofs.Peers
import TransactionalServer.Proofs.PrimaryChecks
import TransactionalServer.Proofs.EarnedChecks
import TransactionalServer.Pair
import TransactionalServer.Proofs.Docility
import TransactionalServer.Proofs.SinglePrimary
import TransactionalServer.Proofs.Tracking
import TransactionalServer.Proofs.Agreement
import TransactionalServer.Proofs.GapScan
import TransactionalServer.Proofs.PayloadRead
import TransactionalServer.Launch
import TransactionalServer.Proofs.Addresses
import TransactionalServer.Library.Outbox
import TransactionalServer.Standby
import TransactionalServer.Proofs.Shipping
import TransactionalServer.Proofs.FileAgreement
import TransactionalServer.Proofs.Takeover
import TransactionalServer.TransactionManager
import TransactionalServer.Proofs.Lifetimes
import TransactionalServer.Library.Refinement
import TransactionalServer.Proofs.Portrayal
import TransactionalServer.Proofs.Turns
import TransactionalServer.Proofs.Machines
import TransactionalServer.IoService
import TransactionalServer.Proofs.Arrivals
import TransactionalServer.Proofs.Transcripts
import TransactionalServer.Proofs.Outsiders
import TransactionalServer.Conversation
import TransactionalServer.Proofs.PlainReplies
import TransactionalServer.Proofs.Dialogue
