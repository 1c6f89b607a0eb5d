import NoirSidecar.Base.Machine
import NoirSidecar.Base.Rest
import NoirSidecar.Base.Channel
import NoirSidecar.Base.Server
import NoirSidecar.Base.Text
import NoirSidecar.Base.Base58
import NoirSidecar.Base.Hex
import NoirSidecar.Base.Base64
import NoirSidecar.Base.HashMap
import NoirSidecar.Base.Interaction
import NoirSidecar.Base.Dialogue
import NoirSidecar.Base.Lowering
import NoirSidecar.Base.Table
import NoirSidecar.Base.Transaction
import NoirSidecar.Solana.Account
import NoirSidecar.Solana.TokenAccount
import NoirSidecar.Solana.Filter
import NoirSidecar.Solana.Transaction
import NoirSidecar.Client.Loop
import NoirSidecar.Client.Stall
import NoirSidecar.Client.Cancellation
import NoirSidecar.Client.Budget
import NoirSidecar.Client.Connection
import NoirSidecar.Client.Answers
import NoirSidecar.Client.Retries
import NoirSidecar.Client.Drain
import NoirSidecar.Client.Routing
import NoirSidecar.Client.Shutdown
import NoirSidecar.Client.Node
import NoirSidecar.Client.Chain
import NoirSidecar.Client.Storage
import NoirSidecar.Client.Wire
import NoirSidecar.Index.Store
import NoirSidecar.Index.Update
import NoirSidecar.Index.Contents
import NoirSidecar.Index.Completeness
import NoirSidecar.Index.Consistency
import NoirSidecar.Index.Ingest
import NoirSidecar.Index.Soundness
import NoirSidecar.Index.Schema
import NoirSidecar.Rpc.Routing
import NoirSidecar.Rpc.Accounts
import NoirSidecar.Rpc.Listing
import NoirSidecar.Rpc.Agreement
import NoirSidecar.Rpc.Parsing
import NoirSidecar.Rpc.Methods
import NoirSidecar.Rpc.Snapshot
import NoirSidecar.Rpc.Blockhash
import NoirSidecar.Rpc.Timestamps
import NoirSidecar.Rpc.Positions
import NoirSidecar.Rpc.Sending
import NoirSidecar.Rpc.WireText
import NoirSidecar.Rpc.Indexed
import NoirSidecar.Rpc.FilterLists
import NoirSidecar.Rpc.SizeLimit
import NoirSidecar.Rpc.OwnerListing
import NoirSidecar.Rpc.ProgramListing
import NoirSidecar.Rpc.Mock
import NoirSidecar.Rpc.Svm
import NoirSidecar.Rpc.MockMethods
import NoirSidecar.Rpc.MockAgreement
import NoirSidecar.Rpc.MockSession
import NoirSidecar.Event.Subscriber
import NoirSidecar.Event.Delivery
import NoirSidecar.System.Machine
import NoirSidecar.System.Threads
import NoirSidecar.System.Methods
import NoirSidecar.System.Moments
import NoirSidecar.System.Indexing
import NoirSidecar.System.Listings
import NoirSidecar.System.Rest
import NoirSidecar.System.Outage
import NoirSidecar.System.Submission
import NoirSidecar.System.MockMachine
import NoirSidecar.System.MockTurns
import NoirSidecar.System.MockEffects
import NoirSidecar.System.MockRest
