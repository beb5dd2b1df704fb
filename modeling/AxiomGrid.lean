import AxiomGrid.Lib.AlignedSort
import AxiomGrid.Lib.Base64
import AxiomGrid.Lib.Blocks
import AxiomGrid.Lib.Champion
import AxiomGrid.Lib.Collect
import AxiomGrid.Lib.Counter
import AxiomGrid.Lib.DecimalOrder
import AxiomGrid.Lib.Dict
import AxiomGrid.Lib.Ed25519
import AxiomGrid.Lib.EditDistance
import AxiomGrid.Lib.FileSystem
import AxiomGrid.Lib.FloatOrder
import AxiomGrid.Lib.Glob
import AxiomGrid.Lib.Gossip
import AxiomGrid.Lib.Greedy
import AxiomGrid.Lib.GroupBy
import AxiomGrid.Lib.HashChain
import AxiomGrid.Lib.Hex
import AxiomGrid.Lib.IntBits
import AxiomGrid.Lib.Json
import AxiomGrid.Lib.JsonEnds
import AxiomGrid.Lib.JsonLines
import AxiomGrid.Lib.JsonParse
import AxiomGrid.Lib.JsonSorted
import AxiomGrid.Lib.JsonStrict
import AxiomGrid.Lib.JsonText
import AxiomGrid.Lib.Latin1
import AxiomGrid.Lib.LengthPrefix
import AxiomGrid.Lib.LexicalPath
import AxiomGrid.Lib.Loop
import AxiomGrid.Lib.MerkleTree
import AxiomGrid.Lib.Oneshot
import AxiomGrid.Lib.Pool
import AxiomGrid.Lib.PrefixTable
import AxiomGrid.Lib.PyFloat
import AxiomGrid.Lib.PyLower
import AxiomGrid.Lib.PyStr
import AxiomGrid.Lib.PyValue
import AxiomGrid.Lib.Redaction
import AxiomGrid.Lib.Regex
import AxiomGrid.Lib.RegexGroups
import AxiomGrid.Lib.RegexMatches
import AxiomGrid.Lib.RustStr
import AxiomGrid.Lib.SectionEnd
import AxiomGrid.Lib.Sha1
import AxiomGrid.Lib.Sha256
import AxiomGrid.Lib.Since
import AxiomGrid.Lib.SlidingWindow
import AxiomGrid.Lib.StableSort
import AxiomGrid.Lib.StackWalk
import AxiomGrid.Lib.TextLines
import AxiomGrid.Lib.TopK
import AxiomGrid.Lib.TopLevel
import AxiomGrid.Lib.TotalVariation
import AxiomGrid.Lib.Transition
import AxiomGrid.Lib.Trim
import AxiomGrid.Lib.Unanimous
import AxiomGrid.Lib.UniqueRows
import AxiomGrid.Lib.Words
import AxiomGrid.Router.Accounting
import AxiomGrid.Router.Attempts
import AxiomGrid.Router.Basic
import AxiomGrid.Router.Breaker
import AxiomGrid.Router.Charges
import AxiomGrid.Router.Cooldown
import AxiomGrid.Router.Fencing
import AxiomGrid.Router.Ledger
import AxiomGrid.Router.Tally
import AxiomGrid.Trust.Checkpoint
import AxiomGrid.Trust.EndToEnd
import AxiomGrid.Trust.External
import AxiomGrid.Trust.FlightRecorder
import AxiomGrid.Trust.Merkle
import AxiomGrid.Trust.Replay
import AxiomGrid.Grounding.Cascade
import AxiomGrid.Grounding.Levenshtein
import AxiomGrid.Grounding.Quoted
import AxiomGrid.Grounding.Stability
import AxiomGrid.Grounding.Standalone
import AxiomGrid.Grounding.Text
import AxiomGrid.Grounding.Windows
import AxiomGrid.Pipeline.DataModel
import AxiomGrid.Pipeline.Ingestor
import AxiomGrid.Pipeline.IsolatedIngest
import AxiomGrid.Pipeline.IsolatedResult
import AxiomGrid.Pipeline.Orchestrator
import AxiomGrid.Pipeline.PageLayout
import AxiomGrid.Pipeline.QualityGate
import AxiomGrid.Pipeline.RefuseOrCite
import AxiomGrid.Pipeline.Similar
import AxiomGrid.Pipeline.Store
import AxiomGrid.Legal.Approval
import AxiomGrid.Legal.Binding
import AxiomGrid.Legal.Canonical
import AxiomGrid.Legal.Checks
import AxiomGrid.Legal.Envelope
import AxiomGrid.Legal.Execute
import AxiomGrid.Legal.Honest
import AxiomGrid.Legal.Observer
import AxiomGrid.Legal.Publish
import AxiomGrid.Legal.Rollback
import AxiomGrid.Legal.Signing
import AxiomGrid.Legal.Statement
import AxiomGrid.Legal.TempFile
import AxiomGrid.Legal.Transaction
import AxiomGrid.Legal.Verify
import AxiomGrid.Redline.Accept
import AxiomGrid.Redline.AuditLog
import AxiomGrid.Redline.Document
import AxiomGrid.Redline.Hits
import AxiomGrid.Redline.MarkIds
import AxiomGrid.Redline.Monitor
import AxiomGrid.Redline.Pipeline
import AxiomGrid.Redline.Readback
import AxiomGrid.Redline.Recorded
import AxiomGrid.Redline.Reject
import AxiomGrid.Receipts.AuditChain
import AxiomGrid.Receipts.IdentityManager
import AxiomGrid.Receipts.Log
import AxiomGrid.Receipts.Panics
import AxiomGrid.Receipts.Recovery
import AxiomGrid.Receipts.Verifiers
import AxiomGrid.Overlay.BodyLimit
import AxiomGrid.Overlay.ClientKey
import AxiomGrid.Overlay.DocumentText
import AxiomGrid.Overlay.ExtractDocument
import AxiomGrid.Overlay.ExtractionSlots
import AxiomGrid.Overlay.Ingress
import AxiomGrid.Overlay.RateLimit
import AxiomGrid.Overlay.Readiness
import AxiomGrid.Overlay.Registry
import AxiomGrid.Overlay.Server
import AxiomGrid.Overlay.Stack
import AxiomGrid.Overlay.Suggestions
import AxiomGrid.Packs.Evidence
import AxiomGrid.Packs.Generic
import AxiomGrid.Packs.Invoice
import AxiomGrid.Packs.InvoiceLines
import AxiomGrid.Runtime.Bridge
import AxiomGrid.Runtime.Cancel
import AxiomGrid.Runtime.Generate
import AxiomGrid.Runtime.Ipc
import AxiomGrid.Runtime.Server
import AxiomGrid.Memory.ReadBack
import AxiomGrid.Memory.Store
import AxiomGrid.DocIntel.Ask
import AxiomGrid.DocIntel.Chunking
import AxiomGrid.DocIntel.Outcomes
import AxiomGrid.DocIntel.Quotes
import AxiomGrid.Audit.Export
import AxiomGrid.Audit.Reproducibility
import AxiomGrid.Audit.SignedLog
import AxiomGrid.Phantom.CommandProtocol
import AxiomGrid.Phantom.DocumentGraph
import AxiomGrid.Phantom.ExcelFormula
import AxiomGrid.Phantom.GhostBuffer
import AxiomGrid.Phantom.GhostSession
import AxiomGrid.Phantom.JitToken
import AxiomGrid.Phantom.Kpx
import AxiomGrid.Phantom.LanSync
import AxiomGrid.Phantom.Maintenance
import AxiomGrid.Phantom.MdWriter
import AxiomGrid.Phantom.MemMachine
import AxiomGrid.Phantom.MemoryStore
import AxiomGrid.Phantom.Network
import AxiomGrid.Phantom.OutputScanner
import AxiomGrid.Phantom.PiiGuard
import AxiomGrid.Phantom.RateLimits
import AxiomGrid.Phantom.Rbac
import AxiomGrid.Phantom.Recall
import AxiomGrid.Phantom.SemanticMemory
import AxiomGrid.Phantom.Sentinel
import AxiomGrid.Phantom.ToolGate
import AxiomGrid.Extensions.PreviewSession
import AxiomGrid.Context.Compressor
import AxiomGrid.Sync.Merge
import AxiomGrid.Sidecar.SecurityFilter
import AxiomGrid.Kairo.Cua
import AxiomGrid.Kairo.Excel
import AxiomGrid.Kairo.FormFill
import AxiomGrid.Kairo.GraphCalls
import AxiomGrid.Kairo.GraphEdges
import AxiomGrid.Kairo.KnowledgeGraph
import AxiomGrid.Kairo.PdfRedaction
import AxiomGrid.Kairo.PdfStrings
import AxiomGrid.Kairo.Personalization
import AxiomGrid.LoopEngineering.DesktopGate
import AxiomGrid.LoopEngineering.Discipline
import AxiomGrid.LoopEngineering.Green
import AxiomGrid.LoopEngineering.Ledger
import AxiomGrid.LoopEngineering.Orchestrator
import AxiomGrid.LoopEngineering.Steps
import AxiomGrid.LoopEngineering.Validators
