import MemFs.Access.Mode
import MemFs.Access.Policy
import MemFs.Access.Request
import MemFs.Arena
import MemFs.Bytes.LittleEndian
import MemFs.Clock
import MemFs.Config
import MemFs.ConfigFile
import MemFs.Data.Datum
import MemFs.Data.Forms
import MemFs.Entries
import MemFs.Error
import MemFs.Event
import MemFs.Identity.Qid
import MemFs.Identity.Source
import MemFs.Name
import MemFs.Node
import MemFs.Proofs.Access.Denial
import MemFs.Proofs.Access.Flag
import MemFs.Proofs.Access.Inquiry
import MemFs.Proofs.Access.Mode
import MemFs.Proofs.Access.Rights
import MemFs.Proofs.Arena
import MemFs.Proofs.Content.Edit
import MemFs.Proofs.Content.History
import MemFs.Proofs.Content.Writers
import MemFs.Proofs.Entries
import MemFs.Proofs.Interleaving
import MemFs.Proofs.Name
import MemFs.Proofs.Path
import MemFs.Proofs.Session.DirectoryCursor
import MemFs.Proofs.Session.FileCursor
import MemFs.Proofs.Session.Grant
import MemFs.Proofs.Session.Listable
import MemFs.Proofs.Session.Listing
import MemFs.Proofs.Session.OpenCount
import MemFs.Proofs.Session.Service
import MemFs.Proofs.Session.Snapshot
import MemFs.Proofs.Session.Soundness
import MemFs.Proofs.Session.Turnover
import MemFs.Proofs.Session.Word
import MemFs.Proofs.Stat.Acceptance
import MemFs.Proofs.Stat.Delimitation
import MemFs.Proofs.Stat.Encoding
import MemFs.Proofs.Stat.RoundTrip
import MemFs.Proofs.Text.ByteOrder
import MemFs.Proofs.Tree.Address
import MemFs.Proofs.Tree.Alteration
import MemFs.Proofs.Tree.Ancestry
import MemFs.Proofs.Tree.Attribution
import MemFs.Proofs.Tree.Chronicle
import MemFs.Proofs.Tree.Circle
import MemFs.Proofs.Tree.Creators
import MemFs.Proofs.Tree.Effect
import MemFs.Proofs.Tree.Failure
import MemFs.Proofs.Tree.FiniteMap
import MemFs.Proofs.Tree.Footprint
import MemFs.Proofs.Tree.Forest
import MemFs.Proofs.Tree.Holding
import MemFs.Proofs.Tree.Inheritance
import MemFs.Proofs.Tree.Lookup
import MemFs.Proofs.Tree.Mutation
import MemFs.Proofs.Tree.Naming
import MemFs.Proofs.Tree.Numbering
import MemFs.Proofs.Tree.Outline
import MemFs.Proofs.Tree.ParentLinks
import MemFs.Proofs.Tree.Perform
import MemFs.Proofs.Tree.Rebinding
import MemFs.Proofs.Tree.Reshape
import MemFs.Proofs.Tree.Resolution
import MemFs.Proofs.Tree.Retrospect
import MemFs.Proofs.Tree.Revision
import MemFs.Proofs.Tree.Run
import MemFs.Proofs.Tree.Secrecy
import MemFs.Proofs.Tree.Sweep
import MemFs.Proofs.Tree.Timing
import MemFs.Proofs.Tree.Upkeep
import MemFs.Proofs.Tree.Value
import MemFs.Proofs.Tree.Version
import MemFs.Proofs.Tree.WriteBack
import MemFs.Session
import MemFs.Stat.Basic
import MemFs.Stat.Decoding
import MemFs.Stat.Encoding
import MemFs.Stat.Field
import MemFs.Text.Extending
import MemFs.Text.Quoted
import MemFs.Text.Unprintable
import MemFs.Text.Utf8
import MemFs.Toml.Document
import MemFs.Toml.Line
import MemFs.Toml.Number
import MemFs.Toml.Quotation
import MemFs.Toml.Scan
import MemFs.Toml.Table
import MemFs.Toml.Timestamp
import MemFs.Toml.Value
import MemFs.Tree.Basic
import MemFs.Tree.Describe
import MemFs.Tree.Metadata
import MemFs.Tree.Namespace
import MemFs.Tree.Operation
import MemFs.Tree.Ownership
import MemFs.Tree.Sessions
