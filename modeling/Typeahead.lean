import Typeahead.Alignment.Row
import Typeahead.Alignment.Trace
import Typeahead.Callback
import Typeahead.CharClass
import Typeahead.Config
import Typeahead.Config.Document
import Typeahead.Desk
import Typeahead.Fault
import Typeahead.Generation
import Typeahead.Hash.XXH3
import Typeahead.Haystack
import Typeahead.Json.Record
import Typeahead.Json.Token
import Typeahead.Json.Value
import Typeahead.Memory
import Typeahead.Needle
import Typeahead.Paths.Arena
import Typeahead.Paths.CommonDirectory
import Typeahead.Paths.Fingerprint
import Typeahead.Paths.Index
import Typeahead.Paths.ProbeTable
import Typeahead.Paths.Scan
import Typeahead.Paths.Shard
import Typeahead.Pool.Basic
import Typeahead.Pool.Candidate
import Typeahead.Pool.Sheets
import Typeahead.Proofs.Alignment.Dominance
import Typeahead.Proofs.Alignment.Guarded
import Typeahead.Proofs.Alignment.Offset
import Typeahead.Proofs.Alignment.Optimum
import Typeahead.Proofs.Alignment.Placement
import Typeahead.Proofs.Alignment.PlainRow
import Typeahead.Proofs.Alignment.Prefilter
import Typeahead.Proofs.Alignment.Recurrence
import Typeahead.Proofs.Alignment.Table
import Typeahead.Proofs.Alignment.Traceback
import Typeahead.Proofs.Config.Documents
import Typeahead.Proofs.Config.Rendering
import Typeahead.Proofs.Config.Settings
import Typeahead.Proofs.Haystack
import Typeahead.Proofs.Json.Grammar
import Typeahead.Proofs.Json.Lexing
import Typeahead.Proofs.Json.Reading
import Typeahead.Proofs.Needle
import Typeahead.Proofs.Paths.Closing
import Typeahead.Proofs.Paths.Compaction
import Typeahead.Proofs.Paths.Creation
import Typeahead.Proofs.Paths.Encoding
import Typeahead.Proofs.Paths.EntryBag
import Typeahead.Proofs.Paths.EntryList
import Typeahead.Proofs.Paths.Hiding
import Typeahead.Proofs.Paths.History
import Typeahead.Proofs.Paths.Multimap
import Typeahead.Proofs.Paths.Order
import Typeahead.Proofs.Paths.OrderedSet
import Typeahead.Proofs.Paths.PathSet
import Typeahead.Proofs.Paths.Probing
import Typeahead.Proofs.Paths.Refinement
import Typeahead.Proofs.Paths.Resolving
import Typeahead.Proofs.Paths.Scanning
import Typeahead.Proofs.Paths.Search
import Typeahead.Proofs.Paths.Showing
import Typeahead.Proofs.Paths.Stopping
import Typeahead.Proofs.Paths.Storage
import Typeahead.Proofs.Paths.Transparency
import Typeahead.Proofs.Pool.Arrival
import Typeahead.Proofs.Pool.Bookkeeping
import Typeahead.Proofs.Pool.Charges
import Typeahead.Proofs.Pool.Contest
import Typeahead.Proofs.Pool.Gathering
import Typeahead.Proofs.Pool.Marking
import Typeahead.Proofs.Pool.Packing
import Typeahead.Proofs.Pool.Pins
import Typeahead.Proofs.Pool.Ranking
import Typeahead.Proofs.Pool.Refinement
import Typeahead.Proofs.Pool.Refusal
import Typeahead.Proofs.Pool.Representation
import Typeahead.Proofs.Pool.Roster
import Typeahead.Proofs.Pool.Sharing
import Typeahead.Proofs.Pool.Tracing
import Typeahead.Proofs.Registry
import Typeahead.Proofs.Supersession
import Typeahead.Proofs.Tenure
import Typeahead.Proofs.Weights
import Typeahead.Registry
import Typeahead.Round
import Typeahead.Score
import Typeahead.Scorer
import Typeahead.Session.Basic
import Typeahead.Session.Callbacks
import Typeahead.Session.Event
import Typeahead.Session.Indexes
import Typeahead.Session.Pools
import Typeahead.Session.Rounds
import Typeahead.Session.Store
import Typeahead.Text.Alphabetic
import Typeahead.Text.Blank
import Typeahead.Text.Cased
import Typeahead.Text.CharSet
import Typeahead.Text.Fold
import Typeahead.Text.Hidden
import Typeahead.Text.Inspect
import Typeahead.Text.Numeric
import Typeahead.Text.Quoted
import Typeahead.Text.Utf8
import Typeahead.Weights
