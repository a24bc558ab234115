import TokenNet.Bench.Answer
import TokenNet.Bench.Basic
import TokenNet.Bench.Command
import TokenNet.Bench.Eval
import TokenNet.Bench.Run
import TokenNet.Clock
import TokenNet.Config
import TokenNet.Datum.Arithmetic
import TokenNet.Datum.Basic
import TokenNet.Datum.Key
import TokenNet.Datum.Literal
import TokenNet.Datum.Register
import TokenNet.Declaration.Basic
import TokenNet.Declaration.Check
import TokenNet.Declaration.Literal
import TokenNet.Declaration.Load
import TokenNet.Failure
import TokenNet.Firing
import TokenNet.Json.Reader
import TokenNet.Json.Token
import TokenNet.Json.Writer
import TokenNet.Net.Basic
import TokenNet.Net.Compile
import TokenNet.Net.Diagram
import TokenNet.Net.Draft
import TokenNet.Net.Export
import TokenNet.Net.Literal
import TokenNet.Net.Query
import TokenNet.Note
import TokenNet.Number.Binary64
import TokenNet.Number.Decimal
import TokenNet.Number.Lenient
import TokenNet.Number.Numeral
import TokenNet.Proofs.Act
import TokenNet.Proofs.Agreement
import TokenNet.Proofs.Alike
import TokenNet.Proofs.ArcForm
import TokenNet.Proofs.ArcOrder
import TokenNet.Proofs.Atomicity
import TokenNet.Proofs.Board
import TokenNet.Proofs.Bounds
import TokenNet.Proofs.Callers
import TokenNet.Proofs.Checking
import TokenNet.Proofs.Compile
import TokenNet.Proofs.Decimals
import TokenNet.Proofs.Declared
import TokenNet.Proofs.Diagram
import TokenNet.Proofs.Digits
import TokenNet.Proofs.Disciplines
import TokenNet.Proofs.Dispatch
import TokenNet.Proofs.Drafting
import TokenNet.Proofs.Edges
import TokenNet.Proofs.Escapes
import TokenNet.Proofs.Export
import TokenNet.Proofs.Failing
import TokenNet.Proofs.Firing
import TokenNet.Proofs.Flow
import TokenNet.Proofs.Inhibition
import TokenNet.Proofs.Intact
import TokenNet.Proofs.Isolation
import TokenNet.Proofs.Journal
import TokenNet.Proofs.Legibility
import TokenNet.Proofs.Lexing
import TokenNet.Proofs.Links
import TokenNet.Proofs.Making
import TokenNet.Proofs.Malformed
import TokenNet.Proofs.Nodes
import TokenNet.Proofs.Notices
import TokenNet.Proofs.Numerals
import TokenNet.Proofs.ObjectForm
import TokenNet.Proofs.Offsets
import TokenNet.Proofs.Onlookers
import TokenNet.Proofs.Phrases
import TokenNet.Proofs.Plain
import TokenNet.Proofs.Play
import TokenNet.Proofs.Preconditions
import TokenNet.Proofs.Proper
import TokenNet.Proofs.Reading
import TokenNet.Proofs.Redrafting
import TokenNet.Proofs.Relisting
import TokenNet.Proofs.Reload
import TokenNet.Proofs.Reordering
import TokenNet.Proofs.Repetition
import TokenNet.Proofs.Replay
import TokenNet.Proofs.Rounding
import TokenNet.Proofs.Rule
import TokenNet.Proofs.Runs
import TokenNet.Proofs.Safety
import TokenNet.Proofs.Sites
import TokenNet.Proofs.Stale
import TokenNet.Proofs.StateEquation
import TokenNet.Proofs.Tables
import TokenNet.Proofs.TextForm
import TokenNet.Proofs.Undoing
import TokenNet.Proofs.Unedited
import TokenNet.Proofs.VectorForm
import TokenNet.Proofs.WellFormed
import TokenNet.Proofs.World
import TokenNet.Proofs.Writing
import TokenNet.Report
import TokenNet.Sample
import TokenNet.Stream
import TokenNet.Table
import TokenNet.Text.Basic
import TokenNet.Text.Graphic
import TokenNet.Text.Quoted
import TokenNet.Vector
import TokenNet.Vector.Spelled
