import TiBench.Bytes
import TiBench.Cli.Arguments
import TiBench.Cli.Command
import TiBench.Cli.Error
import TiBench.Cli.Run
import TiBench.Compare.Binary
import TiBench.Compare.Error
import TiBench.Compare.Lines
import TiBench.Compare.Mask
import TiBench.Compare.Package
import TiBench.Compare.Token
import TiBench.Config
import TiBench.FileFormat
import TiBench.FileTree
import TiBench.Json.Reader
import TiBench.Json.Token
import TiBench.Json.Value
import TiBench.Pieces
import TiBench.Proofs.Bitmap
import TiBench.Proofs.Bytes
import TiBench.Proofs.Cluster
import TiBench.Proofs.Descriptor
import TiBench.Proofs.Disk.Allocation
import TiBench.Proofs.Disk.Changes
import TiBench.Proofs.Disk.Consistency
import TiBench.Proofs.Disk.Exchange
import TiBench.Proofs.Disk.FileMap
import TiBench.Proofs.Disk.Operation
import TiBench.Proofs.Disk.Outcome
import TiBench.Proofs.Disk.Ownership
import TiBench.Proofs.Disk.Reading
import TiBench.Proofs.Disk.Refusal
import TiBench.Proofs.Disk.RoundTrip
import TiBench.Proofs.Disk.Sectors
import TiBench.Proofs.Disk.Steps
import TiBench.Proofs.Index
import TiBench.Proofs.Name
import TiBench.Proofs.Payload
import TiBench.Proofs.Pieces
import TiBench.Proofs.Record
import TiBench.Proofs.Result
import TiBench.Record.Basic
import TiBench.Record.Codec
import TiBench.Record.Fixed
import TiBench.Record.Payload
import TiBench.Record.Variable
import TiBench.Sample.ChaCha
import TiBench.Sample.ChunkPlan
import TiBench.Sample.Marker
import TiBench.Sample.MemoryImage
import TiBench.Sample.Records
import TiBench.Sample.TestVector
import TiBench.Scenario.DiskTrip
import TiBench.Scenario.ErrorPath
import TiBench.Scenario.Outcome
import TiBench.Scenario.RoundTrip
import TiBench.Scenario.Run
import TiBench.Scenario.Script
import TiBench.Scenario.Step
import TiBench.Scenario.Suite
import TiBench.SectorImage
import TiBench.Text.Blank
import TiBench.Text.CharClass
import TiBench.Text.DigitTable
import TiBench.Text.Dump
import TiBench.Text.FoldTable
import TiBench.Text.Line
import TiBench.Text.Number
import TiBench.Text.Utf8
import TiBench.Text.WordTable
import TiBench.Timestamp
import TiBench.Tool.Basic
import TiBench.Tool.Fault
import TiBench.Tool.Program
import TiBench.Tool.Report
import TiBench.Tool.Script
import TiBench.Volume.Bitmap
import TiBench.Volume.Catalog
import TiBench.Volume.Cluster
import TiBench.Volume.Container
import TiBench.Volume.Descriptor
import TiBench.Volume.Disk.Basic
import TiBench.Volume.Disk.Check
import TiBench.Volume.Disk.Read
import TiBench.Volume.Disk.Write
import TiBench.Volume.Error
import TiBench.Volume.Index
import TiBench.Volume.Info
import TiBench.Volume.Name
import TiBench.Zip.Archive
import TiBench.Zip.Crc32
import TiBench.Zip.Directory
import TiBench.Zip.EndRecord
import TiBench.Zip.Field
import TiBench.Zip.HuffmanCode
import TiBench.Zip.Inflate
import TiBench.Zip.Listed
import TiBench.Zip.Source
import TiBench.Proofs.Info
import TiBench.Proofs.Disk.Reload
import TiBench.Proofs.Disk.Timed
import TiBench.Proofs.FileTree
import TiBench.Proofs.Cli.Session
import TiBench.Proofs.Disk.Twins
import TiBench.Proofs.Text
import TiBench.Proofs.Catalog
import TiBench.Proofs.Disk.Listing
import TiBench.Proofs.Disk.Clocks
import TiBench.Proofs.Disk.Stamps
import TiBench.Proofs.ChunkPlan
import TiBench.Proofs.Timestamp
import TiBench.Proofs.Disk.Order
import TiBench.Proofs.Disk.Ledger
import TiBench.Proofs.Disk.Rows
import TiBench.Proofs.Scenario.Script
import TiBench.Proofs.Scenario.Plan
import TiBench.Proofs.Scenario.Outcome
import TiBench.Proofs.Checked.Access
import TiBench.Proofs.Checked.Record
import TiBench.Proofs.Checked.Layout
import TiBench.Proofs.Checked.Change
import TiBench.Proofs.Checked.Reading
import TiBench.Proofs.Checked.Session
import TiBench.Proofs.Number
import TiBench.Proofs.Report
import TiBench.Proofs.Disk.Extended
import TiBench.Proofs.Container
import TiBench.Proofs.Workspace
import TiBench.Proofs.Scenario.Sites
import TiBench.Proofs.Tool.Script
import TiBench.Proofs.Scenario.RoundTrip
import TiBench.Proofs.FileFormat
import TiBench.Proofs.Scenario.DiskTrip
import TiBench.Proofs.Compare.Binary
import TiBench.Proofs.Record.Damage
import TiBench.Proofs.Disk.Records
import TiBench.Proofs.Disk.FirstFit
import TiBench.Proofs.Disk.Space
import TiBench.Proofs.Compare.Lines
import TiBench.Proofs.Scenario.Template
import TiBench.Proofs.Disk.Undo
import TiBench.Proofs.Record.Packing
import TiBench.Proofs.Compare.Token
import TiBench.Proofs.Compare.Escape
import TiBench.Proofs.Checksum
import TiBench.Proofs.Printable
import TiBench.Proofs.Compare.Mask
import TiBench.Proofs.Compare.MaskText
import TiBench.Proofs.Compare.Package
import TiBench.Proofs.Config
import TiBench.Proofs.Dump
import TiBench.Proofs.Marker
import TiBench.Proofs.Metadata
import TiBench.Shell.Arithmetic
import TiBench.Shell.Builtin
import TiBench.Shell.Condition
import TiBench.Shell.Expansion
import TiBench.Shell.FilePrograms
import TiBench.Shell.Grammar
import TiBench.Shell.Lexeme
import TiBench.Shell.Operands
import TiBench.Shell.Pattern
import TiBench.Shell.Print
import TiBench.Shell.Run
import TiBench.Shell.Script
import TiBench.Shell.Session
import TiBench.Shell.Signal
import TiBench.Shell.Standard
import TiBench.Shell.StreamPrograms
import TiBench.Shell.System
import TiBench.Main
