import RetroMedia.Broker.Basic
import RetroMedia.Broker.Session
import RetroMedia.Bytes
import RetroMedia.Cartridge
import RetroMedia.CommandLine.Arguments
import RetroMedia.CommandLine.Commands
import RetroMedia.CommandLine.Dump
import RetroMedia.CommandLine.Similarity
import RetroMedia.CommandLine.Usage
import RetroMedia.Config
import RetroMedia.Config.Reader
import RetroMedia.Decimal.Binary64
import RetroMedia.Decimal.Shortest
import RetroMedia.Digest.Sha256
import RetroMedia.Disk.Chain
import RetroMedia.Disk.ChainReader
import RetroMedia.Disk.Geometry
import RetroMedia.Disk.LocationSet
import RetroMedia.Disk.Sectors
import RetroMedia.Disk.TrackImage
import RetroMedia.Disk.Volume
import RetroMedia.Document
import RetroMedia.Entry
import RetroMedia.Error
import RetroMedia.Format
import RetroMedia.Gcr.Code
import RetroMedia.Gcr.Sector
import RetroMedia.Gcr.Sync
import RetroMedia.Gcr.Track
import RetroMedia.Generated
import RetroMedia.Handler
import RetroMedia.HardDisk.Pointer
import RetroMedia.HardDisk.Volume
import RetroMedia.Host.Path
import RetroMedia.Host.Tree
import RetroMedia.Image.Basic
import RetroMedia.Image.Checkout
import RetroMedia.Json.Document
import RetroMedia.Json.Number
import RetroMedia.Json.Printer
import RetroMedia.Json.Token
import RetroMedia.Json.Value
import RetroMedia.Lynx.Archive
import RetroMedia.Main
import RetroMedia.Progress
import RetroMedia.Proofs.Broker.Exchange
import RetroMedia.Proofs.Broker.Lending
import RetroMedia.Proofs.Broker.OneImage
import RetroMedia.Proofs.Cartridge.Dump
import RetroMedia.Proofs.Checked.Archive
import RetroMedia.Proofs.Checked.Basic
import RetroMedia.Proofs.Checked.Bytes
import RetroMedia.Proofs.Checked.Chain
import RetroMedia.Proofs.Checked.ChainReader
import RetroMedia.Proofs.Checked.Directory
import RetroMedia.Proofs.Checked.Groups
import RetroMedia.Proofs.Checked.Handler
import RetroMedia.Proofs.Checked.HardDisk
import RetroMedia.Proofs.Checked.Readers
import RetroMedia.Proofs.Checked.Records
import RetroMedia.Proofs.Checked.Sectors
import RetroMedia.Proofs.Checked.Track
import RetroMedia.Proofs.Checked.TrackImage
import RetroMedia.Proofs.Checked.Volume
import RetroMedia.Proofs.CommandLine.Dump
import RetroMedia.Proofs.Disk.Absorption
import RetroMedia.Proofs.Disk.Allowance
import RetroMedia.Proofs.Disk.ChainOutlook
import RetroMedia.Proofs.Disk.ChainWalk
import RetroMedia.Proofs.Disk.Damage
import RetroMedia.Proofs.Disk.Itinerary
import RetroMedia.Proofs.Disk.Journal
import RetroMedia.Proofs.Disk.Parallel
import RetroMedia.Proofs.Disk.Readout
import RetroMedia.Proofs.Disk.SectorImage
import RetroMedia.Proofs.Disk.Sources
import RetroMedia.Proofs.Disk.StoredChain
import RetroMedia.Proofs.Disk.Survey
import RetroMedia.Proofs.Disk.Tiling
import RetroMedia.Proofs.Disk.TrackContents
import RetroMedia.Proofs.Disk.TrackWriter
import RetroMedia.Proofs.Disk.Truncation
import RetroMedia.Proofs.Disk.Undisturbed
import RetroMedia.Proofs.Gcr.Code
import RetroMedia.Proofs.Gcr.DamagedHeader
import RetroMedia.Proofs.Gcr.DamagedTrack
import RetroMedia.Proofs.Gcr.Inverse
import RetroMedia.Proofs.Gcr.Layout
import RetroMedia.Proofs.Gcr.Marks
import RetroMedia.Proofs.Gcr.Rotation
import RetroMedia.Proofs.Gcr.RoundTrip
import RetroMedia.Proofs.Gcr.Runs
import RetroMedia.Proofs.Gcr.Search
import RetroMedia.Proofs.Gcr.Sync
import RetroMedia.Proofs.HardDisk.Addressing
import RetroMedia.Proofs.HardDisk.Calendar
import RetroMedia.Proofs.HardDisk.Course
import RetroMedia.Proofs.HardDisk.Directory
import RetroMedia.Proofs.HardDisk.Trail
import RetroMedia.Proofs.Host.Path
import RetroMedia.Proofs.Host.Tree
import RetroMedia.Proofs.Image.Alongside
import RetroMedia.Proofs.Image.Arrays
import RetroMedia.Proofs.Image.Cancellation
import RetroMedia.Proofs.Image.Company
import RetroMedia.Proofs.Image.Conduct
import RetroMedia.Proofs.Image.Damage
import RetroMedia.Proofs.Image.Delimited
import RetroMedia.Proofs.Image.InStep
import RetroMedia.Proofs.Image.Documents
import RetroMedia.Proofs.Image.Entries
import RetroMedia.Proofs.Image.Enumeration
import RetroMedia.Proofs.Image.Listing
import RetroMedia.Proofs.Image.Mismatch
import RetroMedia.Proofs.Image.Names
import RetroMedia.Proofs.Image.Numbering
import RetroMedia.Proofs.Image.Outlook
import RetroMedia.Proofs.Image.Position
import RetroMedia.Proofs.Image.Probing
import RetroMedia.Proofs.Image.Records
import RetroMedia.Proofs.Image.Refinement
import RetroMedia.Proofs.Image.Request
import RetroMedia.Proofs.Image.SameDisk
import RetroMedia.Proofs.Image.Seeking
import RetroMedia.Proofs.Image.Sizes
import RetroMedia.Proofs.Image.Truncation
import RetroMedia.Proofs.Json.Canonical
import RetroMedia.Proofs.Json.Number
import RetroMedia.Proofs.Json.Paths
import RetroMedia.Proofs.Json.RoundTrip
import RetroMedia.Proofs.Json.Scanner
import RetroMedia.Proofs.Lynx.Layout
import RetroMedia.Proofs.Lynx.Lines
import RetroMedia.Proofs.Lynx.Offsets
import RetroMedia.Proofs.Lynx.RoundTrip
import RetroMedia.Proofs.Progress.Agreement
import RetroMedia.Proofs.Progress.Counting
import RetroMedia.Proofs.Progress.Interruption
import RetroMedia.Proofs.Progress.Lockstep
import RetroMedia.Proofs.Progress.Tally
import RetroMedia.Proofs.Progress.Yield
import RetroMedia.Proofs.Qr.Rendering
import RetroMedia.Proofs.Stream.Congruence
import RetroMedia.Proofs.Stream.Delivery
import RetroMedia.Proofs.Stream.Disturbed
import RetroMedia.Proofs.Stream.Outlook
import RetroMedia.Proofs.Stream.Readers
import RetroMedia.Proofs.Stream.Steady
import RetroMedia.Proofs.Tape.Layout
import RetroMedia.Proofs.Tape.Records
import RetroMedia.Proofs.Text.Decimal
import RetroMedia.Proofs.Text.HexDump
import RetroMedia.Proofs.Text.Padding
import RetroMedia.Proofs.Text.Utf8
import RetroMedia.Proofs.Text.Wildcard
import RetroMedia.Proofs.Vfs.Abreast
import RetroMedia.Proofs.Vfs.Books
import RetroMedia.Proofs.Vfs.Composition
import RetroMedia.Proofs.Vfs.Directories
import RetroMedia.Proofs.Vfs.Documents
import RetroMedia.Proofs.Vfs.Incomplete
import RetroMedia.Proofs.Vfs.Naming
import RetroMedia.Proofs.Vfs.Numbering
import RetroMedia.Proofs.Vfs.Plain
import RetroMedia.Proofs.Vfs.Requests
import RetroMedia.Proofs.Vfs.Sharing
import RetroMedia.Qr.Codewords
import RetroMedia.Qr.Layout
import RetroMedia.Qr.Mask
import RetroMedia.Qr.Matrix
import RetroMedia.Qr.Quadrants
import RetroMedia.Qr.ReedSolomon
import RetroMedia.Qr.Segment
import RetroMedia.Qr.Symbol
import RetroMedia.Qr.Version
import RetroMedia.Stream.Container
import RetroMedia.Stream.Cursor
import RetroMedia.Stream.Reader
import RetroMedia.Stream.Source
import RetroMedia.Tape
import RetroMedia.Text.Blank
import RetroMedia.Text.CodeRanges
import RetroMedia.Text.HexDump
import RetroMedia.Text.Petscii
import RetroMedia.Text.Quoted
import RetroMedia.Text.Utf8
import RetroMedia.Text.Wildcard
import RetroMedia.Timestamp
import RetroMedia.Toml.Document
import RetroMedia.Toml.Number
import RetroMedia.Toml.Scan
import RetroMedia.Toml.Value
import RetroMedia.Vfs.Desk
import RetroMedia.Vfs.File
import RetroMedia.Vfs.FileSystem
import RetroMedia.Vfs.ImageStore
import RetroMedia.Vfs.Registry
import RetroMedia.Vfs.Resolve
