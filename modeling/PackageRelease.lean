import PackageRelease.Archive.Gzip
import PackageRelease.Archive.Tar
import PackageRelease.CommandLine.Arguments
import PackageRelease.CommandLine.Execution
import PackageRelease.CommandLine.Option
import PackageRelease.CommandLine.Parser
import PackageRelease.CommandLine.Session
import PackageRelease.Digest.Block
import PackageRelease.Digest.Crc32
import PackageRelease.Digest.Sha1
import PackageRelease.Digest.Sha512
import PackageRelease.Encoding.Base64
import PackageRelease.Encoding.Hex
import PackageRelease.FileSystem.Basic
import PackageRelease.FileSystem.Operations
import PackageRelease.FileSystem.OsError
import PackageRelease.FileSystem.Resolve
import PackageRelease.Glob.Pattern
import PackageRelease.Glob.Search
import PackageRelease.Json.Basic
import PackageRelease.Json.Error
import PackageRelease.Json.Number
import PackageRelease.Json.Printer
import PackageRelease.Json.Reader
import PackageRelease.Json.Token
import PackageRelease.Main
import PackageRelease.Manifest.Basic
import PackageRelease.Manifest.Edit
import PackageRelease.Manifest.Store
import PackageRelease.Number.Binary64
import PackageRelease.Number.Layout
import PackageRelease.Number.Seconds
import PackageRelease.Number.Shortest
import PackageRelease.Number.Word
import PackageRelease.Package.Selection
import PackageRelease.Package.Tarball
import PackageRelease.Path
import PackageRelease.Proofs.Release.Perform
import PackageRelease.Proofs.Release.PlainFailure
import PackageRelease.Registry.Client
import PackageRelease.Registry.Document
import PackageRelease.Registry.Exchange
import PackageRelease.Registry.Status
import PackageRelease.Registry.Target
import PackageRelease.Registry.Token
import PackageRelease.Registry.Verdict
import PackageRelease.Release.Backoff
import PackageRelease.Release.Failure
import PackageRelease.Release.Run
import PackageRelease.Release.Stage
import PackageRelease.Release.World
import PackageRelease.Settings.Basic
import PackageRelease.Settings.File
import PackageRelease.Terminal.Notice
import PackageRelease.Terminal.Style
import PackageRelease.Text.Basic
import PackageRelease.Text.Quoted
import PackageRelease.Text.Unprintable
import PackageRelease.Text.Utf8
import PackageRelease.Toml.Basic
import PackageRelease.Toml.Decode
import PackageRelease.Toml.Fault
import PackageRelease.Toml.Reader
import PackageRelease.Toml.Scalar
import PackageRelease.Toml.Table
import PackageRelease.Toml.Token
import PackageRelease.Url.Address
import PackageRelease.Url.Basic
import PackageRelease.Url.Domain
import PackageRelease.Url.DomainCharacter
import PackageRelease.Url.Fault
import PackageRelease.Url.Parser
import PackageRelease.Url.Percent
import PackageRelease.Url.Punycode
import PackageRelease.Version
import PackageRelease.Proofs.Release.Lifecycle
import PackageRelease.Proofs.Release.Requests
import PackageRelease.Proofs.Json.Reading
import PackageRelease.Proofs.Json.Numeral
import PackageRelease.Proofs.Json.Printing
import PackageRelease.Proofs.Manifest.RoundTrip
import PackageRelease.Proofs.FileSystem.Resolution
import PackageRelease.Proofs.Path.Components
import PackageRelease.Proofs.Path.Order
import PackageRelease.Proofs.FileSystem.Tree
import PackageRelease.Proofs.Package.Selection
import PackageRelease.Proofs.Package.Contents
import PackageRelease.Proofs.FileSystem.Operations
import PackageRelease.Proofs.Release.Files
import PackageRelease.Proofs.FileSystem.Following
import PackageRelease.Proofs.Package.Confinement
import PackageRelease.Proofs.FileSystem.Moving
import PackageRelease.Proofs.Manifest.Storing
import PackageRelease.Proofs.Encoding.Base64
import PackageRelease.Proofs.Json.Fields
import PackageRelease.Proofs.Release.Published
import PackageRelease.Proofs.Manifest.Editing
import PackageRelease.Proofs.Release.Rerun
import PackageRelease.Proofs.Release.Checked
import PackageRelease.Proofs.Text.Octets
import PackageRelease.Proofs.Archive.Records
import PackageRelease.Proofs.Archive.Names
import PackageRelease.Proofs.Package.ReadBack
import PackageRelease.Proofs.Url.Extension
import PackageRelease.Proofs.Registry.Sending
import PackageRelease.Proofs.Release.Rehearsal
import PackageRelease.Proofs.Path.Extending
import PackageRelease.Proofs.Package.Twins
import PackageRelease.Proofs.Glob.Reading
import PackageRelease.Proofs.Glob.Searching
import PackageRelease.Proofs.Glob.Descending
import PackageRelease.Proofs.Glob.Mirroring
import PackageRelease.Proofs.Glob.Dotted
import PackageRelease.Proofs.Package.Spelling
import PackageRelease.Proofs.Release.SideBySide
import PackageRelease.Proofs.Registry.Secrecy
import PackageRelease.Proofs.Release.Secrecy
import PackageRelease.Proofs.Release.Decision
import PackageRelease.Proofs.CommandLine.ExitCode
import PackageRelease.Proofs.CommandLine.Parsing
import PackageRelease.Proofs.CommandLine.Layers
import PackageRelease.Proofs.CommandLine.Secrecy
import PackageRelease.Proofs.Terminal.Lines
import PackageRelease.Proofs.CommandLine.Verbosity
import PackageRelease.Proofs.Manifest.Changes
import PackageRelease.Proofs.Release.Backoff
import PackageRelease.Proofs.FileSystem.Places
import PackageRelease.Proofs.Manifest.Atomicity
import PackageRelease.Proofs.FileSystem.Lookups
import PackageRelease.Proofs.Manifest.Effect
import PackageRelease.Proofs.Text.Searching
import PackageRelease.Proofs.Registry.Verdict
import PackageRelease.Proofs.Registry.Uploading
import PackageRelease.Proofs.Url.Extended
import PackageRelease.Proofs.Registry.Addressing
import PackageRelease.Proofs.Json.Grammar
import PackageRelease.Proofs.Manifest.Keeping
import PackageRelease.Proofs.CommandLine.PackedFile
import PackageRelease.Proofs.CommandLine.SetFields
import PackageRelease.Proofs.FileSystem.Reordering
import PackageRelease.Proofs.Package.Reordering
import PackageRelease.Proofs.Number.Rounding
import PackageRelease.Proofs.Json.Accepting
import PackageRelease.Proofs.Json.Magnitude
import PackageRelease.Proofs.Json.Finite
import PackageRelease.Proofs.Json.Rereading
import PackageRelease.Proofs.Manifest.Reloading
import PackageRelease.Proofs.Release.Guard
import PackageRelease.Proofs.Release.Likeness
import PackageRelease.Proofs.Release.Arithmetic
import PackageRelease.Proofs.Release.Tag
import PackageRelease.Proofs.CommandLine.Status
import PackageRelease.Proofs.CommandLine.Panic
