import SmaliSieve.Text.Blank
import SmaliSieve.Text.Lines
import SmaliSieve.Text.Search
import SmaliSieve.Text.Slice
import SmaliSieve.Text.Word
import SmaliSieve.Path.Basic
import SmaliSieve.Path.Name
import SmaliSieve.Path.Order
import SmaliSieve.Path.Relative
import SmaliSieve.Fault.Os
import SmaliSieve.Fault.Basic
import SmaliSieve.Log.Event
import SmaliSieve.Log.Logged
import SmaliSieve.Smali.Directive
import SmaliSieve.Smali.Record
import SmaliSieve.Smali.Aggregate
import SmaliSieve.Smali.Block
import SmaliSieve.Smali.Method
import SmaliSieve.Namespace.Matching
import SmaliSieve.Namespace.PrefixList
import SmaliSieve.Namespace.Filter
import SmaliSieve.Xml.Fault
import SmaliSieve.Xml.Prolog
import SmaliSieve.Xml.Attribute
import SmaliSieve.Xml.Reference
import SmaliSieve.Manifest.Package
import SmaliSieve.Tree.Basic
import SmaliSieve.Tree.Place
import SmaliSieve.Tree.Reading
import SmaliSieve.Tree.Change
import SmaliSieve.Tree.Listing
import SmaliSieve.Tree.Difference
import SmaliSieve.Disassembly.Roots
import SmaliSieve.Disassembly.Collect
import SmaliSieve.Disassembly.Locate
import SmaliSieve.Namespace.ListFile
import SmaliSieve.Manifest.Reading
import SmaliSieve.Tool.Run
import SmaliSieve.Script.Word
import SmaliSieve.Script.Token
import SmaliSieve.Script.Command
import SmaliSieve.Script.Print
import SmaliSieve.Script.Shell
import SmaliSieve.Tool.Launch
import SmaliSieve.Toml.Value
import SmaliSieve.Toml.Lexeme
import SmaliSieve.Toml.Quoted
import SmaliSieve.Toml.Scalar
import SmaliSieve.Toml.Node
import SmaliSieve.Toml.Reader
import SmaliSieve.Toml.Document
import SmaliSieve.Yaml.Cursor
import SmaliSieve.Yaml.Token
import SmaliSieve.Yaml.Scalar
import SmaliSieve.Yaml.Tag
import SmaliSieve.Yaml.Tokens
import SmaliSieve.Yaml.Event
import SmaliSieve.Yaml.Document
import SmaliSieve.Yaml.Anchor
import SmaliSieve.Settings.Basic
import SmaliSieve.Settings.FromToml
import SmaliSieve.Settings.FromYaml
import SmaliSieve.Settings.Loading
import SmaliSieve.Tool.Decompile
import SmaliSieve.App.Basic
import SmaliSieve.App.Operation
import SmaliSieve.Report.Style
import SmaliSieve.Report.Bar
import SmaliSieve.Report.Summary
import SmaliSieve.Report.Listing
import SmaliSieve.Report.Json
import SmaliSieve.Report.Document
import SmaliSieve.Report.Output
import SmaliSieve.Cli.Parameter
import SmaliSieve.Cli.Arguments
import SmaliSieve.Cli.Help
import SmaliSieve.Cli.Completion
import SmaliSieve.Cli.Session
import SmaliSieve.Cli.Run
import SmaliSieve.Cli.Wording
import SmaliSieve.Main
import SmaliSieve.Proofs.Text.Cutting
import SmaliSieve.Proofs.Path.Components
import SmaliSieve.Proofs.Path.FileName
import SmaliSieve.Proofs.Path.Spelling
import SmaliSieve.Proofs.Xml.Written
import SmaliSieve.Proofs.Tree.Reordering
import SmaliSieve.Proofs.Disassembly.Files
import SmaliSieve.Proofs.Order.Stable
import SmaliSieve.Proofs.Smali.Grouping
import SmaliSieve.Proofs.Smali.Groups
import SmaliSieve.Proofs.Smali.Naming
import SmaliSieve.Proofs.Smali.Arrival
import SmaliSieve.Proofs.Smali.LineScan
import SmaliSieve.Proofs.Smali.Extraction
import SmaliSieve.Proofs.Smali.Signature
import SmaliSieve.Proofs.Smali.Sharing
import SmaliSieve.Proofs.Smali.Conservation
import SmaliSieve.Proofs.Smali.Segmentation
import SmaliSieve.Proofs.Smali.Joint
import SmaliSieve.Proofs.Smali.Rescan
import SmaliSieve.Proofs.Smali.ClassList
import SmaliSieve.Proofs.Text.Pattern
import SmaliSieve.Proofs.Smali.Directive
import SmaliSieve.Proofs.Smali.Terminated
import SmaliSieve.Proofs.Smali.Reaggregation
import SmaliSieve.Proofs.Namespace.Survival
import SmaliSieve.Proofs.Namespace.Report
import SmaliSieve.Proofs.Namespace.Containment
import SmaliSieve.Proofs.Namespace.Redundancy
import SmaliSieve.Proofs.Namespace.Layout
import SmaliSieve.Proofs.Tool.Outcome
import SmaliSieve.Proofs.App.Effect
import SmaliSieve.Proofs.App.History
import SmaliSieve.Proofs.App.Lists
import SmaliSieve.Proofs.App.Enumeration
import SmaliSieve.Proofs.App.Filtering
import SmaliSieve.Proofs.App.InPlace
import SmaliSieve.Proofs.Disassembly.Roots
import SmaliSieve.Proofs.Disassembly.Coverage
import SmaliSieve.Proofs.Disassembly.ClassPath
import SmaliSieve.Proofs.Disassembly.Confinement
import SmaliSieve.Proofs.Disassembly.Located
import SmaliSieve.Proofs.Tree.Finding
import SmaliSieve.Proofs.Tree.Frame
import SmaliSieve.Proofs.Tree.Writing
import SmaliSieve.Proofs.Tool.OutputFolder
import SmaliSieve.Proofs.App.Sources
import SmaliSieve.Proofs.Cli.Yielding
import SmaliSieve.Proofs.Cli.Stages
import SmaliSieve.Proofs.Cli.Output
import SmaliSieve.Proofs.Cli.Delivery
import SmaliSieve.Proofs.Cli.Unpacking
import SmaliSieve.Proofs.Cli.Removal
import SmaliSieve.Proofs.Tree.Replacing
import SmaliSieve.Proofs.Manifest.Independence
import SmaliSieve.Proofs.Cli.Package
import SmaliSieve.Proofs.Manifest.RoundTrip
import SmaliSieve.Proofs.Json.Decoding
import SmaliSieve.Proofs.Json.RoundTrip
import SmaliSieve.Proofs.Report.Reading
