import DependencyAudit.Archive.Bits
import DependencyAudit.Archive.CanonicalCode
import DependencyAudit.Archive.Checksum
import DependencyAudit.Archive.Inflate
import DependencyAudit.Archive.Zip
import DependencyAudit.Artifact.Dependency
import DependencyAudit.Artifact.Id
import DependencyAudit.Artifact.Resolved
import DependencyAudit.Assoc
import DependencyAudit.AuditError
import DependencyAudit.Cache.Basic
import DependencyAudit.Cache.Fingerprint
import DependencyAudit.Cache.Stored
import DependencyAudit.ClassFile.Basic
import DependencyAudit.ClassFile.Builder
import DependencyAudit.ClassFile.ConstantPool
import DependencyAudit.ClassFile.Error
import DependencyAudit.ClassFile.Layout
import DependencyAudit.ClassFile.Parser
import DependencyAudit.ClassFile.Reader
import DependencyAudit.ClassIndex
import DependencyAudit.ClassListing
import DependencyAudit.ClassName
import DependencyAudit.Classification
import DependencyAudit.CommandLine.Arguments
import DependencyAudit.CommandLine.Help
import DependencyAudit.CommandLine.Run
import DependencyAudit.CommandLine.Scope
import DependencyAudit.Decimal
import DependencyAudit.Document.Basic
import DependencyAudit.Document.OfJson
import DependencyAudit.Document.OfToml
import DependencyAudit.Document.OfYaml
import DependencyAudit.FileSystem.Basic
import DependencyAudit.FileSystem.Change
import DependencyAudit.FileSystem.View
import DependencyAudit.FileSystem.Walk
import DependencyAudit.Indexing
import DependencyAudit.Json.Basic
import DependencyAudit.Json.Parser
import DependencyAudit.Json.Printer
import DependencyAudit.Json.Token
import DependencyAudit.Main
import DependencyAudit.Manifest.Basic
import DependencyAudit.Manifest.Reader
import DependencyAudit.NameSet
import DependencyAudit.NumberedGraph
import DependencyAudit.Octets
import DependencyAudit.Path
import DependencyAudit.Proofs.Advice
import DependencyAudit.Proofs.Builders
import DependencyAudit.Proofs.CacheHistory
import DependencyAudit.Proofs.Coverage
import DependencyAudit.Proofs.Descriptors
import DependencyAudit.Proofs.Drafts
import DependencyAudit.Proofs.Encodings
import DependencyAudit.Proofs.Entries
import DependencyAudit.Proofs.Findings
import DependencyAudit.Proofs.GarbledTypes
import DependencyAudit.Proofs.Inheritance
import DependencyAudit.Proofs.JsonText
import DependencyAudit.Proofs.LastMember
import DependencyAudit.Proofs.Linked
import DependencyAudit.Proofs.Mentions
import DependencyAudit.Proofs.ModifiedUtf8
import DependencyAudit.Proofs.Outcome
import DependencyAudit.Proofs.Outputs
import DependencyAudit.Proofs.Packaging
import DependencyAudit.Proofs.Provenance
import DependencyAudit.Proofs.Shards
import DependencyAudit.Proofs.Signatures
import DependencyAudit.Proofs.SpelledClasses
import DependencyAudit.Proofs.StoredCaches
import DependencyAudit.Proofs.TextOctets
import DependencyAudit.Proofs.Ways
import DependencyAudit.ReferenceGraph
import DependencyAudit.References.Basic
import DependencyAudit.References.Compiled
import DependencyAudit.References.Report
import DependencyAudit.Report.Basic
import DependencyAudit.Report.Console
import DependencyAudit.Report.Paint
import DependencyAudit.Report.Stored
import DependencyAudit.Settings
import DependencyAudit.SipHash
import DependencyAudit.Text.Alphanumeric
import DependencyAudit.Text.Blank
import DependencyAudit.Text.CodePage437
import DependencyAudit.Text.Line
import DependencyAudit.Text.Split
import DependencyAudit.Text.Utf8
import DependencyAudit.Toml.Lexeme
import DependencyAudit.Toml.Number
import DependencyAudit.Toml.Parser
import DependencyAudit.Toml.Value
import DependencyAudit.TypeText.Descent
import DependencyAudit.TypeText.Descriptor
import DependencyAudit.TypeText.Signature
import DependencyAudit.Yaml.BlockScalar
import DependencyAudit.Yaml.Cursor
import DependencyAudit.Yaml.FlowScalar
import DependencyAudit.Yaml.Lexer
import DependencyAudit.Yaml.Node
import DependencyAudit.Yaml.Parser
import DependencyAudit.Yaml.PlainText
import DependencyAudit.Yaml.Printer
import DependencyAudit.Yaml.Property
import DependencyAudit.Yaml.Token
import DependencyAudit.Proofs.IndexRuns
import DependencyAudit.Proofs.GraphReports
import DependencyAudit.Proofs.PrettyJson
import DependencyAudit.Proofs.StoredReports
import DependencyAudit.Proofs.ClassTypes
import DependencyAudit.Proofs.Closure
import DependencyAudit.Proofs.Truncation
import DependencyAudit.Proofs.CommandRuns
import DependencyAudit.Proofs.ClassPathOrder
import DependencyAudit.Proofs.ErasedSignatures
import DependencyAudit.Proofs.Identities
import DependencyAudit.Proofs.DependencyKeys
import DependencyAudit.Proofs.Suggestions
import DependencyAudit.Proofs.NumberedNodes
import DependencyAudit.Proofs.GraphParts
import DependencyAudit.Proofs.Surface
import DependencyAudit.Proofs.CacheValidity
import DependencyAudit.Proofs.Failures
import DependencyAudit.Proofs.Trees
import DependencyAudit.Proofs.Unpacking
import DependencyAudit.Proofs.DescentBudgets
import DependencyAudit.Proofs.Positions
import DependencyAudit.Proofs.Descents
import DependencyAudit.Proofs.SignatureDescents
import DependencyAudit.Proofs.DescriptorDescents
import DependencyAudit.Proofs.SafeScans
import DependencyAudit.Proofs.CutSignatures
