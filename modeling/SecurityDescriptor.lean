import SecurityDescriptor.CommandLine.Session
import SecurityDescriptor.Dump
import SecurityDescriptor.Flags
import SecurityDescriptor.Lookup
import SecurityDescriptor.Main
import SecurityDescriptor.Proofs.AlikeContents
import SecurityDescriptor.Proofs.Base64Lines
import SecurityDescriptor.Proofs.BoundedReads
import SecurityDescriptor.Proofs.DeclaredSizes
import SecurityDescriptor.Proofs.DescriptorErrors
import SecurityDescriptor.Proofs.DescriptorLayout
import SecurityDescriptor.Proofs.DumpText
import SecurityDescriptor.Proofs.Encodings
import SecurityDescriptor.Proofs.EntryBounds
import SecurityDescriptor.Proofs.EntryRuns
import SecurityDescriptor.Proofs.Equality
import SecurityDescriptor.Proofs.ErrorClasses
import SecurityDescriptor.Proofs.Extension
import SecurityDescriptor.Proofs.FormatDetection
import SecurityDescriptor.Proofs.GuidReading
import SecurityDescriptor.Proofs.HexLines
import SecurityDescriptor.Proofs.IdentifierReading
import SecurityDescriptor.Proofs.IdentifierText
import SecurityDescriptor.Proofs.InputFile
import SecurityDescriptor.Proofs.Isolation
import SecurityDescriptor.Proofs.LeadingOptions
import SecurityDescriptor.Proofs.LineEnds
import SecurityDescriptor.Proofs.Relocation
import SecurityDescriptor.Proofs.Sessions
import SecurityDescriptor.Proofs.Streams
import SecurityDescriptor.Proofs.Strictness
import SecurityDescriptor.Proofs.Targets
import SecurityDescriptor.Proofs.Truncation
import SecurityDescriptor.Stream
import SecurityDescriptor.CommandLine.Directory
