import FluentWrappers.Artifact.Container
import FluentWrappers.Artifact.Disassembly
import FluentWrappers.Artifact.Keyword
import FluentWrappers.Artifact.MemberReference
import FluentWrappers.Artifact.Metadata
import FluentWrappers.Artifact.Opcode
import FluentWrappers.Artifact.Primitive
import FluentWrappers.Artifact.Record
import FluentWrappers.Artifact.Signature
import FluentWrappers.Artifact.TypeDefinition
import FluentWrappers.Binary.Reader
import FluentWrappers.Binary.Request
import FluentWrappers.Binary.Wire
import FluentWrappers.Build.Engine
import FluentWrappers.Build.Plan
import FluentWrappers.Build.Request
import FluentWrappers.Checksum
import FluentWrappers.Command.Arguments
import FluentWrappers.Command.Project
import FluentWrappers.Command.Run
import FluentWrappers.Files.Path
import FluentWrappers.Files.Tree
import FluentWrappers.Json.Parse
import FluentWrappers.Json.Record
import FluentWrappers.Json.Value
import FluentWrappers.Listing
import FluentWrappers.Lowering.Artifact
import FluentWrappers.Lowering.Closure
import FluentWrappers.Lowering.Code
import FluentWrappers.Machine.Access
import FluentWrappers.Machine.Error
import FluentWrappers.Machine.Exchange
import FluentWrappers.Machine.Request
import FluentWrappers.Machine.Run
import FluentWrappers.Machine.Value
import FluentWrappers.Main
import FluentWrappers.Options
import FluentWrappers.Proofs.Artifact.Bounds
import FluentWrappers.Proofs.Artifact.Canonical
import FluentWrappers.Proofs.Artifact.Damage
import FluentWrappers.Proofs.Artifact.File
import FluentWrappers.Proofs.Artifact.Rewriting
import FluentWrappers.Proofs.Artifact.RoundTrip
import FluentWrappers.Proofs.Artifact.Signature
import FluentWrappers.Proofs.Artifact.Weight
import FluentWrappers.Proofs.Binary.Accepted
import FluentWrappers.Proofs.Binary.Overflow
import FluentWrappers.Proofs.Binary.Reads
import FluentWrappers.Proofs.Binary.Spans
import FluentWrappers.Proofs.Build.Outcome
import FluentWrappers.Proofs.Build.Saving
import FluentWrappers.Proofs.Checksum
import FluentWrappers.Proofs.Files.Parent
import FluentWrappers.Proofs.Files.Tree
import FluentWrappers.Proofs.FirstOccurrence
import FluentWrappers.Proofs.Json.Record
import FluentWrappers.Proofs.Lowering.Acceptance
import FluentWrappers.Proofs.Lowering.BuiltBodies
import FluentWrappers.Proofs.Lowering.Decoding
import FluentWrappers.Proofs.Lowering.Definitions
import FluentWrappers.Proofs.Lowering.Execution
import FluentWrappers.Proofs.Lowering.FluentSetters
import FluentWrappers.Proofs.Lowering.Interning
import FluentWrappers.Proofs.Lowering.LateBinding
import FluentWrappers.Proofs.Lowering.MemberFields
import FluentWrappers.Proofs.Lowering.Products
import FluentWrappers.Proofs.Lowering.Refusal
import FluentWrappers.Proofs.Lowering.RuntimeTable
import FluentWrappers.Proofs.Lowering.ServedRequests
import FluentWrappers.Proofs.Lowering.StackBound
import FluentWrappers.Proofs.Lowering.Standalone
import FluentWrappers.Proofs.Lowering.Wrappers
import FluentWrappers.Proofs.Machine.Activation
import FluentWrappers.Proofs.Machine.Allocation
import FluentWrappers.Proofs.Machine.Decoders
import FluentWrappers.Proofs.Machine.Dispatch
import FluentWrappers.Proofs.Machine.Lockstep
import FluentWrappers.Proofs.Machine.Nesting
import FluentWrappers.Proofs.Options
import FluentWrappers.Proofs.Source.Catalog
import FluentWrappers.Proofs.Source.Flattening
import FluentWrappers.Proofs.Source.Inheritance
import FluentWrappers.Proofs.Source.Name
import FluentWrappers.Proofs.Source.Record
import FluentWrappers.Proofs.Source.References
import FluentWrappers.Proofs.Synthesis.Affixes
import FluentWrappers.Proofs.Synthesis.Answers
import FluentWrappers.Proofs.Synthesis.Attempts
import FluentWrappers.Proofs.Synthesis.Body
import FluentWrappers.Proofs.Synthesis.Cache
import FluentWrappers.Proofs.Synthesis.Cleanup
import FluentWrappers.Proofs.Synthesis.Closure
import FluentWrappers.Proofs.Synthesis.CompletionOrder
import FluentWrappers.Proofs.Synthesis.Compositional
import FluentWrappers.Proofs.Synthesis.ContextFree
import FluentWrappers.Proofs.Synthesis.FailFast
import FluentWrappers.Proofs.Synthesis.First
import FluentWrappers.Proofs.Synthesis.Fulfilled
import FluentWrappers.Proofs.Synthesis.History
import FluentWrappers.Proofs.Synthesis.Independence
import FluentWrappers.Proofs.Synthesis.Interleaving
import FluentWrappers.Proofs.Synthesis.Keys
import FluentWrappers.Proofs.Synthesis.Lawful
import FluentWrappers.Proofs.Synthesis.Leftovers
import FluentWrappers.Proofs.Synthesis.Leniency
import FluentWrappers.Proofs.Synthesis.Memoize
import FluentWrappers.Proofs.Synthesis.Mentions
import FluentWrappers.Proofs.Synthesis.MethodTable
import FluentWrappers.Proofs.Synthesis.Naming
import FluentWrappers.Proofs.Synthesis.Orderly
import FluentWrappers.Proofs.Synthesis.Parts
import FluentWrappers.Proofs.Synthesis.Product
import FluentWrappers.Proofs.Synthesis.Reachability
import FluentWrappers.Proofs.Synthesis.Requests
import FluentWrappers.Proofs.Synthesis.Resolution
import FluentWrappers.Proofs.Synthesis.Shape
import FluentWrappers.Proofs.Synthesis.Success
import FluentWrappers.Proofs.Synthesis.Table
import FluentWrappers.Proofs.Synthesis.Termination
import FluentWrappers.Proofs.Synthesis.WriteOnce
import FluentWrappers.Proofs.Text.Numeral
import FluentWrappers.Proofs.Text.WordChar
import FluentWrappers.Proofs.Verification.Listing
import FluentWrappers.Proofs.Verification.Printing
import FluentWrappers.Proofs.Verification.Refusal
import FluentWrappers.Report
import FluentWrappers.Source.Catalog
import FluentWrappers.Source.Descriptor
import FluentWrappers.Source.Name
import FluentWrappers.Source.Record
import FluentWrappers.Source.TypeRef
import FluentWrappers.Synthesis.Body
import FluentWrappers.Synthesis.Cache
import FluentWrappers.Synthesis.Callers
import FluentWrappers.Synthesis.Error
import FluentWrappers.Synthesis.Interleaving
import FluentWrappers.Synthesis.Record
import FluentWrappers.Synthesis.Session
import FluentWrappers.Synthesis.Shape
import FluentWrappers.Synthesis.Synthesizer
import FluentWrappers.Synthesis.Type
import FluentWrappers.Text.Basic
import FluentWrappers.Text.Unicode
import FluentWrappers.Toml.Document
import FluentWrappers.Toml.Number
import FluentWrappers.Toml.Quoted
import FluentWrappers.Toml.Table
import FluentWrappers.Verification.Body
import FluentWrappers.Verification.Types
