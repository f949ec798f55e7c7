import BlueprintSchema.Analyzer
import BlueprintSchema.Field.Json
import BlueprintSchema.Json.Reader
import BlueprintSchema.Proofs.Additions
import BlueprintSchema.Proofs.Agreement
import BlueprintSchema.Proofs.Answers
import BlueprintSchema.Proofs.Discovery
import BlueprintSchema.Proofs.Entries
import BlueprintSchema.Proofs.FileTree.Files
import BlueprintSchema.Proofs.Isolation
import BlueprintSchema.Proofs.Locations
import BlueprintSchema.Proofs.Merge
import BlueprintSchema.Proofs.PathOrder
import BlueprintSchema.Proofs.Scripts
import BlueprintSchema.Proofs.Separation
import BlueprintSchema.Proofs.Shadowing
import BlueprintSchema.Proofs.Snapshot
import BlueprintSchema.Proofs.Script.Reading
import BlueprintSchema.Proofs.Script.Shape
import BlueprintSchema.Proofs.Script.Grammar
import BlueprintSchema.Proofs.Registrations
import BlueprintSchema.Proofs.TypeText
import BlueprintSchema.Proofs.Config.Layers
import BlueprintSchema.Proofs.Config.Sources
import BlueprintSchema.Proofs.Config.Fitting
import BlueprintSchema.Proofs.Config.Loading
import BlueprintSchema.Proofs.Config.Variables
import BlueprintSchema.Proofs.Config.Precedence
import BlueprintSchema.Proofs.Config.Outcome
import BlueprintSchema.Proofs.Mention
import BlueprintSchema.Proofs.Script.Running
import BlueprintSchema.Proofs.Script.Lines
import BlueprintSchema.Proofs.Literal.Quoting
import BlueprintSchema.Proofs.Literal.Denotation
import BlueprintSchema.Proofs.Literal.Lines
import BlueprintSchema.Proofs.Rewriting
import BlueprintSchema.Proofs.Spellings
import BlueprintSchema.Proofs.Binary64.Saturation
import BlueprintSchema.Proofs.Cardinality
import BlueprintSchema.Proofs.Fieldtype
import BlueprintSchema.Proofs.Options
import BlueprintSchema.Proofs.Nullability
import BlueprintSchema.Proofs.Backslashes
import BlueprintSchema.Proofs.Field.Json
