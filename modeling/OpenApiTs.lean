import OpenApiTs.Config
import OpenApiTs.Document.Load
import OpenApiTs.Schema.Encode
import OpenApiTs.TypeUse
import OpenApiTs.Registry
import OpenApiTs.Emission
import OpenApiTs.Reference.Resolver
import OpenApiTs.Generation.Reference
import OpenApiTs.Main
import OpenApiTs.Proofs.Calls
import OpenApiTs.Proofs.Cycles
import OpenApiTs.Proofs.Precedence
import OpenApiTs.Proofs.Chains
import OpenApiTs.Proofs.Termination
import OpenApiTs.Proofs.Readers
import OpenApiTs.Proofs.Extends
import OpenApiTs.Proofs.Links
import OpenApiTs.Proofs.Dependencies
import OpenApiTs.Proofs.Visits
import OpenApiTs.Proofs.Exclusion
import OpenApiTs.Proofs.Omission
import OpenApiTs.Proofs.Appending
import OpenApiTs.Proofs.Histories
import OpenApiTs.Proofs.NormalForm
import OpenApiTs.Proofs.Commands
import OpenApiTs.Proofs.Locations
import OpenApiTs.Proofs.Encodings
import OpenApiTs.Proofs.Annotations
import OpenApiTs.Proofs.Brackets
import OpenApiTs.Proofs.Merging
import OpenApiTs.Proofs.Aliases
import OpenApiTs.Proofs.Nullability
import OpenApiTs.Proofs.Keys
import OpenApiTs.Proofs.Parameters
import OpenApiTs.Proofs.Inheritance
import OpenApiTs.Proofs.Identifiers
import OpenApiTs.Proofs.Identity
import OpenApiTs.Proofs.References
import OpenApiTs.Proofs.Interfaces
import OpenApiTs.Proofs.Branches
import OpenApiTs.Proofs.Enumerations
import OpenApiTs.Proofs.Comments
import OpenApiTs.Proofs.Children
import OpenApiTs.Proofs.WrittenKeys
import OpenApiTs.Proofs.TypeLists
import OpenApiTs.Proofs.Recomposition
import OpenApiTs.Proofs.Captures
