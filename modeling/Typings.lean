import Typings.Files.Tree
import Typings.Main
import Typings.Text.Discriminator
import Typings.Text.Documentation
import Typings.Text.Pascal
import Typings.Text.Quotation
import Typings.Proofs.Fit
import Typings.Proofs.Layout
import Typings.Proofs.MergedMembers
import Typings.Proofs.ShapeConflict
import Typings.Proofs.Agreement
import Typings.Proofs.SchemaJson
import Typings.Proofs.EmittedTree
import Typings.Proofs.ConstantPaths
import Typings.Proofs.Directories
import Typings.Proofs.Quoting
import Typings.Proofs.Writing
import Typings.Proofs.FilledGaps
import Typings.Proofs.AskedOverrides
import Typings.Proofs.EntityAgreement
import Typings.Proofs.NormalType
import Typings.Proofs.OrderIndependence
import Typings.Proofs.TypeGrammar
import Typings.Proofs.TypeReading
import Typings.Proofs.UnaskedOverride
import Typings.Proofs.Outline
import Typings.Proofs.OverrideDocumentation
import Typings.Proofs.OwnReferences
import Typings.Proofs.DeclaredNames
import Typings.Proofs.Decoding
import Typings.Proofs.DeclarationJson
import Typings.Proofs.Restoring
import Typings.Proofs.IndexOperator
import Typings.Proofs.Commands
import Typings.Proofs.Discrimination
import Typings.Proofs.MappedTypes
import Typings.Proofs.NamedFields
import Typings.Proofs.OverriddenTypes
import Typings.Proofs.References
import Typings.Proofs.LinkRewriting
import Typings.Proofs.PositionalParameters
