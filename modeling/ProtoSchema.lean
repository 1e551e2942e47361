import ProtoSchema.CommandLine.Arguments
import ProtoSchema.CommandLine.Path
import ProtoSchema.CommandLine.Session
import ProtoSchema.CommandLine.Workspace
import ProtoSchema.Decimal.Binary64
import ProtoSchema.Decimal.Layout
import ProtoSchema.Decimal.Number
import ProtoSchema.Decimal.Shortest
import ProtoSchema.Dependency.Cycle
import ProtoSchema.Dependency.Graph
import ProtoSchema.Dependency.Order
import ProtoSchema.Descriptor
import ProtoSchema.Error
import ProtoSchema.Generator
import ProtoSchema.Main
import ProtoSchema.Model.Basic
import ProtoSchema.Model.Build
import ProtoSchema.Model.Outline
import ProtoSchema.Model.Record
import ProtoSchema.Model.Reference
import ProtoSchema.Model.Shape
import ProtoSchema.Module.Basic
import ProtoSchema.Module.Expression
import ProtoSchema.Module.Render
import ProtoSchema.Module.Typing
import ProtoSchema.ModulePath
import ProtoSchema.Name
import ProtoSchema.Options
import ProtoSchema.Plugin
import ProtoSchema.Report
import ProtoSchema.Rules.Chain
import ProtoSchema.Rules.Check
import ProtoSchema.Rules.Payload
import ProtoSchema.Scalar
import ProtoSchema.SchemaType
import ProtoSchema.Text.Affix
import ProtoSchema.Text.Blank
import ProtoSchema.Text.Digit
import ProtoSchema.Text.Escape
import ProtoSchema.Text.Printable
import ProtoSchema.Text.Quoted
import ProtoSchema.Text.Raw
import ProtoSchema.Text.Split
import ProtoSchema.Text.UpperCase
import ProtoSchema.Wire.Descriptor
import ProtoSchema.Wire.Layout
import ProtoSchema.Wire.Number
import ProtoSchema.Wire.Record
import ProtoSchema.Wire.Response
import ProtoSchema.Wire.Rules
import ProtoSchema.Wire.Varint
import ProtoSchema.Proofs.Dependency.Path
import ProtoSchema.Proofs.Dependency.Cycle
import ProtoSchema.Proofs.Dependency.Order
import ProtoSchema.Proofs.Model.Coherence
import ProtoSchema.Proofs.Module.Building
import ProtoSchema.Proofs.Module.Definition
import ProtoSchema.Proofs.ModulePath
import ProtoSchema.Proofs.Module.Decoding
import ProtoSchema.Proofs.Module.Link
import ProtoSchema.Proofs.Module.Imports
import ProtoSchema.Proofs.Text.Literal
import ProtoSchema.Proofs.Rules.Masking
import ProtoSchema.Proofs.Rules.Confinement
import ProtoSchema.Proofs.Module.Confinement
import ProtoSchema.Proofs.Module.Failure
import ProtoSchema.Proofs.Model.Settling
import ProtoSchema.Proofs.Model.Catalog
import ProtoSchema.Proofs.Model.Independence
import ProtoSchema.Proofs.Module.Independence
import ProtoSchema.Proofs.CommandLine.Agreement
import ProtoSchema.Proofs.Dependency.Repetition
import ProtoSchema.Proofs.Generator.Coverage
import ProtoSchema.Proofs.Model.Rules
import ProtoSchema.Proofs.Module.Composition
import ProtoSchema.Proofs.Module.Structure
import ProtoSchema.Proofs.Module.Export
import ProtoSchema.Proofs.Module.Binding
import ProtoSchema.Proofs.Generator.Bindings
import ProtoSchema.Proofs.Module.Marking
import ProtoSchema.Proofs.Module.StaticType
import ProtoSchema.Proofs.Text.Separation
import ProtoSchema.Proofs.Rules.Lossless
import ProtoSchema.Proofs.Rules.Items
import ProtoSchema.Proofs.Model.Registration
import ProtoSchema.Proofs.Model.Resolution
import ProtoSchema.Proofs.Model.Scope
import ProtoSchema.Proofs.Module.PropertyName
import ProtoSchema.Proofs.CommandLine.SchemaName
import ProtoSchema.Proofs.Wire.ReadBack
import ProtoSchema.Proofs.Module.EnumTable
import ProtoSchema.Proofs.Decimal.Exact
import ProtoSchema.Proofs.Text.LiteralValue
import ProtoSchema.Proofs.Name.Boundary
