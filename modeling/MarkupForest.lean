import MarkupForest.Forest.Growth
import MarkupForest.Profile.Summary
import MarkupForest.Registry.Standard
import MarkupForest.Render.Renderer
import MarkupForest.Storage.Reader
import MarkupForest.Storage.Writer
import MarkupForest.Text.Digest
import MarkupForest.Proofs.Nesting
import MarkupForest.Proofs.Numbering
import MarkupForest.Proofs.Careful
import MarkupForest.Proofs.Copying
import MarkupForest.Proofs.Siblings
import MarkupForest.Proofs.Shape
import MarkupForest.Proofs.Editing
import MarkupForest.Proofs.Runs
import MarkupForest.Proofs.InPlace
import MarkupForest.Proofs.KnownTypes
import MarkupForest.Proofs.History
import MarkupForest.Proofs.Seamless
import MarkupForest.Proofs.Reading
import MarkupForest.Proofs.WellFormed
import MarkupForest.Proofs.Traversals
import MarkupForest.Proofs.Contents
import MarkupForest.Proofs.Deletion
import MarkupForest.Proofs.Relocation
import MarkupForest.Proofs.Drafts
import MarkupForest.Proofs.ImportSets
import MarkupForest.Proofs.Printing
import MarkupForest.Proofs.Refusals
import MarkupForest.Proofs.Openings
import MarkupForest.Proofs.Conservation
import MarkupForest.Proofs.Escaping
import MarkupForest.Proofs.TagScan
import MarkupForest.Proofs.TagNesting
import MarkupForest.Proofs.AttributeNames
import MarkupForest.Proofs.ProperNames
import MarkupForest.Proofs.WellNested
import MarkupForest.Proofs.ZeroSigns
import MarkupForest.Proofs.Lookalikes
import MarkupForest.Proofs.Anonymity
import MarkupForest.Proofs.Duplication
import MarkupForest.Proofs.StructureRule
import MarkupForest.Proofs.HiddenNodes
import MarkupForest.Proofs.RenderErrors
import MarkupForest.Proofs.Indentation
import MarkupForest.Proofs.Blocks
import MarkupForest.Proofs.ByteOrder
import MarkupForest.Proofs.ImportLines
import MarkupForest.Proofs.Configuration
import MarkupForest.Proofs.BareForests
import MarkupForest.Proofs.LeadingAttributes
import MarkupForest.Proofs.Styling
import MarkupForest.Proofs.NearestMagnitudes
import MarkupForest.Proofs.ShortestDigits
import MarkupForest.Proofs.StringLiterals
import MarkupForest.Proofs.NumberLiterals
import MarkupForest.Proofs.JsonText
import MarkupForest.Proofs.StoredForms
import MarkupForest.Proofs.ScriptLiterals
import MarkupForest.Proofs.MarkupLiterals
import MarkupForest.Proofs.Entities
import MarkupForest.Proofs.AttributeScan
import MarkupForest.Proofs.LineBreaks
import MarkupForest.Proofs.Termination
import MarkupForest.Proofs.SameNodes
import MarkupForest.Proofs.Insertion
import MarkupForest.Proofs.DeletionOrder
import MarkupForest.Proofs.Restoration
import MarkupForest.Proofs.Descendants
import MarkupForest.Proofs.StyleLists
import MarkupForest.Proofs.HeadingLevels
import MarkupForest.Proofs.StyleOverrides
import MarkupForest.Proofs.DistinctAttributes
import MarkupForest.Proofs.PropertyEdits
import MarkupForest.Proofs.PropertyOrder
import MarkupForest.Proofs.ClassTokens
import MarkupForest.Proofs.FewestDigits
import MarkupForest.Proofs.NumberValues
import MarkupForest.Proofs.PlainNumbers
import MarkupForest.Proofs.TextPlacement
