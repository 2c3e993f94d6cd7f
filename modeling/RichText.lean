import RichText.Bench.Runner
import RichText.Dump.Program
import RichText.Main
import RichText.TextModel.Plain
import RichText.Proofs.Cache
import RichText.Proofs.Matching
import RichText.Proofs.CascadeOrder
import RichText.Proofs.Inheritance
import RichText.Proofs.Decoding
import RichText.Proofs.Scanning
import RichText.Proofs.Derivation
import RichText.Proofs.ChunkedReading
import RichText.Proofs.Displacement
import RichText.Proofs.Composition
import RichText.Proofs.WellFormed
import RichText.Proofs.Spelling
import RichText.Proofs.ReadingBack
import RichText.Proofs.SortedRules
import RichText.Proofs.Forest
import RichText.Proofs.Steps
import RichText.Proofs.Balance
import RichText.Proofs.WholeText
import RichText.Proofs.Regions
import RichText.Proofs.Tags
import RichText.Proofs.WrittenTags
import RichText.Proofs.Additions
import RichText.Proofs.StyleMirror
import RichText.Proofs.ElementText
import RichText.Proofs.TextOrder
import RichText.Proofs.Rendering
import RichText.Proofs.IdIndex
import RichText.Proofs.IdCarriers
import RichText.Proofs.Refusals
import RichText.Proofs.DuplicateIds
import RichText.Proofs.Traversal
import RichText.Proofs.InlineBlocks
import RichText.Proofs.HoverRules
import RichText.Proofs.BuiltInRule
import RichText.Proofs.ModelRuns
import RichText.Proofs.TreeNumbers
import RichText.Proofs.TokenForms
import RichText.Proofs.TypedValues
import RichText.Proofs.TableLayout
import RichText.Proofs.Calls
import RichText.Proofs.DerivedNodes
import RichText.Proofs.Excerpts
import RichText.Proofs.ColumnSpans
import RichText.Proofs.InlineRecovery
import RichText.Proofs.StyleMaps
import RichText.Proofs.TokenComposition
import RichText.Proofs.WrittenSelectors
import RichText.Proofs.Specificity
import RichText.Proofs.ListLabels
import RichText.Proofs.FontSources
import RichText.Proofs.PlainValues
import RichText.Proofs.GeneratedSheet
import RichText.Proofs.Acceptance
import RichText.Proofs.WrittenForests
import RichText.Proofs.GeneratedDocument
import RichText.Proofs.ColorTexts
import RichText.Proofs.References
import RichText.Proofs.WrittenLists
import RichText.Proofs.TokenPlaces
