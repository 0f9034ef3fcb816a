import MapConfig.Table
import MapConfig.Table.Ordered
import MapConfig.NameSet
import MapConfig.Rounding
import MapConfig.Double
import MapConfig.Double.Shortest
import MapConfig.Double.Text
import MapConfig.Text.Alphabetic
import MapConfig.Text.Blank
import MapConfig.Text.Integer
import MapConfig.Text.Printable
import MapConfig.Text.Quoted
import MapConfig.Tree
import MapConfig.Tree.Fields
import MapConfig.Tree.Merge
import MapConfig.Json.Token
import MapConfig.Json.Reader
import MapConfig.Json.Writer
import MapConfig.Error
import MapConfig.Catalogue
import MapConfig.Inheritance
import MapConfig.Lifecycle
import MapConfig.Decimal
import MapConfig.Decimal.Text
import MapConfig.Ramp
import MapConfig.Legend
import MapConfig.Path
import MapConfig.FileTree
import MapConfig.Document
import MapConfig.Objects
import MapConfig.Inclusion
import MapConfig.Settings
import MapConfig.Function
import MapConfig.Datacube
import MapConfig.Wording
import MapConfig.Wording.Metadata
import MapConfig.Bands
import MapConfig.MaskRule
import MapConfig.Scope
import MapConfig.FlagBand
import MapConfig.Style
import MapConfig.Layer
import MapConfig.Service
import MapConfig.Proofs.Results
import MapConfig.Proofs.Tree
import MapConfig.Proofs.Tree.Merge
import MapConfig.Proofs.Tree.MergeLaws
import MapConfig.Proofs.Tree.Canonical
import MapConfig.Proofs.Json.Reader
import MapConfig.Proofs.Path
import MapConfig.Proofs.Document
import MapConfig.Proofs.Document.Bucket
import MapConfig.Proofs.Inclusion.Recursion
import MapConfig.Proofs.Inclusion.Unfolding
import MapConfig.Proofs.Inclusion.Termination
import MapConfig.Proofs.Inclusion.Canonical
import MapConfig.Proofs.Inclusion.Plain
import MapConfig.Proofs.Inclusion.Remote
import MapConfig.Proofs.Lifecycle.Fields
import MapConfig.Proofs.Catalogue
import MapConfig.Proofs.Catalogue.History
import MapConfig.Proofs.Inheritance
import MapConfig.Proofs.Bands
import MapConfig.Proofs.Bands.Names
import MapConfig.Proofs.MaskRule
import MapConfig.Proofs.MaskRule.FlagSection
import MapConfig.Proofs.MaskRule.Evaluation
import MapConfig.Proofs.Decimal
import MapConfig.Proofs.Decimal.RoundTrip
import MapConfig.Proofs.Decimal.Rounding
import MapConfig.Proofs.Decimal.Literal
import MapConfig.Proofs.Decimal.Overflow
import MapConfig.Proofs.Decimal.Sum
import MapConfig.Proofs.Decimal.Order
import MapConfig.Proofs.Legend
import MapConfig.Proofs.Legend.Stepped
import MapConfig.Proofs.Legend.Listed
import MapConfig.Proofs.FlagBand
import MapConfig.Proofs.FlagBand.InfoMask
import MapConfig.Proofs.FlagBand.Groups
import MapConfig.Proofs.Wording.Messages
import MapConfig.Proofs.Wording.Keywords
import MapConfig.Proofs.Style.Labels
import MapConfig.Proofs.Style.Bands
import MapConfig.Proofs.Layer.FlagBands
import MapConfig.Proofs.Layer.SecondPhase
import MapConfig.Proofs.Service.DisplayText
import MapConfig.Proofs.Service.SecondPhase
import MapConfig.Proofs.Service.StyleBands
import MapConfig.Proofs.Service.Readiness
import MapConfig.Proofs.Service.Resolution
import MapConfig.Proofs.Service.Inheritance
import MapConfig.Proofs.Service.Canonical
import MapConfig.Proofs.Service.LayerTree
import MapConfig.Proofs.Service.Layers
