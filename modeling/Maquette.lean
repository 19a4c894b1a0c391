import Maquette.Datum.Edit
import Maquette.Main
import Maquette.Proofs.Component.TopLevel
import Maquette.Proofs.Outline.Grown
import Maquette.Proofs.Outline.SlotNames
import Maquette.Proofs.Token.Chain
import Maquette.Workspace
import Maquette.Outline.Builder
import Maquette.Proofs.Outline.Slots
import Maquette.Proofs.Decimal.Arithmetic
import Maquette.Proofs.Decimal.Ratio
import Maquette.Proofs.Outline.Shape
import Maquette.Proofs.Token.Best
import Maquette.Proofs.Token.Gather
import Maquette.Proofs.Token.SetShape
import Maquette.Proofs.Token.Cascade
import Maquette.Proofs.Token.Reference
import Maquette.Proofs.Component.Parameters
import Maquette.Proofs.Component.References
import Maquette.Proofs.Component.Consumed
import Maquette.Proofs.Component.Exports
import Maquette.Proofs.Component.Mirror
import Maquette.Proofs.Component.Classes
import Maquette.Proofs.Component.States
import Maquette.Proofs.Component.Stories
import Maquette.Proofs.Component.Styles
import Maquette.Proofs.Component.Filled
import Maquette.Proofs.Watch
import Maquette.Proofs.Page
import Maquette.Proofs.Token.Readings
import Maquette.Proofs.Component.RootRule
import Maquette.Proofs.Token.Reordered
import Maquette.Proofs.Commands
import Maquette.Proofs.Naming.Identifier
import Maquette.Proofs.Token.PlainName
import Maquette.Proofs.Token.Confidence
import Maquette.Proofs.Markup.ChildText
import Maquette.Proofs.Component.Handlers
import Maquette.Proofs.Component.SpelledOut
import Maquette.Proofs.Paint.Interpolation
import Maquette.Proofs.Settings
import Maquette.Proofs.Color.Decoded
import Maquette.Proofs.Naming.ClassName
import Maquette.Proofs.Delivery.Places
import Maquette.Proofs.Paint.Stacked
import Maquette.Proofs.Archetype
