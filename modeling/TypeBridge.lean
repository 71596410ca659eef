import TypeBridge.Main
import TypeBridge.Proofs.Layout.Reach
import TypeBridge.Proofs.Layout.Verdict
import TypeBridge.Proofs.Layout.Walk
import TypeBridge.Proofs.Layout.Outcome
import TypeBridge.Proofs.Layout.Meaning
import TypeBridge.Proofs.Layout.Afresh
import TypeBridge.Proofs.Layout.Composition
import TypeBridge.Proofs.Layout.SelfContaining
import TypeBridge.Proofs.Layout.Witness
import TypeBridge.Proofs.Description.Grammar
import TypeBridge.Proofs.Description.Run
import TypeBridge.Proofs.Description.Cut
import TypeBridge.Proofs.Description.Beginning
import TypeBridge.Proofs.Description.Viable
import TypeBridge.Proofs.Description.Obstacle
import TypeBridge.Proofs.Description.Exchange
import TypeBridge.Proofs.Description.Occurrence
import TypeBridge.Proofs.Description.Recognition
import TypeBridge.Proofs.Description.Written
import TypeBridge.Proofs.Description.Named
import TypeBridge.Proofs.Resolution.Chain
import TypeBridge.Proofs.Resolution.Link
import TypeBridge.Proofs.Resolution.Innermost
import TypeBridge.Proofs.Catalogue.Syntax
import TypeBridge.Proofs.Catalogue.Layout
import TypeBridge.Proofs.Catalogue.RoundTrip
import TypeBridge.Proofs.Catalogue.Closed
import TypeBridge.Proofs.Catalogue.Linking
import TypeBridge.Proofs.Catalogue.Refusal
import TypeBridge.Proofs.Catalogue.Ambiguity
import TypeBridge.Proofs.Catalogue.Facts
import TypeBridge.Proofs.Catalogue.Arrangement
import TypeBridge.Proofs.Classification.Declared
import TypeBridge.Proofs.Classification.Pointer
import TypeBridge.Proofs.Classification.Crossing
import TypeBridge.Proofs.Classification.Collision
import TypeBridge.Proofs.Text.Separated
import TypeBridge.Proofs.Native.Place
import TypeBridge.Proofs.Resolution.Complaint
import TypeBridge.Proofs.Catalogue.Enclosed
import TypeBridge.Proofs.Preamble.Agreement
import TypeBridge.Proofs.Command.Ending
import TypeBridge.Proofs.Layout.Correspondence
import TypeBridge.Proofs.Layout.Order
import TypeBridge.Proofs.Native.Transformed
import TypeBridge.Proofs.Classification.Unconverted
import TypeBridge.Proofs.Preamble.Canonical
import TypeBridge.Proofs.Classification.Handle
import TypeBridge.Proofs.Native.RoundTrip
