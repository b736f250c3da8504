import ControlPlane.Detector.Script
import ControlPlane.Main
import ControlPlane.Proofs.Api.Atomic
import ControlPlane.Proofs.Api.Interleaving
import ControlPlane.Proofs.Catalogue.Refinement
import ControlPlane.Proofs.Detector.Independence
import ControlPlane.Proofs.Detector.Ledger
import ControlPlane.Proofs.Detector.Nodes
import ControlPlane.Proofs.Detector.Replicas
import ControlPlane.Proofs.Detector.Silence
import ControlPlane.Proofs.Entity.Stable
import ControlPlane.Proofs.Life.Detection
import ControlPlane.Proofs.Life.Fields
import ControlPlane.Proofs.Program.CommandLine
import ControlPlane.Proofs.Program.Options
import ControlPlane.Proofs.Registry.Advance
import ControlPlane.Proofs.Registry.Listing
import ControlPlane.Proofs.Run
import ControlPlane.Proofs.Store.Lines
import ControlPlane.Proofs.Store.Reading
import ControlPlane.Proofs.Store.Session
import ControlPlane.Proofs.Text.Exact
