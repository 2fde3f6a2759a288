import Meshwork.Main
import Meshwork.Geometry.Manifold
import Meshwork.Geometry.Normals
import Meshwork.Mesh.Format
import Meshwork.Parameter.Binding
import Meshwork.Store.Change
import Meshwork.Store.Fingerprint
import Meshwork.Command.Execution
import Meshwork.Container.Document
import Meshwork.Edit.Outlook
import Meshwork.FileSystem.Write
import Meshwork.Filter.Registry
import Meshwork.Filter.Builtin
import Meshwork.Pipeline.File
import Meshwork.Pipeline.Run
import Meshwork.Settings.Configuration
import Meshwork.Proofs.Edit.Commit
import Meshwork.Proofs.Store.Refinement
import Meshwork.Proofs.Store.Refusal
import Meshwork.Proofs.Store.WellPlaced
import Meshwork.Proofs.Container.RoundTrip
import Meshwork.Proofs.Filter.Lifecycle
import Meshwork.Proofs.Edit.Effect
import Meshwork.Proofs.Edit.Outlook
import Meshwork.Proofs.Edit.Unforeseen
import Meshwork.Proofs.Edit.Apart
import Meshwork.Proofs.Failure
import Meshwork.Proofs.Parameter.Binding
import Meshwork.Proofs.Filter.Regular
import Meshwork.Proofs.Mesh.Size
import Meshwork.Proofs.Filter.Straight
import Meshwork.Proofs.Filter.Import
import Meshwork.Proofs.Filter.Defect
import Meshwork.Proofs.Edit.Alike
import Meshwork.Proofs.Filter.Faithful
import Meshwork.Proofs.Pipeline.Simulation
import Meshwork.Proofs.Pipeline.Soundness
import Meshwork.Proofs.Pipeline.Prediction
import Meshwork.Proofs.Pipeline.Course
import Meshwork.Proofs.Pipeline.Cancellation
import Meshwork.Proofs.Container.Checksum
import Meshwork.Proofs.Store.Fingerprint
import Meshwork.Proofs.Container.Restore
import Meshwork.Proofs.Store.Equality
import Meshwork.Proofs.Store.Handles
import Meshwork.Proofs.Edit.Handles
import Meshwork.Proofs.Json.Number
import Meshwork.Proofs.Parameter.Plain
import Meshwork.Proofs.Pipeline.File
import Meshwork.Proofs.Text.Order
import Meshwork.Proofs.Store.Listing
import Meshwork.Proofs.Store.Reattachment
import Meshwork.Proofs.Number.Rounding
import Meshwork.Proofs.Json.Float
import Meshwork.Proofs.Pipeline.Saved
import Meshwork.Proofs.FilePath
import Meshwork.Proofs.FileSystem.Places
import Meshwork.Proofs.FileSystem.Write
import Meshwork.Proofs.Filter.Export
import Meshwork.Proofs.Store.Location
import Meshwork.Proofs.Store.MissingGroups
import Meshwork.Proofs.Filter.Imported
import Meshwork.Proofs.Filter.Merge
import Meshwork.Proofs.DataPath.Text
import Meshwork.Proofs.Parameter.Rebinding
import Meshwork.Proofs.Filter.Structure
import Meshwork.Proofs.Geometry.Sharing
import Meshwork.Proofs.Mesh.Off
import Meshwork.Proofs.Xdmf.Legible
import Meshwork.Proofs.Filter.Registry
import Meshwork.Proofs.DataArray
import Meshwork.Proofs.Settings
