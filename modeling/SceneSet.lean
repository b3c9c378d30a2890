import SceneSet.Main
import SceneSet.Proofs.Stored.RoundTrip
import SceneSet.Proofs.Stored.Tiling
import SceneSet.Proofs.Reader.Growth
import SceneSet.Proofs.Archive.Packing
import SceneSet.Proofs.Scene.Growth
import SceneSet.Proofs.Archive.RoundTrip
import SceneSet.Proofs.Archive.Acceptance
import SceneSet.Proofs.Archive.Access
import SceneSet.Proofs.Archive.Layouts
import SceneSet.Proofs.Command.Confinement
import SceneSet.Proofs.Scene.Strictness
import SceneSet.Proofs.Command.Extraction
import SceneSet.Proofs.Report.Reading
import SceneSet.Proofs.Command.Conversion
import SceneSet.Proofs.Scene.Notes
import SceneSet.Proofs.Command.Channels
import SceneSet.Proofs.Scene.Faults
import SceneSet.Proofs.Files.Obstacles
import SceneSet.Proofs.Command.Agreement
import SceneSet.Proofs.Scene.Runs
import SceneSet.Proofs.Archive.Truncation
import SceneSet.Proofs.Scene.Mirrored
import SceneSet.Proofs.Json.Summary
import SceneSet.Proofs.Number.Rounding
import SceneSet.Proofs.Polygon.Length
import SceneSet.Proofs.Number.Cancellation
import SceneSet.Proofs.Polygon.Normal
import SceneSet.Proofs.Reader.Relocation
import SceneSet.Proofs.Scene.Locality
import SceneSet.Proofs.Archive.Lookup
import SceneSet.Proofs.Report.Numbers
import SceneSet.Proofs.Text.Letters
import SceneSet.Proofs.Command.Listing
import SceneSet.Proofs.Preview.Drawing
import SceneSet.Proofs.Preview.Scale
import SceneSet.Proofs.Diagnostics.Operations
import SceneSet.Proofs.Scene.Messages
