import ArtifactGate.Config.Permissions
import ArtifactGate.Http.Target
import ArtifactGate.Main
import ArtifactGate.Store.Script
import ArtifactGate.Proofs.Command
import ArtifactGate.Proofs.Fault
import ArtifactGate.Proofs.Gateway.Conveying
import ArtifactGate.Proofs.Gateway.Uploads
import ArtifactGate.Proofs.Glob.Expansion
import ArtifactGate.Proofs.Glob.Termination
import ArtifactGate.Proofs.Http.Decoding
import ArtifactGate.Proofs.Http.Requests
import ArtifactGate.Proofs.Navigation
import ArtifactGate.Proofs.Session.Atomic
import ArtifactGate.Proofs.Session.Attached
import ArtifactGate.Proofs.Session.CopiedForest
import ArtifactGate.Proofs.Session.Denied
import ArtifactGate.Proofs.Session.Directory
import ArtifactGate.Proofs.Session.Framing
import ArtifactGate.Proofs.Session.Isolation
import ArtifactGate.Proofs.Session.Ledger
import ArtifactGate.Proofs.Session.Logged
import ArtifactGate.Proofs.Session.Naming
import ArtifactGate.Proofs.Session.Outages
import ArtifactGate.Proofs.Session.Slashes
import ArtifactGate.Proofs.Session.Statuses
import ArtifactGate.Proofs.Session.Tree
import ArtifactGate.Proofs.Session.Unlisted
import ArtifactGate.Proofs.Shutdown
import ArtifactGate.Proofs.Visits
import ArtifactGate.Proofs.Wire.Frames
import ArtifactGate.Proofs.Wire.Headers
