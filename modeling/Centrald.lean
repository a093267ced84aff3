import Centrald.Proofs.Activation
import Centrald.Proofs.AtomicPointer
import Centrald.Proofs.AuditExport
import Centrald.Proofs.AuditVerifies
import Centrald.Proofs.AuthorisedRuns
import Centrald.Proofs.Channel
import Centrald.Proofs.ClientOnline
import Centrald.Proofs.ClientStreams
import Centrald.Proofs.CurrentCertificate
import Centrald.Proofs.Elevation
import Centrald.Proofs.FailedBegin
import Centrald.Proofs.Https
import Centrald.Proofs.Invitations
import Centrald.Proofs.IssuerRotation
import Centrald.Proofs.JobBounds
import Centrald.Proofs.JobStream
import Centrald.Proofs.LastAdmin
import Centrald.Proofs.Lifetimes
import Centrald.Proofs.OpenShell
import Centrald.Proofs.Renewal
import Centrald.Proofs.Replacement
import Centrald.Proofs.ReportedOutcome
import Centrald.Proofs.ResultMap
import Centrald.Proofs.SetupRecovery
import Centrald.Proofs.ShellFrames
import Centrald.Proofs.StartJob
import Centrald.Proofs.TimeoutSweep
import Centrald.Proofs.TornTail
import Centrald.Proofs.TrustAnchor
