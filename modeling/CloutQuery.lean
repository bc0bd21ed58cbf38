import CloutQuery.Main
import CloutQuery.Session
import CloutQuery.Proofs.CommandLine.Classification
import CloutQuery.Proofs.Graph.Assignment
import CloutQuery.Proofs.Graph.FloatText
import CloutQuery.Proofs.Graph.History
import CloutQuery.Proofs.Graph.Refusal
import CloutQuery.Proofs.Host.Agreement
import CloutQuery.Proofs.Host.Interchange
import CloutQuery.Proofs.Host.MixedVersions
import CloutQuery.Proofs.Host.Range
import CloutQuery.Proofs.Number.Comparison
import CloutQuery.Proofs.Resolve.DottedPath
import CloutQuery.Proofs.Resolve.Hosting
import CloutQuery.Proofs.Resolve.Invisible
import CloutQuery.Proofs.Resolve.LeastKey
import CloutQuery.Proofs.Resolve.Marker
import CloutQuery.Proofs.Resolve.PathExtension
import CloutQuery.Proofs.Resolve.PolicyTargets
import CloutQuery.Proofs.Value.Exact
import CloutQuery.Proofs.Version.Forms
