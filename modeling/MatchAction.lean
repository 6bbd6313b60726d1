import MatchAction.Main
import MatchAction.Encoding
import MatchAction.Proofs.FieldValues
import MatchAction.Proofs.History
import MatchAction.Proofs.Representation
import MatchAction.Proofs.Refinement
import MatchAction.Proofs.Reachability
import MatchAction.Proofs.MatchOrder
import MatchAction.Proofs.DefaultAction
import MatchAction.Proofs.Overlays
import MatchAction.Proofs.Reading
import MatchAction.Proofs.Formats
import MatchAction.Proofs.Noninterference
import MatchAction.Proofs.Snapshot
import MatchAction.Proofs.AuditTrail
import MatchAction.Proofs.Output
import MatchAction.Proofs.CommandLine
import MatchAction.Proofs.Buffering
import MatchAction.Proofs.Verdict
import MatchAction.Proofs.ReadBack
import MatchAction.Proofs.RowAlgebra
import MatchAction.Proofs.Views
import MatchAction.Proofs.Acceptance
import MatchAction.Proofs.Flattening
import MatchAction.Proofs.Addressing
import MatchAction.Proofs.Definitions
import MatchAction.Proofs.ValueEncoding
import MatchAction.Proofs.Readability
