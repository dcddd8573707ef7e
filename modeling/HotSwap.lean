import HotSwap.Draft.Manuscript
import HotSwap.Json.Source
import HotSwap.Workspace
import HotSwap.Proofs.FileDiff
import HotSwap.Proofs.Batch
import HotSwap.Proofs.Excerpt
import HotSwap.Proofs.Relocation
import HotSwap.Proofs.DraftText
import HotSwap.Proofs.Depiction
import HotSwap.Proofs.Marking
import HotSwap.Proofs.DraftMetadata
import HotSwap.Proofs.DraftDiff
import HotSwap.Proofs.Rebuilds
import HotSwap.Proofs.Unedited
import HotSwap.Proofs.BatchUnion
import HotSwap.Proofs.Validation
import HotSwap.Proofs.History
import HotSwap.Proofs.Undisturbed
import HotSwap.Proofs.JsonRoundTrip
import HotSwap.Proofs.Concatenation
import HotSwap.Proofs.MetadataAnswer
import HotSwap.Proofs.Nesting
import HotSwap.Proofs.ClassIds
import HotSwap.Proofs.MarkingOrder
import HotSwap.Proofs.Offered
import HotSwap.Proofs.ResourceUsers
import HotSwap.Proofs.SameBytes
import HotSwap.Proofs.Modifiers
import HotSwap.Proofs.LastValues
import HotSwap.Proofs.MatchOrder
