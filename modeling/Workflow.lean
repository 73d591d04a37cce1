import Workflow.Activity.Format
import Workflow.Model.Render
import Workflow.Main
import Workflow.Proofs.Structured
import Workflow.Proofs.KeptLocals
import Workflow.Proofs.AssignedPlaces
import Workflow.Proofs.Noninterference
import Workflow.Proofs.Answered
import Workflow.Proofs.Hygiene
import Workflow.Proofs.Unambiguous
import Workflow.Proofs.UniqueNames
import Workflow.Proofs.CopiedStores
import Workflow.Proofs.Binding
import Workflow.Proofs.DocumentOrder
import Workflow.Proofs.Identities
import Workflow.Proofs.Faultless
import Workflow.Proofs.Replies
import Workflow.Proofs.Barriers
import Workflow.Proofs.DepthLimit
import Workflow.Proofs.ErrorPlaces
import Workflow.Proofs.Format.Tree
import Workflow.Proofs.Format.Graph
import Workflow.Proofs.Skips
import Workflow.Proofs.GraphErrors
import Workflow.Proofs.LinksOnly
