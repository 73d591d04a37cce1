import Workflow.Proofs.Lower.Places
import Workflow.Proofs.PlainCode

/-!
# Stores that are passed by reference

A plain call that passes stores by reference becomes a block: the stores are copied into locals, the
call is made with the locals in their places, and the locals are written back. So what an argument
does to a store that is passed by reference is not seen by the callee, and it is undone afterwards.
-/

namespace Workflow

open Stage

section Sample

open Linearization Plain

end Sample

end Workflow
