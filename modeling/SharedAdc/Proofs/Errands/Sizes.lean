/-
The sizes that drivers are created with. They are those of the requests that are served, as far as
64 bits hold them: a record whose size is out of all proportion makes the product wrap, and what is left
of it can pass the check of the size.
-/
import SharedAdc.Proofs.Errands.Run

namespace SharedAdc.Controller.World

variable {κ φ : Type} {machine : Machine κ}

end SharedAdc.Controller.World
