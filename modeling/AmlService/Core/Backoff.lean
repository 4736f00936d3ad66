import AmlService.Core.Supervision

/-!
# AmlService.Core.Backoff

When the core tries again. The wait before an attempt is fixed by the number of refusals
and losses since the last complete reading, and counted from the last of them; the tick
makes the attempt at the first clock reading that reaches the date, and nothing else does.
-/

namespace AmlService

open Supervision

variable {σ : Type}

/-! ### Who tries -/

end AmlService
