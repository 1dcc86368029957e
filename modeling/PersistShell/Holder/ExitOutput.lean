import Mathlib.Data.List.Infix
import PersistShell.Holder.Safety
import PersistShell.Holder.Script

/-! What becomes of the output of a shell that exits. All terminals are drained in one pass and
the shells that are gone collected in the next, so what a shell writes between the two is
dropped with its terminal. -/

namespace PersistShell

end PersistShell
