import PersistShell.Holder.Safety
import PersistShell.Holder.Script

/-! One writer at a time: whatever reaches a shell comes from the connection that attached to
write last and still holds the slot. -/

namespace PersistShell

/-- A run in which the writer types. -/
def Script.typing : List (List Turn) :=
  opening ++ send 6 (attach 1 .readWrite) [] ++ send 6 (frame .input [108, 115]) []

end PersistShell
