import PersistShell.Holder.Safety
import PersistShell.Holder.Script

/-! Attachments and the successive sessions of one id. A session that exited can be retired
while connections are attached to it; they are then taken for connections of the session that
is created next under the same id. -/

namespace PersistShell

/-- The entries after which `fd` is not attached to what it was attached to. -/
def Note.leaves (fd : Fd) : Note → Prop
  | .attached fd' _ _ => fd' = fd
  | .detached fd' => fd' = fd
  | .disconnected fd' => fd' = fd
  | _ => False

theorem RetiredUnattached.of_append {later earlier : List Note}
    (h : RetiredUnattached (later ++ earlier)) : RetiredUnattached earlier :=
  fun s fds hmem => h s fds (List.mem_append_right _ hmem)

end PersistShell
