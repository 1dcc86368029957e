import PersistShell.Holder.Handlers
import PersistShell.Ipc.HolderChunks

/-! What the holder makes of the payload of a frame that its writer sends. -/

namespace PersistShell
open Program

namespace Holder

section calls

variable {J : HolderServer → Prop}

end calls

section input

variable {s : SessionId}

end input

section handlers

variable {fd : Fd} {s : SessionId} {room : Nat} {c : Connection} {session : Session}
  {pty : PtySession} {w : World}

end handlers

end Holder

section accepts

variable {minor : Nat} {frame : HolderFrame}

def attachedPty : PtySession := { masterFd := 7, childPid := 9 }

def attachedSession : Session where
  pty := some attachedPty
  shellPid := 9
  ring :=
    { buffer := [0]
      capacity := 1
      writePos := 0
      filled := false
      buffer_length := rfl
      writePos_lt := Nat.one_pos }
  logPath := none
  logState := .disabled
  createdAtMs := 0
  lastActiveAtMs := 0

end accepts

end PersistShell
