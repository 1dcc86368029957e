import PersistShell.Holder.Server
import PersistShell.Program.Run

/-! What a daemon and the shells do to a holder, as scripts for its runs: a peer connects and
sends frames, a shell writes or exits. -/

namespace PersistShell

/-- A holder for user 1000 whose daemon has pid 20. -/
def sampleConfig : HolderConfig where
  socket := 3
  signals := 4
  logs := 5
  uid := 1000
  pid := 10
  instanceId := List.replicate 16 1
  stateDir := "/run/session-state"

namespace Script

/-- The scripts send no environments, so nothing is asked of the JSON library. -/
abbrev json : SerdeJson := ⟨fun _ => .error "", fun _ => .error "", fun _ => .error ""⟩

def encoded (r : Except HolderProtocolError Bytes) : Bytes := r.toOption.getD []

def frame (messageType : HolderMessageType) (payload : Bytes) : Bytes :=
  encoded (encodeFrameWithMinor { messageType, requestId := 1, payload } 1)

def nonce : Bytes := List.replicate 16 7

def controlHello : Bytes := frame .controlHello (encodeControlHello ⟨1000, 20, nonce⟩)

def dataHello : Bytes := frame .dataHello (encodeDataHello ⟨20, List.replicate 16 1, nonce⟩)

def createRequest (s : SessionId) : CreateSessionRequest where
  sessionId := s
  shell := "/bin/sh"
  arguments := []
  cwd := none
  launchEnvironment := ⟨[], [], [], []⟩
  historyFile := none
  ringBufferSize := 8
  logPath := none
  stateFile := "/run/session-state/" ++ toString s ++ "-02020202020202020202020202020202.json"
  stateIncarnation := List.replicate 16 2

def create (s : SessionId) : Bytes := frame .create (encoded (encodeCreateRequest (createRequest s)))

def attach (s : SessionId) (mode : HolderAttachMode) : Bytes :=
  frame .attach (encodeAttachRequest ⟨s, mode, 0⟩)

def retire (s : SessionId) : Bytes := frame .retireExited (encodeOperationRequest ⟨s⟩)

/-- A peer connects; the holder knows it as `fd`. -/
def connect (fd : Fd) : List (List Turn) :=
  [[{ ready := [(1, epollIn)] }], [], [{ peer := some ⟨20, 1000⟩, fd }]]

/-- Descriptor `token` is ready for `events`; the turns are for what the holder does then. -/
def ready (token events : Nat) (turns : List Turn) : List (List Turn) :=
  [[{ ready := [(token, events)] }], turns, []]

/-- The peer behind `token` sends `bytes`. -/
def send (token : Nat) (bytes : Bytes) (turns : List Turn) : List (List Turn) :=
  ready token epollIn ({ data := some bytes } :: {} :: turns)

/-- A shell ends, and the holder gets SIGCHLD. -/
def exit (fd : Fd) (code : Nat) : List (List Turn) :=
  ready 2 epollIn [{ activity := [.exited fd (.exited code)], signal := sigChld }]

/-- A controller on descriptor 6, session 1 with its terminal on 7, and a data connection on 8.
The tokens are 4, 5 and 6. -/
def opening : List (List Turn) :=
  connect 6 ++ send 4 controlHello [] ++ send 4 (create 1) [{ fd := 7 }] ++
    connect 8 ++ send 6 dataHello []

def run (script : List (List Turn)) : Option HolderRun :=
  Run.exec (@HolderRun.step json) sampleConfig.start script

theorem reachable {script : List (List Turn)} {r : HolderRun} (h : run script = some r) :
    Run.Reachable (@HolderRun.step json) (· = sampleConfig.start) r :=
  Run.Along.exec (.start rfl) h

end Script

end PersistShell
