import PersistShell.Core.Policy

/-! The configuration, as far as it is validated or used. Sizes are in bytes, durations in
milliseconds. -/

namespace PersistShell

structure DaemonConfig where
  idleExit : Bool := true
  idleExitAfter : Nat := 600000
  deriving DecidableEq, Repr

structure RingBufferConfig where
  defaultSize : Nat := 8 * 1024 * 1024
  maxSize : Nat := 128 * 1024 * 1024
  replayOnAttach : Bool := true
  replayBytes : Nat := 512 * 1024
  deriving DecidableEq, Repr

structure LoggingConfig where
  sessionLog : Bool := true
  maxFileSize : Nat := 100 * 1024 * 1024
  maxFiles : Nat := 10
  retentionDays : Nat := 30
  flushInterval : Nat := 1000
  deriving DecidableEq, Repr

structure InternalLogConfig where
  daemonLog : String
  clientLog : String
  maxFileSize : Nat := 20 * 1024 * 1024
  maxFiles : Nat := 5
  deriving DecidableEq, Repr

structure RecoveryEnvironmentConfig where
  include_ : List String := []
  maxVariables : Nat := 128
  maxBytes : Nat := 64 * 1024
  deriving DecidableEq, Repr

structure Config where
  socketDir : String
  daemon : DaemonConfig := {}
  killGrace : Nat := 3000
  ringBuffer : RingBufferConfig := {}
  logging : LoggingConfig := {}
  internalLog : InternalLogConfig
  allowRootAttachOthers : Bool := false
  bypassEnv : String := "PERSIST_DISABLE"
  recoveryEnvironment : RecoveryEnvironmentConfig := {}
  deriving DecidableEq, Repr

def validateNonEmptyPath (name path : String) : Except PersistError Unit :=
  rejectIf (utf8 path = []) (.configValidation (name ++ " must not be empty"))

def validateAbsolutePath (name path : String) : Except PersistError Unit :=
  rejectIf (¬ isAbsolutePath (utf8 path)) (.configValidation (name ++ " must be an absolute path"))

def validateNonZero (name : String) (value : Nat) : Except PersistError Unit :=
  rejectIf (value = 0) (.configValidation (name ++ " must be greater than zero"))

/-- `char::is_whitespace`. -/
def isWhitespace (c : Char) : Bool :=
  (9 ≤ c.toNat && c.toNat ≤ 13) || (8192 ≤ c.toNat && c.toNat ≤ 8202) ||
    c.toNat ∈ [32, 133, 160, 5760, 8232, 8233, 8239, 8287, 12288]

/-- `str::trim`. -/
def trim (s : String) : String :=
  let front := s.toList.dropWhile isWhitespace
  String.ofList (front.reverse.dropWhile isWhitespace).reverse

/-- `recovery_environment_policy`. -/
def RecoveryEnvironmentConfig.policy (config : RecoveryEnvironmentConfig) :
    Except PersistError EnvironmentPolicy :=
  EnvironmentPolicy.new config.include_ config.maxVariables config.maxBytes

namespace Config

def validate (config : Config) : Except PersistError Unit := do
  validateNonEmptyPath "runtime.socket_dir" config.socketDir
  validateAbsolutePath "runtime.socket_dir" config.socketDir
  validateNonZero "session.kill_grace" config.killGrace
  validateNonZero "ring_buffer.default_size" config.ringBuffer.defaultSize
  validateNonZero "ring_buffer.max_size" config.ringBuffer.maxSize
  validateNonZero "logging.max_file_size" config.logging.maxFileSize
  validateNonZero "logging.flush_interval" config.logging.flushInterval
  validateNonEmptyPath "internal_log.daemon_log" config.internalLog.daemonLog
  validateNonEmptyPath "internal_log.client_log" config.internalLog.clientLog
  validateAbsolutePath "internal_log.daemon_log" config.internalLog.daemonLog
  validateAbsolutePath "internal_log.client_log" config.internalLog.clientLog
  validateNonZero "internal_log.max_file_size" config.internalLog.maxFileSize
  if config.daemon.idleExit then
    validateNonZero "daemon.idle_exit_after" config.daemon.idleExitAfter
  rejectIf (config.ringBuffer.defaultSize > config.ringBuffer.maxSize)
    (.configValidation "ring_buffer.default_size must not exceed ring_buffer.max_size")
  rejectIf (config.ringBuffer.replayBytes > config.ringBuffer.maxSize)
    (.configValidation "ring_buffer.replay_bytes must not exceed ring_buffer.max_size")
  validateNonZero "logging.max_files" config.logging.maxFiles
  validateNonZero "logging.retention_days" config.logging.retentionDays
  validateNonZero "internal_log.max_files" config.internalLog.maxFiles
  rejectIf (config.bypassEnv.toList.all isWhitespace)
    (.configValidation "ssh.bypass_env must not be empty")
  rejectIf config.allowRootAttachOthers
    (.configValidation "security.allow_root_attach_others is not supported in Phase 1")
  match config.recoveryEnvironment.policy with
  | .ok _ => return ()
  | .error error =>
    throw (.configValidation ("recovery.environment is invalid: " ++ error.text))

end Config

end PersistShell
