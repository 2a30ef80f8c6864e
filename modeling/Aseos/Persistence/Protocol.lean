import Mathlib.Data.List.Basic

namespace Aseos.Persistence

inductive PersistenceErrorCode where
  | busy
  | closed
  | contractInvalid
  | corruption
  | idempotencyConflict
  | migrationMismatch
  | optimisticConcurrency
  | queueFull
  | securityControlFailed
  | storageFailure
  | workerExited
  deriving DecidableEq, Repr

inductive WorkerRequestKind where
  | armCrash
  | backup
  | close
  | commit
  | getCommand
  | lookupCommandReceipt
  | health
  | holdLock
  | listOutbox
  | readEvents
  | recordInbox
  | recover
  | releaseLock
  | saveCheckpoint
  | security
  | stateManifest
  deriving DecidableEq, Repr

end Aseos.Persistence
