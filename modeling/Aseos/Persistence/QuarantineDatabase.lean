import Aseos.Persistence.Protocol
import Mathlib.Logic.Function.Basic
import Mathlib.Tactic.Common

namespace Aseos.Persistence

inductive Sidecar where
  | wal
  | shm
  deriving DecidableEq

-- What stands at `databasePath` and beside it, and what has been renamed to a quarantine path.
structure AuthorityFiles (File SideFile : Type) where
  database : Option File
  sidecars : Sidecar → Option SideFile
  marker : Bool
  quarantined : List File
  quarantinedSidecars : List (Sidecar × SideFile)

-- The awaited calls of `quarantineDatabase`; its loop looks for a side file before it renames it.
inductive QuarantineStep where
  | findFile
  | writeMarker
  | renameFile
  | findSidecar (sidecar : Sidecar)
  | renameSidecar (sidecar : Sidecar)
  deriving DecidableEq

-- What follows a step; the handler that called `quarantineDatabase` posts the error when it
-- returns, and posts nothing when it throws.
inductive QuarantineNext where
  | step (next : QuarantineStep)
  | ended (error : Option PersistenceErrorCode)

def Sidecar.next : Sidecar → QuarantineNext
  | .wal => .step (.findSidecar .shm)
  | .shm => .ended (some .corruption)

section Steps

variable {File SideFile : Type}

def quarantineDatabase (files : AuthorityFiles File SideFile) :
    QuarantineStep → AuthorityFiles File SideFile × QuarantineNext
  | .findFile =>
      (files, if files.database.isSome then .step .writeMarker else .ended (some .corruption))
  -- The marker is written with the flag `wx`.
  | .writeMarker =>
      if files.marker then (files, .ended none)
      else ({ files with marker := true }, .step .renameFile)
  | .renameFile =>
      match files.database with
      | some file =>
          ({ files with database := none, quarantined := file :: files.quarantined },
            .step (.findSidecar .wal))
      | none => (files, .ended none)
  | .findSidecar sidecar =>
      (files, if (files.sidecars sidecar).isSome then .step (.renameSidecar sidecar)
        else sidecar.next)
  | .renameSidecar sidecar =>
      match files.sidecars sidecar with
      | some file =>
          ({ files with
              sidecars := Function.update files.sidecars sidecar none
              quarantinedSidecars := (sidecar, file) :: files.quarantinedSidecars },
            sidecar.next)
      | none => (files, .ended none)

theorem quarantineDatabase_marked {files : AuthorityFiles File SideFile}
    (h : files.marker = true) (step : QuarantineStep) :
    (quarantineDatabase files step).1.marker = true := by
  cases step with
  | findFile | findSidecar => exact h
  | writeMarker => rw [quarantineDatabase, if_pos h, h]
  | renameFile | renameSidecar =>
    rw [quarantineDatabase]
    split <;> exact h

end Steps

end Aseos.Persistence
