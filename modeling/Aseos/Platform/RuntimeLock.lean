import Mathlib.Order.Lattice
import Mathlib.Logic.Function.Basic
import Mathlib.Data.List.Basic
import Aseos.Library.TransitionSystem

namespace Aseos.RuntimeLock

def maxSafeInteger : ℕ := 9007199254740991

structure RuntimeClaim (Claim : Type) where
  name : Claim
  ticket : Option ℕ
  deriving DecidableEq

structure LockRecord where
  instanceId : String
  pid : ℕ
  deriving DecidableEq

-- The writer is a history variable: the file itself only holds the record.
structure LockFile (Claim : Type) where
  content : LockRecord
  writer : Option Claim

structure Files (Claim : Type) where
  claims : Claim → Option (Option ℕ)
  lock : Option (LockFile Claim)

inductive Life where
  | unborn
  | alive
  | dead
  deriving DecidableEq

-- A claim name is `pid-nonce`, so it fixes the process that made it.
structure Deployment (Claim Process : Type) where
  pid : Process → ℕ
  process : Claim → Process
  instanceId : Claim → String

inductive Phase where
  | choose
  | elect (ticket : ℕ)
  deriving DecidableEq

inductive Scan (Claim : Type) where
  | list
  | probe (todo : List Claim) (claims : List (RuntimeClaim Claim))
  | reclaim (name : Claim) (todo : List Claim) (claims : List (RuntimeClaim Claim))
  | readTicket (name : Claim) (todo : List Claim) (claims : List (RuntimeClaim Claim))
  | statClaim (name : Claim) (todo : List Claim) (claims : List (RuntimeClaim Claim))

inductive Control (Claim : Type) where
  | idle
  | scan (phase : Phase) (position : Scan Claim)
  | publish (ticket : ℕ)
  | readLock (ticket : ℕ)
  | probeHolder (ticket : ℕ) (pid : ℕ)
  | writeLock (ticket : ℕ)
  | wroteLock (ticket : ℕ)
  | held (ticket : ℕ)
  | releaseRead (ticket : ℕ)
  | releaseLock (ticket : ℕ)
  | releaseClaim (ticket : ℕ)
  | abort
  | done

section Pure

variable {Claim : Type} [LinearOrder Claim]

def nextTicket (claims : List (RuntimeClaim Claim)) : ℕ :=
  1 + (claims.map (fun claim => claim.ticket.getD 0)).foldr max 0

def precedes (me : Claim) (ticket : ℕ) (claim : RuntimeClaim Claim) : Bool :=
  match claim.ticket with
  | none => false
  | some other => other < ticket || (other == ticket && claim.name < me)

inductive Election where
  | alreadyActive
  | choosing
  | elected
  deriving DecidableEq

def election (me : Claim) (ticket : ℕ) (claims : List (RuntimeClaim Claim)) : Election :=
  let others := claims.filter (fun claim => claim.name ≠ me)
  if others.any (precedes me ticket) then .alreadyActive
  else if others.any (fun claim => claim.ticket.isNone) then .choosing
  else .elected

end Pure

variable {Claim Process : Type} [LinearOrder Claim]

def Files.setClaim (f : Files Claim) (name : Claim) (entry : Option (Option ℕ)) : Files Claim :=
  { f with claims := Function.update f.claims name entry }

def Files.setLock (f : Files Claim) (lock : Option (LockFile Claim)) : Files Claim :=
  { f with lock := lock }

def Deployment.claimPid (d : Deployment Claim Process) (name : Claim) : ℕ :=
  d.pid (d.process name)

def Deployment.content (d : Deployment Claim Process) (me : Claim) : LockRecord :=
  ⟨d.instanceId me, d.claimPid me⟩

def processExists (d : Deployment Claim Process) (life : Process → Life) (pid : ℕ) : Prop :=
  ∃ p, life p = .alive ∧ d.pid p = pid

-- One completed filesystem or liveness operation of `acquireRuntimeLock` or of the release
-- function. Of `replaceAtomically` only the rename touches what another contender reads.
inductive Move (d : Deployment Claim Process) (life : Process → Life) (me : Claim) :
    Control Claim → Files Claim → Control Claim → Files Claim → Prop
  | makeClaim {f} : f.claims me = none →
      Move d life me .idle f (.scan .choose .list) (f.setClaim me (some none))
  | list {f phase names} : names.Nodup → (∀ n, n ∈ names ↔ f.claims n ≠ none) →
      Move d life me (.scan phase .list) f (.scan phase (.probe names [])) f
  | probeAlive {f phase n todo claims} : processExists d life (d.claimPid n) →
      Move d life me (.scan phase (.probe (n :: todo) claims)) f
        (.scan phase (.readTicket n todo claims)) f
  | probeDead {f phase n todo claims} : ¬ processExists d life (d.claimPid n) →
      Move d life me (.scan phase (.probe (n :: todo) claims)) f
        (.scan phase (.reclaim n todo claims)) f
  | reclaim {f phase n todo claims} :
      Move d life me (.scan phase (.reclaim n todo claims)) f
        (.scan phase (.probe todo claims)) (f.setClaim n none)
  | readTicket {f phase n todo claims t} : f.claims n = some (some t) →
      Move d life me (.scan phase (.readTicket n todo claims)) f
        (.scan phase (.probe todo (claims ++ [⟨n, some t⟩]))) f
  | readMissing {f phase n todo claims} : (∀ t, f.claims n ≠ some (some t)) →
      Move d life me (.scan phase (.readTicket n todo claims)) f
        (.scan phase (.statClaim n todo claims)) f
  | statPresent {f phase n todo claims} : f.claims n ≠ none →
      Move d life me (.scan phase (.statClaim n todo claims)) f
        (.scan phase (.probe todo (claims ++ [⟨n, none⟩]))) f
  | statMissing {f phase n todo claims} : f.claims n = none →
      Move d life me (.scan phase (.statClaim n todo claims)) f
        (.scan phase (.probe todo claims)) f
  | chosen {f claims} : nextTicket claims ≤ maxSafeInteger →
      Move d life me (.scan .choose (.probe [] claims)) f (.publish (nextTicket claims)) f
  | exhausted {f claims} : maxSafeInteger < nextTicket claims →
      Move d life me (.scan .choose (.probe [] claims)) f .abort f
  | publish {f t} :
      Move d life me (.publish t) f (.scan (.elect t) .list) (f.setClaim me (some (some t)))
  | alreadyActive {f t claims} : election me t claims = .alreadyActive →
      Move d life me (.scan (.elect t) (.probe [] claims)) f .abort f
  | waitAgain {f t claims} : election me t claims = .choosing →
      Move d life me (.scan (.elect t) (.probe [] claims)) f (.scan (.elect t) .list) f
  | waitExpired {f t claims} : election me t claims = .choosing →
      Move d life me (.scan (.elect t) (.probe [] claims)) f .abort f
  | elected {f t claims} : election me t claims = .elected →
      Move d life me (.scan (.elect t) (.probe [] claims)) f (.readLock t) f
  | lockAbsent {f t} : f.lock = none →
      Move d life me (.readLock t) f (.writeLock t) f
  | lockPresent {f t file} : f.lock = some file →
      Move d life me (.readLock t) f (.probeHolder t file.content.pid) f
  | holderAlive {f t pid} : processExists d life pid →
      Move d life me (.probeHolder t pid) f .abort f
  | holderDead {f t pid} : ¬ processExists d life pid →
      Move d life me (.probeHolder t pid) f (.writeLock t) f
  | writeLock {f t} :
      Move d life me (.writeLock t) f (.wroteLock t) (f.setLock (some ⟨d.content me, some me⟩))
  | acquired {f t} : Move d life me (.wroteLock t) f (.held t) f
  | release {f t} : Move d life me (.held t) f (.releaseRead t) f
  | ownLock {f t file} : f.lock = some file → file.content = d.content me →
      Move d life me (.releaseRead t) f (.releaseLock t) f
  | otherLock {f t} : (∀ file, f.lock = some file → file.content ≠ d.content me) →
      Move d life me (.releaseRead t) f (.releaseClaim t) f
  | removeLock {f t} :
      Move d life me (.releaseLock t) f (.releaseClaim t) (f.setLock none)
  | removeClaim {f t} :
      Move d life me (.releaseClaim t) f .done (f.setClaim me none)
  | cleanup {f} : Move d life me .abort f .done (f.setClaim me none)

-- A rejected operation. Inside the scan Windows may also rescan; in the release function the
-- claim removal is in a `finally`.
inductive Fault : Control Claim → Control Claim → Prop
  | makeClaim : Fault .idle .done
  | scan {phase position} : Fault (.scan phase position) .abort
  | rescan {phase position} : Fault (.scan phase position) (.scan phase .list)
  | publish {t} : Fault (.publish t) .abort
  | readLock {t} : Fault (.readLock t) .abort
  | probeHolder {t pid} : Fault (.probeHolder t pid) .abort
  | writeLock {t} : Fault (.writeLock t) .abort
  | wroteLock {t} : Fault (.wroteLock t) .abort
  | releaseRead {t} : Fault (.releaseRead t) (.releaseClaim t)
  | releaseLock {t} : Fault (.releaseLock t) (.releaseClaim t)
  | releaseClaim {t} : Fault (.releaseClaim t) .done
  | cleanup : Fault .abort .done

structure World (Claim Process : Type) where
  life : Process → Life
  control : Claim → Control Claim
  files : Files Claim

def World.live (d : Deployment Claim Process) (w : World Claim Process) (c : Claim) : Prop :=
  w.life (d.process c) = .alive

inductive Action (Claim Process : Type) where
  | start (p : Process)
  | crash (p : Process)
  | move (c : Claim)
  | fault (c : Claim)

variable [DecidableEq Process]

inductive Step (d : Deployment Claim Process) :
    World Claim Process → Action Claim Process → World Claim Process → Prop
  | start {w p} : w.life p = .unborn → (∀ q, w.life q = .alive → d.pid q ≠ d.pid p) →
      Step d w (.start p) { w with life := Function.update w.life p .alive }
  | crash {w p} : w.life p = .alive →
      Step d w (.crash p) { w with life := Function.update w.life p .dead }
  | move {w c ctl f} : w.live d c → Move d w.life c (w.control c) w.files ctl f →
      Step d w (.move c) { w with control := Function.update w.control c ctl, files := f }
  | fault {w c ctl} : w.live d c → Fault (w.control c) ctl →
      Step d w (.fault c) { w with control := Function.update w.control c ctl }

def Initial (w : World Claim Process) : Prop :=
  (∀ p, w.life p = .unborn) ∧ (∀ c, w.control c = .idle) ∧ (∀ c, w.files.claims c = none) ∧
    ∀ file, w.files.lock = some file → file.writer = none

def Reachable (d : Deployment Claim Process) : World Claim Process → Prop :=
  TransitionSystem.Reachable Initial (Step d)

def World.holds (d : Deployment Claim Process) (w : World Claim Process) (c : Claim) : Prop :=
  w.live d c ∧ ∃ t, w.control c = .held t

end Aseos.RuntimeLock
