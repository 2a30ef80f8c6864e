import Aseos.Library.TransitionSystem
import Aseos.Library.Utf8
import Aseos.Persistence.QuarantineDatabase

namespace Aseos.Persistence

namespace Quarantine

open TransitionSystem

abbrev Bytes := List Utf8.Byte

-- What SQLite makes of the bytes of a database file. Its pragma and its closing rewrite a file,
-- and what its checks find in a file they find again in the rewritten one.
structure Sqlite where
  corrupt : Bytes → Bool
  journaled : Bytes → Bytes
  migrated : Bytes → Bytes
  closed : Bytes → Bytes
  closedSidecars : Bytes → Sidecar → Option Unit
  journaled_corrupt (b : Bytes) : corrupt b = true → corrupt (journaled b) = true
  closed_corrupt (b : Bytes) : corrupt b = true → corrupt (closed b) = true

-- Where the worker stands; `ended` also stands for a worker that crashed or was never started.
inductive Phase where
  | ended (error : Option PersistenceErrorCode)
  | checkMarker
  | checkFile (quarantineRequired : Bool)
  | checkSize (quarantineRequired databaseExisted : Bool)
  | openFile (databaseExisted : Bool)
  | setJournalMode (databaseExisted : Bool)
  | quickCheck (databaseExisted : Bool)
  | applySchema (databaseExisted : Bool)
  | lastCheck (databaseExisted : Bool)
  | ready
  | closeFailed (quarantineRequired databaseExisted : Bool) (code : PersistenceErrorCode)
  | quarantine (step : QuarantineStep)
  deriving DecidableEq

-- The files of one data root and the one worker on it; `created` counts the new databases. A side
-- file is only there or not.
structure DataRoot extends AuthorityFiles Bytes Unit where
  created : ℕ
  connected : Bool
  phase : Phase

inductive Label where
  | start
  | advance
  | fail (code : PersistenceErrorCode)
  | crash
  | commit (bytes : Bytes)

section Steps

variable (sqlite : Sqlite)

def failWith (quarantineRequired databaseExisted : Bool) (code : PersistenceErrorCode) : Phase :=
  if !quarantineRequired && databaseExisted && decide (code = .corruption) then
    .quarantine .findFile
  else .ended (some code)

def checkSize (s : DataRoot) (quarantineRequired databaseExisted : Bool) : Phase :=
  if quarantineRequired then .closeFailed quarantineRequired databaseExisted .corruption
  else if databaseExisted then
    match s.database with
    | none => .closeFailed quarantineRequired databaseExisted .storageFailure
    | some bytes =>
        if bytes = [] then .closeFailed quarantineRequired databaseExisted .corruption
        else .openFile databaseExisted
  else .openFile databaseExisted

def DataRoot.isCorrupt (s : DataRoot) : Bool := s.database.any sqlite.corrupt

def DataRoot.rewrite (s : DataRoot) (f : Bytes → Bytes) : DataRoot :=
  { s with database := s.database.map f }

-- `PRAGMA quick_check`
def quickCheck (s : DataRoot) (databaseExisted : Bool) (p : Phase) : DataRoot :=
  { s with
    phase := if s.isCorrupt sqlite then .closeFailed false databaseExisted .corruption else p }

def closeDatabase (s : DataRoot) : DataRoot :=
  if s.connected then
    { s.rewrite sqlite.closed with
      sidecars := (s.database.map sqlite.closedSidecars).getD s.sidecars
      connected := false }
  else s

def Phase.after : QuarantineNext → Phase
  | .step next => .quarantine next
  | .ended error => .ended error

def quarantine (s : DataRoot) (step : QuarantineStep) : DataRoot :=
  { s with
    toAuthorityFiles := (quarantineDatabase s.toAuthorityFiles step).1
    phase := .after (quarantineDatabase s.toAuthorityFiles step).2 }

def advance (s : DataRoot) : Option DataRoot :=
  match s.phase with
  | .checkMarker => some { s with phase := .checkFile s.marker }
  | .checkFile quarantineRequired =>
      some { s with phase := .checkSize quarantineRequired s.database.isSome }
  | .checkSize quarantineRequired databaseExisted =>
      some { s with phase := checkSize s quarantineRequired databaseExisted }
  | .openFile databaseExisted =>
      match s.database with
      | some _ => some { s with connected := true, phase := .setJournalMode databaseExisted }
      | none => some { s with
          database := some [], created := s.created + 1, connected := true
          phase := .setJournalMode databaseExisted }
  | .setJournalMode databaseExisted =>
      some { s.rewrite sqlite.journaled with
        sidecars := fun _ => some (), phase := .quickCheck databaseExisted }
  | .quickCheck databaseExisted =>
      some (quickCheck sqlite s databaseExisted (.applySchema databaseExisted))
  | .applySchema databaseExisted =>
      some { (if databaseExisted then s else s.rewrite sqlite.migrated) with
        phase := .lastCheck databaseExisted }
  | .lastCheck databaseExisted => some (quickCheck sqlite s databaseExisted .ready)
  | .closeFailed quarantineRequired databaseExisted code =>
      some { closeDatabase sqlite s with phase := failWith quarantineRequired databaseExisted code }
  | .quarantine step => some (quarantine s step)
  | .ready | .ended _ => none

-- The phase after a step that threw: the handler, or the end of a handler that throws itself.
-- SQLite calls a database corrupt that is.
def fail (s : DataRoot) (code : PersistenceErrorCode) : Option Phase :=
  match s.phase with
  | .checkMarker => if code = .corruption then none else some (.closeFailed false false code)
  | .checkFile quarantineRequired =>
      if code = .corruption then none else some (.closeFailed quarantineRequired false code)
  | .checkSize quarantineRequired databaseExisted =>
      if code = .corruption then none
      else some (.closeFailed quarantineRequired databaseExisted code)
  | .openFile databaseExisted | .setJournalMode databaseExisted | .quickCheck databaseExisted
  | .applySchema databaseExisted | .lastCheck databaseExisted =>
      if code = .corruption ∧ s.isCorrupt sqlite = false then none
      else some (.closeFailed false databaseExisted code)
  | .closeFailed quarantineRequired databaseExisted code =>
      some (failWith quarantineRequired databaseExisted code)
  | .quarantine _ => some (.ended none)
  | .ready | .ended _ => none

def next (s : DataRoot) : Label → Option DataRoot
  | .start =>
      match s.phase with
      | .ended _ => some { s with connected := false, phase := .checkMarker }
      | _ => none
  | .advance => advance sqlite s
  | .fail code => (fail sqlite s code).map fun p => { s with phase := p }
  | .crash => some { s with connected := false, phase := .ended none }
  | .commit bytes =>
      match s.phase with
      | .ready => some { s with database := some bytes }
      | _ => none

def Step (s : DataRoot) (label : Label) (t : DataRoot) : Prop := next sqlite s label = some t

end Steps

section Permanence

variable {sqlite : Sqlite} {s t : DataRoot} {label : Label}

def FindsCorrupt (s : DataRoot) : Prop := s.phase = .closeFailed false true .corruption

def Phase.opening : Phase → Bool
  | .checkFile false | .checkSize false _ | .openFile _ | .setJournalMode _ | .quickCheck _
  | .applySchema _ | .lastCheck _ | .ready => true
  | _ => false

def Phase.early : Phase → Bool
  | .checkMarker | .checkFile _ | .checkSize _ _ => true
  | _ => false

def Phase.onBadFile (sqlite : Sqlite) (bytes : Bytes) : Phase → Bool
  | .ended _ | .checkMarker | .checkFile _ | .closeFailed _ _ _ | .quarantine .findFile
  | .quarantine .writeMarker => true
  | .checkSize quarantineRequired databaseExisted => quarantineRequired || databaseExisted
  | .openFile databaseExisted | .setJournalMode databaseExisted | .quickCheck databaseExisted =>
      databaseExisted && sqlite.corrupt bytes
  | _ => false

def Bad (sqlite : Sqlite) (bytes : Bytes) : Prop := bytes = [] ∨ sqlite.corrupt bytes = true

def Condemned (sqlite : Sqlite) (s : DataRoot) : Prop :=
  (s.marker = true ∧ s.phase.opening = false) ∨
    s.marker = false ∧ ∃ bytes, s.database = some bytes ∧ Bad sqlite bytes ∧
      (s.connected = true → sqlite.corrupt bytes = true) ∧ s.phase.onBadFile sqlite bytes = true

theorem failWith_opening (quarantineRequired databaseExisted : Bool) (code : PersistenceErrorCode) :
    (failWith quarantineRequired databaseExisted code).opening = false := by
  rw [failWith]
  split <;> rfl

theorem failWith_onBadFile (quarantineRequired databaseExisted : Bool)
    (code : PersistenceErrorCode) (bytes : Bytes) :
    (failWith quarantineRequired databaseExisted code).onBadFile sqlite bytes = true := by
  rw [failWith]
  split <;> rfl

theorem failWith_rest (quarantineRequired databaseExisted : Bool) (code : PersistenceErrorCode) :
    (failWith quarantineRequired databaseExisted code).early = false ∧
      failWith quarantineRequired databaseExisted code ≠ .closeFailed false true .corruption := by
  rw [failWith]
  split <;> exact ⟨rfl, nofun⟩

theorem checkSize_onBadFile {bytes : Bytes} {quarantineRequired databaseExisted : Bool}
    (hdatabase : s.database = some bytes) (hbad : Bad sqlite bytes)
    (hphase : quarantineRequired = true ∨ databaseExisted = true) :
    (checkSize s quarantineRequired databaseExisted).onBadFile sqlite bytes = true := by
  rw [checkSize, hdatabase]
  split
  · rfl
  · rename_i hrequired
    rw [if_pos (hphase.resolve_left hrequired)]
    dsimp only
    split
    · rfl
    · rename_i hempty
      rw [hphase.resolve_left hrequired, Phase.onBadFile, hbad.resolve_left hempty]
      rfl

theorem closeDatabase_kept :
    (closeDatabase sqlite s).marker = s.marker ∧ (closeDatabase sqlite s).created = s.created := by
  rw [closeDatabase]
  split <;> exact ⟨rfl, rfl⟩

theorem after_opening (next : QuarantineNext) : (Phase.after next).opening = false := by
  cases next <;> rfl

theorem after_rest (next : QuarantineNext) :
    (Phase.after next).early = false ∧ Phase.after next ≠ .closeFailed false true .corruption := by
  cases next <;> exact ⟨rfl, nofun⟩

theorem advance_marked (h : advance sqlite s = some t) (hmarker : s.marker = true)
    (hphase : s.phase.opening = false) :
    t.marker = true ∧ t.phase.opening = false ∧ t.created = s.created := by
  cases hp : s.phase with
  | checkMarker =>
    simp only [advance, hp] at h
    obtain rfl := Option.some.inj h
    exact ⟨hmarker, by simp [hmarker, Phase.opening], rfl⟩
  | checkFile quarantineRequired =>
    rw [hp] at hphase
    simp only [advance, hp] at h
    obtain rfl := Option.some.inj h
    cases quarantineRequired
    · cases hphase
    · exact ⟨hmarker, rfl, rfl⟩
  | checkSize quarantineRequired databaseExisted =>
    rw [hp] at hphase
    simp only [advance, hp] at h
    obtain rfl := Option.some.inj h
    cases quarantineRequired
    · cases hphase
    · exact ⟨hmarker, rfl, rfl⟩
  | closeFailed quarantineRequired databaseExisted code =>
    simp only [advance, hp] at h
    obtain rfl := Option.some.inj h
    exact ⟨closeDatabase_kept.1.trans hmarker, failWith_opening _ _ _, closeDatabase_kept.2⟩
  | quarantine step =>
    simp only [advance, hp] at h
    obtain rfl := Option.some.inj h
    exact ⟨quarantineDatabase_marked hmarker step, after_opening _, rfl⟩
  | ended | ready =>
    simp only [advance, hp] at h
    cases h
  | openFile | setJournalMode | quickCheck | applySchema | lastCheck =>
    rw [hp] at hphase
    cases hphase

theorem closeDatabase_condemned {bytes : Bytes} {p : Phase} (hdatabase : s.database = some bytes)
    (hbad : Bad sqlite bytes) (hconnected : s.connected = true → sqlite.corrupt bytes = true)
    (hmarker : s.marker = false) (hp : ∀ bytes, p.onBadFile sqlite bytes = true) :
    Condemned sqlite { closeDatabase sqlite s with phase := p } := by
  rw [closeDatabase]
  split
  · rename_i hopen
    have hclosed := sqlite.closed_corrupt bytes (hconnected hopen)
    exact .inr ⟨hmarker, sqlite.closed bytes, congrArg (Option.map sqlite.closed) hdatabase,
      .inr hclosed, nofun, hp _⟩
  · exact .inr ⟨hmarker, bytes, hdatabase, hbad, hconnected, hp bytes⟩

theorem quarantine_condemned {bytes : Bytes} {step : QuarantineStep}
    (hdatabase : s.database = some bytes) (hbad : Bad sqlite bytes)
    (hconnected : s.connected = true → sqlite.corrupt bytes = true) (hmarker : s.marker = false)
    (hstep : (Phase.quarantine step).onBadFile sqlite bytes = true) :
    Condemned sqlite (quarantine s step) := by
  cases step with
  | findFile =>
    simp only [quarantine, quarantineDatabase, hdatabase, Option.isSome_some, if_true]
    exact .inr ⟨hmarker, bytes, hdatabase, hbad, hconnected, rfl⟩
  | writeMarker =>
    simp only [quarantine, quarantineDatabase, hmarker, Bool.false_eq_true, if_false]
    exact .inl ⟨rfl, rfl⟩
  | renameFile | findSidecar | renameSidecar => cases hstep

theorem advance_bad {bytes : Bytes} (h : advance sqlite s = some t)
    (hdatabase : s.database = some bytes) (hbad : Bad sqlite bytes)
    (hconnected : s.connected = true → sqlite.corrupt bytes = true) (hmarker : s.marker = false)
    (hphase : s.phase.onBadFile sqlite bytes = true) :
    Condemned sqlite t ∧ t.created = s.created := by
  have hstays {p : Phase} (hp : p.onBadFile sqlite bytes = true) :
      Condemned sqlite { s with phase := p } :=
    .inr ⟨hmarker, bytes, hdatabase, hbad, hconnected, hp⟩
  cases hp : s.phase with
  | checkMarker =>
    simp only [advance, hp] at h
    obtain rfl := Option.some.inj h
    exact ⟨hstays rfl, rfl⟩
  | checkFile quarantineRequired =>
    simp only [advance, hp] at h
    obtain rfl := Option.some.inj h
    exact ⟨hstays (by simp [Phase.onBadFile, hdatabase]), rfl⟩
  | checkSize quarantineRequired databaseExisted =>
    rw [hp] at hphase
    simp only [advance, hp] at h
    obtain rfl := Option.some.inj h
    exact ⟨hstays (checkSize_onBadFile hdatabase hbad (Bool.or_eq_true_iff.mp hphase)), rfl⟩
  | openFile databaseExisted =>
    rw [hp] at hphase
    obtain ⟨rfl, hcorrupt⟩ := Bool.and_eq_true_iff.mp hphase
    simp only [advance, hp, hdatabase] at h
    obtain rfl := Option.some.inj h
    exact ⟨.inr ⟨hmarker, bytes, hdatabase, hbad, fun _ => hcorrupt, by
      simp [Phase.onBadFile, hcorrupt]⟩, rfl⟩
  | setJournalMode databaseExisted =>
    rw [hp] at hphase
    obtain ⟨rfl, hcorrupt⟩ := Bool.and_eq_true_iff.mp hphase
    have hjournaled := sqlite.journaled_corrupt bytes hcorrupt
    simp only [advance, hp] at h
    obtain rfl := Option.some.inj h
    exact ⟨.inr ⟨hmarker, sqlite.journaled bytes, congrArg (Option.map sqlite.journaled) hdatabase,
      .inr hjournaled, fun _ => hjournaled, by simp [Phase.onBadFile, hjournaled]⟩, rfl⟩
  | quickCheck databaseExisted =>
    rw [hp] at hphase
    obtain ⟨rfl, hcorrupt⟩ := Bool.and_eq_true_iff.mp hphase
    simp only [advance, hp] at h
    obtain rfl := Option.some.inj h
    refine ⟨?_, rfl⟩
    rw [quickCheck, if_pos (by rw [DataRoot.isCorrupt, hdatabase, Option.any_some, hcorrupt])]
    exact hstays rfl
  | closeFailed quarantineRequired databaseExisted code =>
    simp only [advance, hp] at h
    obtain rfl := Option.some.inj h
    exact ⟨closeDatabase_condemned hdatabase hbad hconnected hmarker (failWith_onBadFile _ _ _),
      closeDatabase_kept.2⟩
  | quarantine step =>
    rw [hp] at hphase
    simp only [advance, hp] at h
    obtain rfl := Option.some.inj h
    exact ⟨quarantine_condemned hdatabase hbad hconnected hmarker hphase, rfl⟩
  | ended | ready =>
    simp only [advance, hp] at h
    cases h
  | applySchema | lastCheck =>
    rw [hp] at hphase
    cases hphase

theorem fail_phase {code : PersistenceErrorCode} {p : Phase} (h : fail sqlite s code = some p) :
    p.opening = false ∧ p.early = false ∧ ∀ bytes, p.onBadFile sqlite bytes = true := by
  have hclose {c : Prop} [Decidable c] {quarantineRequired databaseExisted : Bool}
      {code : PersistenceErrorCode} (h : (if c then none
        else some (.closeFailed quarantineRequired databaseExisted code)) = some p) :
      p.opening = false ∧ p.early = false ∧ ∀ bytes, p.onBadFile sqlite bytes = true := by
    split at h
    · cases h
    · obtain rfl := Option.some.inj h
      exact ⟨rfl, rfl, fun _ => rfl⟩
  cases hp : s.phase with
  | checkMarker | checkFile | checkSize | openFile | setJournalMode | quickCheck | applySchema
  | lastCheck =>
    simp only [fail, hp] at h
    exact hclose h
  | closeFailed =>
    simp only [fail, hp] at h
    obtain rfl := Option.some.inj h
    exact ⟨failWith_opening _ _ _, (failWith_rest _ _ _).1, failWith_onBadFile _ _ _⟩
  | quarantine =>
    simp only [fail, hp] at h
    obtain rfl := Option.some.inj h
    exact ⟨rfl, rfl, fun _ => rfl⟩
  | ended | ready =>
    simp only [fail, hp] at h
    cases h

theorem next_condemned (h : next sqlite s label = some t) (hs : Condemned sqlite s) :
    Condemned sqlite t ∧ t.created = s.created := by
  cases label with
  | start =>
    unfold next at h
    dsimp only at h
    split at h
    · obtain rfl := Option.some.inj h
      refine ⟨?_, rfl⟩
      obtain ⟨hmarker, -⟩ | ⟨hmarker, bytes, hdatabase, hbad, -, -⟩ := hs
      · exact .inl ⟨hmarker, rfl⟩
      · exact .inr ⟨hmarker, bytes, hdatabase, hbad, nofun, rfl⟩
    · cases h
  | advance =>
    obtain ⟨hmarker, hphase⟩ | ⟨hmarker, bytes, hdatabase, hbad, hconnected, hphase⟩ := hs
    · obtain ⟨hmarker, hphase, hcreated⟩ := advance_marked h hmarker hphase
      exact ⟨.inl ⟨hmarker, hphase⟩, hcreated⟩
    · exact advance_bad h hdatabase hbad hconnected hmarker hphase
  | fail code =>
    obtain ⟨p, hp, rfl⟩ := Option.map_eq_some_iff.mp h
    obtain ⟨hopening, -, hbadFile⟩ := fail_phase hp
    refine ⟨?_, rfl⟩
    obtain ⟨hmarker, -⟩ | ⟨hmarker, bytes, hdatabase, hbad, hconnected, -⟩ := hs
    · exact .inl ⟨hmarker, hopening⟩
    · exact .inr ⟨hmarker, bytes, hdatabase, hbad, hconnected, hbadFile bytes⟩
  | crash =>
    obtain rfl := Option.some.inj h
    refine ⟨?_, rfl⟩
    obtain ⟨hmarker, -⟩ | ⟨hmarker, bytes, hdatabase, hbad, -, -⟩ := hs
    · exact .inl ⟨hmarker, rfl⟩
    · exact .inr ⟨hmarker, bytes, hdatabase, hbad, nofun, rfl⟩
  | commit bytes =>
    unfold next at h
    dsimp only at h
    split at h
    · rename_i hready
      obtain ⟨-, hphase⟩ | ⟨-, _, -, -, -, hphase⟩ := hs <;> rw [hready] at hphase <;> cases hphase
    · cases h

theorem run_condemned {labels : List Label} (h : Run (Step sqlite) s labels t)
    (hs : Condemned sqlite s) : Condemned sqlite t ∧ t.created = s.created := by
  induction h with
  | nil => exact ⟨hs, rfl⟩
  | snoc _ hlast ih =>
    obtain ⟨hcondemned, hcreated⟩ := ih
    obtain ⟨hcondemned, hlast⟩ := next_condemned hlast hcondemned
    exact ⟨hcondemned, hlast.trans hcreated⟩

theorem Condemned.not_ready (h : Condemned sqlite s) : s.phase ≠ .ready := by
  intro hready
  obtain ⟨-, hphase⟩ | ⟨-, _, -, -, -, hphase⟩ := h <;> rw [hready] at hphase <;> cases hphase

structure Sound (sqlite : Sqlite) (s : DataRoot) : Prop where
  marked : s.marker = true → s.phase.opening = false
  unconnected : s.phase.early = true → s.connected = false
  found : FindsCorrupt s → ∃ bytes, s.database = some bytes ∧ Bad sqlite bytes ∧
    (s.connected = true → sqlite.corrupt bytes = true)

theorem corrupt_found (h : s.isCorrupt sqlite = true) :
    ∃ bytes, s.database = some bytes ∧ Bad sqlite bytes ∧
      (s.connected = true → sqlite.corrupt bytes = true) := by
  obtain ⟨bytes, hdatabase, hcorrupt⟩ := Option.any_eq_true _ _ |>.mp h
  exact ⟨bytes, hdatabase, .inr hcorrupt, fun _ => hcorrupt⟩

theorem checkSize_sound (h : Sound sqlite s) {quarantineRequired databaseExisted : Bool}
    (hp : s.phase = .checkSize quarantineRequired databaseExisted) :
    Sound sqlite { s with phase := checkSize s quarantineRequired databaseExisted } := by
  have hconnected := h.unconnected (by rw [hp]; rfl)
  have hmarked := h.marked
  rw [hp] at hmarked
  rw [checkSize]
  split
  · exact ⟨fun _ => rfl, nofun, by rename_i hrequired; rw [hrequired]; nofun⟩
  · rename_i hrequired
    rw [Bool.not_eq_true] at hrequired
    subst hrequired
    have hunmarked : s.marker = true → ∀ p : Phase, p.opening = false :=
      fun hmarker => absurd (hmarked hmarker) nofun
    split
    · split
      · exact ⟨fun _ => rfl, nofun, nofun⟩
      · rename_i bytes hdatabase
        split
        · rename_i hempty
          refine ⟨fun _ => rfl, nofun, fun _ => ⟨bytes, hdatabase, .inl hempty, fun htrue => ?_⟩⟩
          exact absurd (hconnected.symm.trans htrue) (by decide)
        · exact ⟨fun hmarker => hunmarked hmarker _, nofun, nofun⟩
    · exact ⟨fun hmarker => hunmarked hmarker _, nofun, nofun⟩

theorem quickCheck_sound (h : Sound sqlite s) (hp : s.phase.opening = true) {databaseExisted : Bool}
    {p : Phase} (hearly : p.early = false) (hfound : p ≠ .closeFailed false true .corruption) :
    Sound sqlite (quickCheck sqlite s databaseExisted p) := by
  have hunmarked : s.marker = true → ∀ p : Phase, p.opening = false :=
    fun hmarker => absurd (hp.symm.trans (h.marked hmarker)) (by decide)
  rw [quickCheck]
  split
  · rename_i hcorrupt
    exact ⟨fun _ => rfl, nofun, fun _ => corrupt_found hcorrupt⟩
  · exact ⟨fun hmarker => hunmarked hmarker _,
      fun htrue => absurd (htrue.symm.trans hearly) (by decide), fun heq => absurd heq hfound⟩

theorem advance_sound (h : Sound sqlite s) (hstep : advance sqlite s = some t) :
    Sound sqlite t := by
  have hunmarked (hp : s.phase.opening = true) : s.marker = true → ∀ p : Phase, p.opening = false :=
    fun hmarker => absurd (hp.symm.trans (h.marked hmarker)) (by decide)
  cases hp : s.phase with
  | checkMarker =>
    simp only [advance, hp] at hstep
    obtain rfl := Option.some.inj hstep
    refine ⟨fun hmarker => ?_, fun _ => h.unconnected (by rw [hp]; rfl), nofun⟩
    dsimp only at hmarker ⊢
    rw [hmarker]
    rfl
  | checkFile quarantineRequired =>
    have hmarked := h.marked
    rw [hp] at hmarked
    simp only [advance, hp] at hstep
    obtain rfl := Option.some.inj hstep
    refine ⟨fun hmarker => ?_, fun _ => h.unconnected (by rw [hp]; rfl), nofun⟩
    cases quarantineRequired
    · exact absurd (hmarked hmarker) (by decide)
    · rfl
  | checkSize quarantineRequired databaseExisted =>
    simp only [advance, hp] at hstep
    obtain rfl := Option.some.inj hstep
    exact checkSize_sound h hp
  | openFile databaseExisted =>
    have hnone := hunmarked (by rw [hp]; rfl)
    simp only [advance, hp] at hstep
    split at hstep <;> obtain rfl := Option.some.inj hstep <;>
      exact ⟨fun hmarker => hnone hmarker _, nofun, nofun⟩
  | setJournalMode databaseExisted =>
    have hnone := hunmarked (by rw [hp]; rfl)
    simp only [advance, hp] at hstep
    obtain rfl := Option.some.inj hstep
    exact ⟨fun hmarker => hnone hmarker _, nofun, nofun⟩
  | quickCheck databaseExisted =>
    simp only [advance, hp] at hstep
    obtain rfl := Option.some.inj hstep
    exact quickCheck_sound h (by rw [hp]; rfl) rfl nofun
  | applySchema databaseExisted =>
    have hnone := hunmarked (by rw [hp]; rfl)
    simp only [advance, hp] at hstep
    obtain rfl := Option.some.inj hstep
    cases databaseExisted <;> exact ⟨fun hmarker => hnone hmarker _, nofun, nofun⟩
  | lastCheck databaseExisted =>
    simp only [advance, hp] at hstep
    obtain rfl := Option.some.inj hstep
    exact quickCheck_sound h (by rw [hp]; rfl) rfl nofun
  | closeFailed quarantineRequired databaseExisted code =>
    obtain ⟨hearly, hfound⟩ := failWith_rest quarantineRequired databaseExisted code
    simp only [advance, hp] at hstep
    obtain rfl := Option.some.inj hstep
    exact ⟨fun _ => failWith_opening _ _ _,
      fun htrue => absurd (htrue.symm.trans hearly) (by decide), fun heq => absurd heq hfound⟩
  | quarantine step =>
    obtain ⟨hearly, hfound⟩ := after_rest (quarantineDatabase s.toAuthorityFiles step).2
    simp only [advance, hp] at hstep
    obtain rfl := Option.some.inj hstep
    exact ⟨fun _ => after_opening _,
      fun htrue => absurd (htrue.symm.trans hearly) (by decide), fun heq => absurd heq hfound⟩
  | ended | ready =>
    simp only [advance, hp] at hstep
    cases hstep

theorem Sound.condemned (h : Sound sqlite s) (hs : FindsCorrupt s ∨ s.marker = true) :
    Condemned sqlite s := by
  cases hmarker : s.marker with
  | true => exact .inl ⟨hmarker, h.marked hmarker⟩
  | false =>
    obtain hfound | htrue := hs
    · obtain ⟨bytes, hdatabase, hbad, hconnected⟩ := h.found hfound
      refine .inr ⟨hmarker, bytes, hdatabase, hbad, hconnected, ?_⟩
      rw [hfound]
      rfl
    · exact absurd (htrue.symm.trans hmarker) (by decide)

theorem fail_found {code : PersistenceErrorCode}
    (hstep : fail sqlite s code = some (.closeFailed false true .corruption)) :
    ∃ bytes, s.database = some bytes ∧ Bad sqlite bytes ∧
      (s.connected = true → sqlite.corrupt bytes = true) := by
  have hsqlite {databaseExisted : Bool} (hstep : (if code = .corruption ∧
      s.isCorrupt sqlite = false then none else some (.closeFailed false databaseExisted code)) =
        some (Phase.closeFailed false true .corruption)) : s.isCorrupt sqlite = true := by
    split at hstep
    · cases hstep
    · rename_i hallowed
      obtain rfl : code = .corruption := (Phase.closeFailed.inj (Option.some.inj hstep)).2.2
      exact Bool.not_eq_false _ |>.mp fun hfalse => hallowed ⟨rfl, hfalse⟩
  have hother {q e : Bool} (hstep : (if code = .corruption then none
      else some (.closeFailed q e code)) = some (Phase.closeFailed false true .corruption)) :
      False := by
    split at hstep
    · cases hstep
    · rename_i hcode
      exact hcode (Phase.closeFailed.inj (Option.some.inj hstep)).2.2
  cases hp : s.phase with
  | openFile | setJournalMode | quickCheck | applySchema | lastCheck =>
    simp only [fail, hp] at hstep
    exact corrupt_found (hsqlite hstep)
  | checkMarker | checkFile | checkSize =>
    simp only [fail, hp] at hstep
    exact (hother hstep).elim
  | closeFailed =>
    simp only [fail, hp] at hstep
    exact absurd (Option.some.inj hstep) (failWith_rest _ _ _).2
  | quarantine | ended | ready =>
    simp only [fail, hp] at hstep
    cases hstep

theorem next_sound (h : Sound sqlite s) (hstep : next sqlite s label = some t) :
    Sound sqlite t := by
  cases label with
  | start =>
    unfold next at hstep
    dsimp only at hstep
    split at hstep
    · obtain rfl := Option.some.inj hstep
      exact ⟨fun _ => rfl, fun _ => rfl, nofun⟩
    · cases hstep
  | advance => exact advance_sound h hstep
  | fail code =>
    obtain ⟨p, hp, rfl⟩ := Option.map_eq_some_iff.mp hstep
    obtain ⟨hopening, hearly, -⟩ := fail_phase hp
    refine ⟨fun _ => hopening, fun htrue => absurd (htrue.symm.trans hearly) (by decide),
      fun hfound => ?_⟩
    have hcorrupt := @fail_found sqlite s code (hp.trans (congrArg some hfound))
    exact hcorrupt
  | crash =>
    obtain rfl := Option.some.inj hstep
    exact ⟨fun _ => rfl, nofun, nofun⟩
  | commit bytes =>
    have hready : s.phase = .ready := by
      unfold next at hstep
      dsimp only at hstep
      split at hstep
      · assumption
      · cases hstep
    simp only [next, hready] at hstep
    obtain rfl := Option.some.inj hstep
    have hmarked := h.marked
    rw [hready] at hmarked
    exact ⟨fun hmarker => absurd (hmarked hmarker) nofun, nofun, nofun⟩

end Permanence

theorem quarantine_is_permanent (sqlite : Sqlite) {r s t : DataRoot} {before labels : List Label}
    {error : Option PersistenceErrorCode} (hstart : r.phase = .ended error)
    (hrun : Run (Step sqlite) r before s) (hfound : FindsCorrupt s ∨ s.marker = true)
    (hlater : Run (Step sqlite) s labels t) : t.phase ≠ .ready ∧ t.created = s.created := by
  have hr : Sound sqlite r :=
    ⟨fun _ => by rw [hstart]; rfl, by rw [hstart]; nofun, by rw [FindsCorrupt, hstart]; nofun⟩
  have hs := hrun.invariant (fun _ _ _ hstep hsound => next_sound hsound hstep) hr
  obtain ⟨hcondemned, hcreated⟩ := run_condemned hlater (hs.condemned hfound)
  exact ⟨hcondemned.not_ready, hcreated⟩

section Samples

def sampleSqlite : Sqlite where
  corrupt bytes := bytes.head? != some 83
  journaled bytes := bytes ++ [1]
  migrated bytes := bytes ++ [2]
  closed := id
  closedSidecars _ sidecar := if sidecar = .wal then some () else none
  journaled_corrupt b h := by
    cases b with
    | nil => rfl
    | cons c b => exact h
  closed_corrupt _ h := h

def damagedRoot : DataRoot where
  database := some [7]
  sidecars sidecar := if sidecar = .wal then some () else none
  marker := false
  quarantined := []
  quarantinedSidecars := []
  created := 0
  connected := false
  phase := .ended none

def openUntilFound : List Label :=
  [.start, .advance, .advance, .advance, .advance, .advance, .advance]

def crashAndReopen : List Label :=
  .advance :: .advance :: .crash :: openUntilFound ++ List.replicate 7 .advance

def replayed (r : DataRoot) (labels : List Label) : DataRoot :=
  (replay (next sampleSqlite) r labels).getD r

theorem sample_quarantine_is_permanent :
    let s := replayed damagedRoot openUntilFound
    let t := replayed s crashAndReopen
    FindsCorrupt s ∧ t.marker = true ∧ t.database = none ∧ t.phase ≠ .ready ∧
      t.created = s.created := by
  refine ⟨rfl, rfl, rfl, ?_⟩
  exact @quarantine_is_permanent sampleSqlite damagedRoot (replayed damagedRoot openUntilFound)
    (replayed (replayed damagedRoot openUntilFound) crashAndReopen) openUntilFound crashAndReopen
    none rfl (run_of_replay rfl) (.inl rfl) (run_of_replay rfl)

end Samples

end Quarantine

end Aseos.Persistence
