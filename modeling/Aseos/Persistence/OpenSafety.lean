import Aseos.Persistence.OpenSequence

namespace Aseos.Persistence

namespace OpenSequence

open TransitionSystem

variable {Worker Event : Type}

section Invariant

def Condemns (s : DataRoot Worker Event) (v : Worker) : Prop :=
  s.phase v = .quarantine .renameFile ∨
    s.marker = false ∧ (s.phase v = .quarantine .findFile ∨ s.phase v = .quarantine .writeMarker)

def Abandoned (s : DataRoot Worker Event) : Prop :=
  ∃ file, s.database = some file ∧ (s.files file).content = .empty ∧
    ∀ u, (s.phase u).file ≠ some file ∧ (s.phase u).opens = false

structure OpenInvariant (s : DataRoot Worker Event) : Prop where
  used : ∀ v file, (s.phase v).file = some file → s.database = some file
  existing : ∀ v, s.phase v = .openFile true →
    ∃ file, s.database = some file ∧ (s.files file).content ≠ .empty
  journaled : ∀ v file, (s.phase v).journaled = some file →
    (s.files file).content ≠ .empty ∧ ∀ sidecar, s.sidecars sidecar = some file
  beside : ∀ sidecar file, s.sidecars sidecar = some file →
    s.database = some file ∧ (s.files file).content ≠ .empty
  kept : ∀ file, (s.files file).events ≠ [] ∨ (s.files file).logged ≠ [] →
    s.database = some file ∧ (s.files file).content ≠ .empty
  logged : ∀ file, (s.files file).logged ≠ [] → s.sidecars .wal = some file
  renamer : ∀ v, s.phase v = .quarantine .renameFile →
    s.marker = true ∧ ∀ u, s.phase u = .quarantine .renameFile → u = v
  finder : ∀ v sidecar, s.phase v ≠ .quarantine (.renameSidecar sidecar)
  condemned : ∀ v, Condemns s v → Abandoned s

theorem initial_invariant : OpenInvariant (.initial : DataRoot Worker Event) where
  used _ _ h := by cases h
  existing _ h := by cases h
  journaled _ _ h := by cases h
  beside _ _ h := by cases h
  kept _ h := by rcases h with h | h <;> exact absurd rfl h
  logged _ h := absurd rfl h
  renamer _ h := by cases h
  finder _ _ h := by cases h
  condemned _ h := by rcases h with h | ⟨-, h | h⟩ <;> cases h

variable {s : DataRoot Worker Event} {w : Worker}

theorem journaled_file {p : Phase} {file : ℕ} (h : p.journaled = some file) :
    p.file = some file := by
  cases p <;> first | exact h | cases h

theorem OpenInvariant.live (h : OpenInvariant s) {file : ℕ} (hw : (s.phase w).file = some file)
    (v : Worker) : ¬ Condemns s v := by
  intro hv
  obtain ⟨other, hother, -, hunused⟩ := h.condemned v hv
  have hsame := (h.used w file hw).symm.trans hother
  exact (hunused w).1 (hw.trans hsame)

theorem OpenInvariant.filled (h : OpenInvariant s) {file : ℕ} (hdatabase : s.database = some file)
    (hcontent : (s.files file).content ≠ .empty) (v : Worker) : ¬ Condemns s v := by
  intro hv
  obtain ⟨other, hother, hempty, -⟩ := h.condemned v hv
  obtain rfl : file = other := Option.some.inj (hdatabase.symm.trans hother)
  exact hcontent hempty

theorem files_write (file other : ℕ) (contents : DatabaseFile Event)
    (sidecars : Sidecar → Option ℕ) :
    (s.write file contents sidecars).files other =
      if other = file then contents else s.files other :=
  Function.update_apply _ _ _ other

theorem OpenInvariant.write (h : OpenInvariant s) {file : ℕ} (hdatabase : s.database = some file)
    (hcalm : ∀ v, ¬ Condemns s v) {contents : DatabaseFile Event}
    {sidecars : Sidecar → Option ℕ} (hcontent : contents.content ≠ .empty)
    (hsidecars : ∀ sidecar other, sidecars sidecar = some other → other = file)
    (hjournaled : ∀ v, (s.phase v).journaled = some file → ∀ sidecar, sidecars sidecar = some file)
    (hlogged : contents.logged ≠ [] → sidecars .wal = some file) :
    OpenInvariant (s.write file contents sidecars) := by
  have hfile : (s.write file contents sidecars).files file = contents := by
    rw [files_write, if_pos rfl]
  have hkept (other : ℕ) (hother : (s.files other).content ≠ .empty) :
      ((s.write file contents sidecars).files other).content ≠ .empty := by
    rw [files_write]
    split
    · exact hcontent
    · exact hother
  have honly (other : ℕ) (hne : other ≠ file) :
      (s.files other).events = [] ∧ (s.files other).logged = [] := by
    by_contra hsome
    have hother := (h.kept other (by tauto)).1
    exact hne (Option.some.inj (hother.symm.trans hdatabase))
  refine ⟨h.used, fun v hv => ?_, fun v other hv => ?_, fun sidecar other hother => ?_,
    fun other hother => ?_, fun other hother => ?_, h.renamer, h.finder,
    fun v hv => absurd hv (hcalm v)⟩
  · obtain ⟨other, hother, hne⟩ := h.existing v hv
    exact ⟨other, hother, hkept other hne⟩
  · obtain rfl : other = file :=
      Option.some.inj ((h.used v other (journaled_file hv)).symm.trans hdatabase)
    exact ⟨hkept other (h.journaled v other hv).1, hjournaled v hv⟩
  · obtain rfl := hsidecars sidecar other hother
    refine ⟨hdatabase, ?_⟩
    rw [hfile]
    exact hcontent
  · by_cases heq : other = file
    · subst heq
      refine ⟨hdatabase, ?_⟩
      rw [hfile]
      exact hcontent
    · rw [files_write, if_neg heq] at hother
      exact absurd hother (by simp [honly other heq])
  · by_cases heq : other = file
    · subst heq
      rw [hfile] at hother
      exact hlogged hother
    · rw [files_write, if_neg heq] at hother
      exact absurd (honly other heq).2 hother

theorem setJournalMode_invariant (h : OpenInvariant s) {file : ℕ}
    (hw : (s.phase w).file = some file) :
    OpenInvariant (setJournalMode s file) ∧ ((setJournalMode s file).files file).content ≠ .empty ∧
      ∀ sidecar, (setJournalMode s file).sidecars sidecar = some file := by
  have hdatabase := h.used w file hw
  have hbeside (sidecar : Sidecar) : (s.sidecars sidecar).or (some file) = some file := by
    cases hside : s.sidecars sidecar with
    | none => rfl
    | some other =>
      obtain rfl := Option.some.inj (hdatabase.symm.trans (h.beside sidecar other hside).1)
      rfl
  rw [setJournalMode]
  split
  · refine ⟨h.write hdatabase (h.live hw) (by simp) (fun _ _ hother => ?_) (fun _ _ _ => rfl)
      fun _ => rfl, ?_, fun _ => rfl⟩
    · exact (Option.some.inj hother).symm
    · rw [files_write, if_pos rfl]
      simp
  · rename_i hcontent
    refine ⟨h.write hdatabase (h.live hw) hcontent (fun sidecar _ hother => ?_)
      (fun _ _ => hbeside) fun _ => hbeside .wal, ?_, hbeside⟩
    · exact (Option.some.inj ((hbeside sidecar).symm.trans hother)).symm
    · rw [files_write, if_pos rfl]
      exact hcontent

theorem OpenInvariant.rewrite (h : OpenInvariant s) {file : ℕ}
    (hw : (s.phase w).journaled = some file) {contents : DatabaseFile Event}
    (hcontent : contents.content ≠ .empty) : OpenInvariant (s.write file contents s.sidecars) := by
  have hdatabase := h.used w file (journaled_file hw)
  refine h.write hdatabase (h.live (journaled_file hw)) hcontent (fun sidecar other hside => ?_)
    (fun v hv => (h.journaled v file hv).2) fun _ => (h.journaled w file hw).2 .wal
  exact Option.some.inj ((h.beside sidecar other hside).1.symm.trans hdatabase)

theorem OpenInvariant.vacant (h : OpenInvariant s) (hnone : s.database = none) :
    (∀ v file, (s.phase v).file ≠ some file) ∧ (∀ v, s.phase v ≠ .openFile true) ∧
      (∀ v, ¬ Condemns s v) ∧ (∀ sidecar file, s.sidecars sidecar ≠ some file) ∧
      ∀ file, ¬ ((s.files file).events ≠ [] ∨ (s.files file).logged ≠ []) := by
  have hmissing {file : ℕ} (hdatabase : s.database = some file) : False := by
    rw [hnone] at hdatabase
    cases hdatabase
  refine ⟨fun v file hv => hmissing (h.used v file hv), fun v hv => ?_, fun v hv => ?_,
    fun sidecar file hside => hmissing (h.beside sidecar file hside).1,
    fun file hfile => hmissing (h.kept file hfile).1⟩
  · obtain ⟨file, hdatabase, -⟩ := h.existing v hv
    exact hmissing hdatabase
  · obtain ⟨file, hdatabase, -⟩ := h.condemned v hv
    exact hmissing hdatabase

theorem OpenInvariant.create (h : OpenInvariant s) (hnone : s.database = none) :
    OpenInvariant ({ s.write s.created ⟨.empty, [], []⟩ s.sidecars with
      database := some s.created
      created := s.created + 1 } : DataRoot Worker Event) := by
  obtain ⟨hunused, hfresh, hcalm, hbeside, hwritten⟩ := h.vacant hnone
  have hempty (file : ℕ) :
      ¬ (((s.write s.created ⟨.empty, [], []⟩ s.sidecars).files file).events ≠ []
        ∨ ((s.write s.created ⟨.empty, [], []⟩ s.sidecars).files file).logged ≠ []) := by
    rw [files_write]
    split
    · simp
    · exact hwritten file
  exact ⟨fun v file hv => absurd hv (hunused v file), fun v hv => absurd hv (hfresh v),
    fun v file hv => absurd (journaled_file hv) (hunused v file),
    fun sidecar file hside => absurd hside (hbeside sidecar file),
    fun file hfile => absurd hfile (hempty file), fun file hfile => absurd (.inr hfile) (hempty file),
    fun v hv => absurd (.inl hv) (hcalm v), h.finder, fun v hv => absurd hv (hcalm v)⟩

theorem OpenInvariant.vacate (h : OpenInvariant s) (habandoned : Abandoned s)
    (hcalm : ∀ v, ¬ Condemns s v) (quarantined : List ℕ) :
    OpenInvariant ({ s with
      database := none, quarantined := quarantined } : DataRoot Worker Event) := by
  obtain ⟨file, hdatabase, hempty, hunused⟩ := habandoned
  have hclosed (v : Worker) (f : ℕ) : (s.phase v).file ≠ some f := by
    intro hv
    have hsame := h.used v f hv
    rw [hdatabase] at hsame
    exact (hunused v).1 (hv.trans hsame.symm)
  have hfilled {f : ℕ} (hf : s.database = some f) : ¬ (s.files f).content ≠ .empty := by
    obtain rfl : file = f := Option.some.inj (hdatabase.symm.trans hf)
    exact not_not.mpr hempty
  have hfresh (v : Worker) : s.phase v ≠ .openFile true := by
    intro hv
    exact absurd (hunused v).2 (by simp [hv, Phase.opens])
  exact ⟨fun v f hv => absurd hv (hclosed v f), fun v hv => absurd hv (hfresh v), h.journaled,
    fun sidecar f hside => absurd (h.beside sidecar f hside).2 (hfilled (h.beside sidecar f hside).1),
    fun f hf => absurd (h.kept f hf).2 (hfilled (h.kept f hf).1), h.logged, h.renamer, h.finder,
    fun v hv => absurd hv (hcalm v)⟩

variable [DecidableEq Worker]

theorem phase_move (p : Phase) (v : Worker) :
    (s.move w p).phase v = if v = w then p else s.phase v :=
  Function.update_apply _ _ _ v

theorem abandoned_move (h : Abandoned s) {p : Phase} (hfile : p.file = none)
    (hopens : p.opens = false) : Abandoned (s.move w p) := by
  obtain ⟨file, hdatabase, hempty, hunused⟩ := h
  refine ⟨file, hdatabase, hempty, fun u => ?_⟩
  rw [phase_move]
  split
  · exact ⟨by simp [hfile], hopens⟩
  · exact hunused u

theorem OpenInvariant.move (h : OpenInvariant s) {p : Phase}
    (hfile : ∀ file, p.file = some file → s.database = some file)
    (hexisting : p = .openFile true →
      ∃ file, s.database = some file ∧ (s.files file).content ≠ .empty)
    (hjournaled : ∀ file, p.journaled = some file →
      (s.files file).content ≠ .empty ∧ ∀ sidecar, s.sidecars sidecar = some file)
    (hrenames : p = .quarantine .renameFile →
      s.marker = true ∧ ∀ u, s.phase u ≠ .quarantine .renameFile)
    (hsidecar : ∀ sidecar, p ≠ .quarantine (.renameSidecar sidecar))
    (habandoned : Abandoned s → p.file = none ∧ p.opens = false)
    (hcondemns : p = .quarantine .renameFile ∨
      s.marker = false ∧ (p = .quarantine .findFile ∨ p = .quarantine .writeMarker) →
      Abandoned (s.move w p)) :
    OpenInvariant (s.move w p) := by
  refine ⟨fun v file hv => ?_, fun v hv => ?_, fun v file hv => ?_, h.beside, h.kept, h.logged,
    fun v hv => ?_, fun v sidecar hv => ?_, fun v hv => ?_⟩
  · rw [phase_move] at hv
    split at hv
    · exact hfile file hv
    · exact h.used v file hv
  · rw [phase_move] at hv
    split at hv
    · exact hexisting hv
    · exact h.existing v hv
  · rw [phase_move] at hv
    split at hv
    · exact hjournaled file hv
    · exact h.journaled v file hv
  · rw [phase_move] at hv
    split at hv
    · rename_i hsame
      obtain ⟨hmarker, hnone⟩ := hrenames hv
      refine ⟨hmarker, fun u hu => ?_⟩
      rw [phase_move] at hu
      split at hu
      · rename_i hsame'
        exact hsame'.trans hsame.symm
      · exact absurd hu (hnone u)
    · refine ⟨(h.renamer v hv).1, fun u hu => ?_⟩
      rw [phase_move] at hu
      split at hu
      · exact absurd hv ((hrenames hu).2 v)
      · exact (h.renamer v hv).2 u hu
  · rw [phase_move] at hv
    split at hv
    · exact hsidecar sidecar hv
    · exact h.finder v sidecar hv
  · rw [Condemns, phase_move] at hv
    split at hv
    · exact hcondemns hv
    · have hold := h.condemned v hv
      exact abandoned_move hold (habandoned hold).1 (habandoned hold).2

theorem OpenInvariant.rest (h : OpenInvariant s) {p : Phase} (hfile : p.file = none)
    (hopens : p.opens = false)
    (hquarantine : ∀ step, p = .quarantine step → ∃ sidecar, step = .findSidecar sidecar) :
    OpenInvariant (s.move w p) := by
  have hother {step : QuarantineStep} (hp : p = .quarantine step)
      (hstep : ∀ sidecar, step ≠ .findSidecar sidecar) : False := by
    obtain ⟨sidecar, rfl⟩ := hquarantine step hp
    exact hstep sidecar rfl
  refine h.move (fun file hp => ?_) (fun hp => ?_) (fun file hp => ?_)
    (fun hp => (hother hp (by simp)).elim) (fun sidecar hp => hother hp (by simp))
    (fun _ => ⟨hfile, hopens⟩) fun hp => ?_
  · rw [hfile] at hp
    cases hp
  · rw [hp] at hopens
    cases hopens
  · cases hfile.symm.trans (journaled_file hp)
  · rcases hp with hp | ⟨-, hp | hp⟩ <;> exact (hother hp (by simp)).elim

theorem OpenInvariant.mark (h : OpenInvariant s) (hphase : s.phase w = .quarantine .writeMarker)
    (hmarker : s.marker = false) :
    OpenInvariant (({ s with marker := true } : DataRoot Worker Event).move w
      (.quarantine .renameFile)) := by
  have hnone (v : Worker) : s.phase v ≠ .quarantine .renameFile := by
    intro hv
    rw [(h.renamer v hv).1] at hmarker
    cases hmarker
  have hcalm (v : Worker) : ¬ Condemns ({ s with marker := true } : DataRoot Worker Event) v := by
    rintro (hv | ⟨hfalse, -⟩)
    · exact hnone v hv
    · cases hfalse
  have hmarked : OpenInvariant ({ s with marker := true } : DataRoot Worker Event) :=
    ⟨h.used, h.existing, h.journaled, h.beside, h.kept, h.logged, fun v hv => absurd hv (hnone v),
      h.finder, fun v hv => absurd hv (hcalm v)⟩
  have habandoned : Abandoned ({ s with marker := true } : DataRoot Worker Event) :=
    h.condemned w (.inr ⟨hmarker, .inr hphase⟩)
  exact hmarked.move (by simp [Phase.file]) (by simp) (by simp [Phase.journaled])
    (fun _ => ⟨rfl, hnone⟩) (by simp) (fun _ => ⟨rfl, rfl⟩)
    fun _ => abandoned_move habandoned rfl rfl

theorem OpenInvariant.rename (h : OpenInvariant s) (hphase : s.phase w = .quarantine .renameFile)
    (quarantined : List ℕ) :
    OpenInvariant (({ s with
      database := none, quarantined := quarantined } : DataRoot Worker Event).move w
        (.quarantine (.findSidecar .wal))) := by
  obtain ⟨hmarker, honly⟩ := h.renamer w hphase
  have hmoved : OpenInvariant (s.move w (.quarantine (.findSidecar .wal))) :=
    h.rest rfl rfl (by simp)
  have habandoned : Abandoned (s.move w (.quarantine (.findSidecar .wal))) :=
    abandoned_move (h.condemned w (.inl hphase)) rfl rfl
  -- the marker keeps the others from condemning, and no other renames
  refine hmoved.vacate habandoned (fun v hv => ?_) quarantined
  rw [Condemns, phase_move] at hv
  split at hv
  · rcases hv with hv | ⟨-, hv | hv⟩ <;> cases hv
  · rename_i hne
    rcases hv with hv | ⟨hfalse, -⟩
    · exact hne (honly v hv)
    · change s.marker = false at hfalse
      rw [hmarker] at hfalse
      cases hfalse

end Invariant

section Steps

variable [DecidableEq Worker] {s t : DataRoot Worker Event} {w : Worker}

theorem OpenInvariant.ended (h : OpenInvariant s) (error : Option PersistenceErrorCode) :
    OpenInvariant (s.move w (.ended error)) :=
  h.rest rfl rfl (by simp)

theorem OpenInvariant.proceed (h : OpenInvariant s) {file : ℕ} (hw : (s.phase w).file = some file)
    {p : Phase} (hfile : p.file = some file)
    (hjournaled : p.journaled = some file →
      (s.files file).content ≠ .empty ∧ ∀ sidecar, s.sidecars sidecar = some file) :
    OpenInvariant (s.move w p) := by
  have hdatabase := h.used w file hw
  have hopen {q : Phase} (hq : q.file = none) : p ≠ q := by
    rintro rfl
    rw [hq] at hfile
    cases hfile
  refine h.move (fun f hp => ?_) (fun hp => absurd hp (hopen rfl)) (fun f hp => ?_)
    (fun hp => absurd hp (hopen rfl)) (fun _ => hopen rfl) (fun habandoned => ?_) fun hp => ?_
  · rw [hfile] at hp
    exact hp ▸ hdatabase
  · obtain rfl : file = f := Option.some.inj (hfile.symm.trans (journaled_file hp))
    exact hjournaled hp
  · obtain ⟨f, hf, -, hunused⟩ := habandoned
    rw [hdatabase] at hf
    exact absurd (hw.trans hf) (hunused w).1
  · rcases hp with hp | ⟨-, hp | hp⟩ <;> exact absurd hp (hopen rfl)

theorem failWith_ended {quarantineRequired databaseExisted : Bool} {code : PersistenceErrorCode}
    (hcode : quarantineRequired = true ∨ code ≠ .corruption) :
    failWith quarantineRequired databaseExisted code = .ended (some code) := by
  rcases hcode with rfl | hcode
  · rfl
  · simp [failWith, hcode]

theorem closed_ended {p : Phase} {file : ℕ} (h : p.journaled = some file) :
    ∃ error, p.closed = .ended error := by
  cases p with
  | closeFailed databaseExisted file => exact ⟨_, failWith_ended (.inr (by decide))⟩
  | _ => exact ⟨none, rfl⟩

theorem checkSize_invariant (h : OpenInvariant s) {quarantineRequired databaseExisted : Bool}
    (hphase : s.phase w = .checkSize quarantineRequired databaseExisted)
    (hcareful : FindsNoFreshFile s w) :
    OpenInvariant (s.move w (checkSize s quarantineRequired databaseExisted)) := by
  cases quarantineRequired with
  | true => exact h.ended _
  | false =>
    cases databaseExisted with
    | false =>
      refine h.move (by simp [checkSize, Phase.file]) (by simp [checkSize])
        (by simp [checkSize, Phase.journaled]) (by simp [checkSize]) (by simp [checkSize])
        (fun habandoned => ?_) (by simp [checkSize])
      obtain ⟨file, -, -, hunused⟩ := habandoned
      exact absurd (hunused w).2 (by simp [hphase, Phase.opens])
    | true =>
      cases hdatabase : s.database with
      | none =>
        have hmissing : checkSize s false true = .ended (some .storageFailure) := by
          simp [checkSize, hdatabase, failWith]
        rw [hmissing]
        exact h.ended _
      | some file =>
        by_cases hempty : (s.files file).content = .empty
        · have hfind : checkSize s false true = .quarantine .findFile := by
            simp [checkSize, hdatabase, hempty, failWith]
          rw [hfind]
          refine h.move (by simp [Phase.file]) (by simp) (by simp [Phase.journaled]) (by simp)
            (by simp) (fun _ => ⟨rfl, rfl⟩) fun _ => ⟨file, hdatabase, hempty, fun u => ?_⟩
          rw [phase_move]
          split
          · exact ⟨by simp [Phase.file], rfl⟩
          · exact hcareful file hphase hdatabase hempty u (by assumption)
        · have hopen : checkSize s false true = .openFile true := by
            simp [checkSize, hdatabase, hempty]
          rw [hopen]
          refine h.move (by simp [Phase.file]) (fun _ => ⟨file, hdatabase, hempty⟩)
            (by simp [Phase.journaled]) (by simp) (by simp) (fun habandoned => ?_) (by simp)
          obtain ⟨f, hf, hnone, -⟩ := habandoned
          rw [hdatabase, Option.some.injEq] at hf
          exact absurd (hf ▸ hnone) hempty

theorem openFile_invariant (h : OpenInvariant s) {databaseExisted : Bool}
    (hphase : s.phase w = .openFile databaseExisted) :
    OpenInvariant (openFile s w databaseExisted) := by
  have hopens : ¬ (s.phase w).opens = false := by simp [hphase, Phase.opens]
  rw [openFile]
  cases hdatabase : s.database with
  | none =>
    refine (h.create hdatabase).move (fun f hf => hf) (by simp) (by simp [Phase.journaled])
      (by simp) (by simp) (fun habandoned => ?_) (by simp)
    obtain ⟨other, -, -, hunused⟩ := habandoned
    exact absurd (hunused w).2 hopens
  | some file =>
    refine h.move (fun f hf => hdatabase.trans hf) (by simp) (by simp [Phase.journaled]) (by simp)
      (by simp) (fun habandoned => ?_) (by simp)
    obtain ⟨other, -, -, hunused⟩ := habandoned
    exact absurd (hunused w).2 hopens

theorem close_invariant (h : OpenInvariant s) {file : ℕ} (hw : (s.phase w).journaled = some file)
    (hlast : LastConnection s w) :
    OpenInvariant ((checkpoint s file fun _ => none).move w (s.phase w).closed) := by
  obtain ⟨error, hclosed⟩ := closed_ended hw
  have hdatabase := h.used w file (journaled_file hw)
  have hcontent := (h.journaled w file hw).1
  rw [hclosed]
  refine (@OpenInvariant.write _ _ _ (h.ended (w := w) error) _ hdatabase ?_ _ _ ?_ ?_ ?_ ?_)
  · exact (h.ended error).filled hdatabase hcontent
  · exact hcontent
  · exact fun _ _ hother => by cases hother
  · intro v hv
    rw [phase_move] at hv
    split at hv
    · cases hv
    · exact absurd hv (hlast v (by assumption) file hw)
  · exact fun hlogged => absurd rfl hlogged

theorem quarantine_invariant (h : OpenInvariant s) {step : QuarantineStep}
    (hphase : s.phase w = .quarantine step) (hcareful : FindsNoFreshSidecar s w) :
    OpenInvariant (quarantine s w step) := by
  have hnext (sidecar : Sidecar) : OpenInvariant (s.move w (.after sidecar.next)) := by
    cases sidecar with
    | wal => exact h.rest rfl rfl (by simp [Sidecar.next, Phase.after])
    | shm => exact h.ended _
  rw [quarantine]
  cases step with
  | findFile =>
    simp only [quarantineDatabase]
    split
    · refine h.move (by simp [Phase.after, Phase.file]) (by simp [Phase.after])
        (by simp [Phase.after, Phase.journaled]) (by simp [Phase.after]) (by simp [Phase.after])
        (fun _ => ⟨rfl, rfl⟩) fun hcondemns => ?_
      rcases hcondemns with hrename | ⟨hmarker, -⟩
      · cases hrename
      · exact abandoned_move (h.condemned w (.inr ⟨hmarker, .inl hphase⟩)) rfl rfl
    · exact h.ended _
  | writeMarker =>
    cases hmarker : s.marker with
    | true =>
      simp only [quarantineDatabase, hmarker, if_true]
      exact h.ended _
    | false =>
      simp only [quarantineDatabase, hmarker, Bool.false_eq_true, if_false]
      exact h.mark hphase hmarker
  | renameFile =>
    cases hdatabase : s.database with
    | none =>
      simp only [quarantineDatabase, hdatabase]
      exact h.ended _
    | some file =>
      simp only [quarantineDatabase, hdatabase]
      exact h.rename hphase _
  | findSidecar sidecar =>
    cases hside : s.sidecars sidecar with
    | none =>
      simp only [quarantineDatabase, hside, Option.isSome_none, Bool.false_eq_true, if_false]
      exact hnext sidecar
    | some file => exact absurd (h.beside sidecar file hside).1 (hcareful sidecar file hphase hside)
  | renameSidecar sidecar => exact absurd hphase (h.finder w sidecar)

theorem advance_invariant (h : OpenInvariant s) (hfile : FindsNoFreshFile s w)
    (hsidecar : FindsNoFreshSidecar s w) (hstep : advance s w = some t) : OpenInvariant t := by
  rw [advance] at hstep
  cases hphase : s.phase w with
  | checkMarker =>
    obtain rfl := Option.some.inj (by simpa only [hphase] using hstep)
    exact h.rest rfl rfl (by simp)
  | checkFile quarantineRequired =>
    obtain rfl := Option.some.inj (by simpa only [hphase] using hstep)
    refine h.move (by simp [Phase.file]) (by simp) (by simp [Phase.journaled]) (by simp) (by simp)
      (fun habandoned => ?_) (by simp)
    obtain ⟨file, hdatabase, -, -⟩ := habandoned
    rw [hdatabase]
    exact ⟨rfl, by cases quarantineRequired <;> rfl⟩
  | checkSize quarantineRequired databaseExisted =>
    obtain rfl := Option.some.inj (by simpa only [hphase] using hstep)
    exact checkSize_invariant h hphase hfile
  | openFile databaseExisted =>
    obtain rfl := Option.some.inj (by simpa only [hphase] using hstep)
    exact openFile_invariant h hphase
  | setJournalMode databaseExisted file =>
    obtain rfl := Option.some.inj (by simpa only [hphase] using hstep)
    have hw : (s.phase w).file = some file := by rw [hphase, Phase.file]
    obtain ⟨hset, hcontent, hsidecars⟩ := setJournalMode_invariant h hw
    have hused : ((setJournalMode s file).phase w).file = some file := by
      rw [setJournalMode]
      split <;> exact hw
    exact hset.proceed hused rfl fun _ => ⟨hcontent, hsidecars⟩
  | migrate databaseExisted file =>
    obtain rfl := Option.some.inj (by simpa only [hphase] using hstep)
    have hw : (s.phase w).journaled = some file := by rw [hphase, Phase.journaled]
    split
    · exact h.proceed (journaled_file hw) rfl fun _ => h.journaled w file hw
    · have hmigrated : OpenInvariant (applyMigration s file) := h.rewrite hw (by simp)
      exact hmigrated.proceed (w := w) (journaled_file hw) rfl fun _ => hmigrated.journaled w file hw
  | verify databaseExisted file =>
    obtain rfl := Option.some.inj (by simpa only [hphase] using hstep)
    have hw : (s.phase w).journaled = some file := by rw [hphase, Phase.journaled]
    rw [verifyAppliedSchema]
    split <;> exact h.proceed (journaled_file hw) rfl fun _ => h.journaled w file hw
  | closeFailed databaseExisted file =>
    obtain rfl := Option.some.inj (by simpa only [hphase] using hstep)
    obtain ⟨error, hclosed⟩ := @closed_ended (.closeFailed databaseExisted file) file rfl
    rw [hclosed]
    exact h.ended error
  | quarantine step =>
    obtain rfl := Option.some.inj (by simpa only [hphase] using hstep)
    exact quarantine_invariant h hphase hsidecar
  | ready file => simp only [hphase] at hstep; cases hstep
  | ended error => simp only [hphase] at hstep; cases hstep

theorem next_invariant (h : OpenInvariant s) {label : Worker × Action Event}
    (hstep : CarefulStep s label t) : OpenInvariant t := by
  obtain ⟨w, action⟩ := label
  obtain ⟨⟨hnext, hlast⟩, hcareful⟩ := hstep
  cases action with
  | advance => exact advance_invariant h (hcareful rfl).1 (hcareful rfl).2 hnext
  | commit event =>
    rw [next] at hnext
    cases hphase : s.phase w with
    | ready file =>
      obtain rfl := Option.some.inj (by simpa only [hphase] using hnext)
      have hw : (s.phase w).journaled = some file := by rw [hphase, Phase.journaled]
      exact h.rewrite hw (h.journaled w file hw).1
    | _ => simp only [hphase] at hnext; cases hnext
  | checkpoint =>
    rw [next] at hnext
    cases hphase : s.phase w with
    | ready file =>
      obtain rfl := Option.some.inj (by simpa only [hphase] using hnext)
      have hw : (s.phase w).journaled = some file := by rw [hphase, Phase.journaled]
      exact h.rewrite hw (h.journaled w file hw).1
    | _ => simp only [hphase] at hnext; cases hnext
  | close =>
    obtain ⟨file, hw, rfl⟩ := Option.map_eq_some_iff.mp hnext
    exact close_invariant h hw (hlast rfl)
  | exit =>
    obtain rfl := Option.some.inj hnext
    exact h.ended none

theorem careful_runs_keep_files {labels : List (Worker × Action Event)}
    (hrun : Run CarefulStep .initial labels s) :
    (∀ w t, CarefulStep s (w, .advance) t → ¬ TakesFile s w) ∧
      (∀ v file, (s.phase v).file = some file → s.database = some file) ∧
      (∀ v file, (s.phase v).journaled = some file → ∀ sidecar, s.sidecars sidecar = some file) ∧
      (∀ file, (s.files file).events ≠ [] → s.database = some file) ∧
      ∀ file, (s.files file).logged ≠ [] → s.database = some file ∧ s.sidecars .wal = some file := by
  have h : OpenInvariant s :=
    hrun.invariant (fun _ _ _ hstep hs => next_invariant hs hstep) initial_invariant
  refine ⟨fun w t hstep htakes => ?_, h.used, fun v file hv => (h.journaled v file hv).2,
    fun file hfile => (h.kept file (.inl hfile)).1,
    fun file hfile => ⟨(h.kept file (.inr hfile)).1, h.logged file hfile⟩⟩
  obtain ⟨file, ⟨v, hne, hv⟩, ⟨hdatabase, hcase⟩ | ⟨sidecar, -, hphase⟩⟩ := htakes
  · rcases hcase with ⟨hphase, hempty⟩ | ⟨hphase, hmarker⟩ | hphase
    · exact ((hstep.2 rfl).1 file hphase hdatabase hempty v hne).1 hv
    · exact h.live hv w (.inr ⟨hmarker, .inr hphase⟩)
    · exact h.live hv w (.inl hphase)
  · exact h.finder w sidecar hphase

end Steps

section Samples

def openedNext {Worker Event : Type} [DecidableEq Worker] (s : DataRoot Worker Event)
    (label : Worker × Action Event) : Option (DataRoot Worker Event) :=
  match label.2 with
  | .close => none
  | _ => next s label

theorem step_of_opened {Worker Event : Type} [DecidableEq Worker] {s t : DataRoot Worker Event}
    {label : Worker × Action Event} (h : openedNext s label = some t) : Step s label t := by
  rw [openedNext] at h
  split at h
  · cases h
  · rename_i hclose
    exact ⟨h, fun heq => absurd heq hclose⟩

def settledNext {Worker Event : Type} [DecidableEq Worker] (s : DataRoot Worker Event)
    (label : Worker × Action Event) : Option (DataRoot Worker Event) :=
  match s.phase label.1 with
  | .checkSize false true =>
      if s.database.any (fun file => (s.files file).content = .empty) then none
      else openedNext s label
  | .quarantine (.findSidecar sidecar) =>
      if (s.sidecars sidecar).isSome then none else openedNext s label
  | _ => openedNext s label

theorem carefulStep_of_settled {Worker Event : Type} [DecidableEq Worker]
    {s t : DataRoot Worker Event} {label : Worker × Action Event}
    (h : settledNext s label = some t) : CarefulStep s label t := by
  rw [settledNext] at h
  split at h
  · split at h
    · cases h
    · rename_i hphase hempty
      refine ⟨step_of_opened h, fun _ => ⟨fun file _ hdatabase hcontent => absurd ?_ hempty,
        fun _ _ hfind => ?_⟩⟩
      · rw [hdatabase, Option.any_some, decide_eq_true hcontent]
      · rw [hphase] at hfind
        cases hfind
  · split at h
    · cases h
    · rename_i sidecar hphase hnone
      refine ⟨step_of_opened h, fun _ => ⟨fun _ hsize => ?_, fun _ file hfind hside => ?_⟩⟩
      · rw [hphase] at hsize
        cases hsize
      · rw [hphase] at hfind
        cases hfind
        rw [hside] at hnone
        exact absurd rfl hnone
  · rename_i hsize hfind
    exact ⟨step_of_opened h, fun _ => ⟨fun _ hphase => absurd hphase hsize,
      fun sidecar _ hphase => absurd hphase (hfind sidecar)⟩⟩

def opening {Worker : Type} (w : Worker) (steps : ℕ) : List (Worker × Action ℕ) :=
  List.replicate steps (w, .advance)

def sampleLabels : List (Bool × Action ℕ) :=
  opening false 7 ++ (false, .commit 7) :: (false, .checkpoint) :: (false, .commit 8) ::
    opening true 7

def sampleRoot : DataRoot Bool ℕ := (replay settledNext .initial sampleLabels).getD .initial

theorem sample_kept : (sampleRoot.files 0).events = [7] ∧ (sampleRoot.files 0).logged = [8] ∧
    sampleRoot.phase true = .ready 0 ∧ sampleRoot.database = some 0 ∧
    sampleRoot.sidecars .wal = some 0 := by
  have hreplay : replay settledNext .initial sampleLabels = some sampleRoot := rfl
  have hrun : Run CarefulStep .initial sampleLabels sampleRoot :=
    (run_of_replay hreplay).mono fun s label t hstep => carefulStep_of_settled hstep
  exact ⟨rfl, rfl, rfl, (careful_runs_keep_files hrun).2.2.2.2 0 (by decide)⟩

-- The second worker checks the size between the creation of the file and its first page, and
-- renames it when the first worker has committed an event to it.
theorem fresh_file_taken :
    ∃ s t : DataRoot Bool ℕ,
      Run Step .initial
        (opening false 4 ++ opening true 3 ++ opening false 3 ++ (false, .commit 7) ::
          opening true 2) s ∧
      TakesFile s true ∧ Step s (true, .advance) t ∧ t.phase false = .ready 0 ∧
      (t.files 0).logged = [7] ∧ t.database = none := by
  refine ⟨_, _, (@run_of_replay _ _ openedNext _ _ _ rfl).mono fun _ _ _ h => step_of_opened h,
    ⟨0, ⟨false, by decide, rfl⟩, .inl ⟨rfl, .inr (.inr rfl)⟩⟩, step_of_opened rfl, rfl, rfl, rfl⟩

-- A worker that has renamed an abandoned file meets the log of the database that another one has
-- created in its place.
theorem fresh_sidecar_taken :
    ∃ s t : DataRoot (Fin 3) ℕ,
      Run Step .initial
        (opening 0 4 ++ (0, .exit) :: opening 2 1 ++ opening 1 6 ++ opening 2 6 ++
          (2, .commit 7) :: opening 1 1) s ∧
      TakesFile s 1 ∧ Step s (1, .advance) t ∧ t.phase 2 = .ready 1 ∧
      (t.files 1).logged = [7] ∧ t.sidecars .wal = none := by
  refine ⟨_, _, (@run_of_replay _ _ openedNext _ _ _ rfl).mono fun _ _ _ h => step_of_opened h,
    ⟨1, ⟨2, by decide, rfl⟩, .inr ⟨.wal, rfl, rfl⟩⟩, step_of_opened rfl, rfl, rfl, rfl⟩

end Samples

end OpenSequence

end Aseos.Persistence
