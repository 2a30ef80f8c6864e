import Aseos.Platform.RuntimeLock
import Mathlib.Data.Nat.Basic
import Mathlib.Tactic.Common

namespace Aseos.RuntimeLock

section Tickets

variable {Claim : Type}

def Control.ticket : Control Claim → Option ℕ
  | .scan (.elect t) _ | .readLock t | .probeHolder t _ | .writeLock t | .wroteLock t
  | .held t | .releaseRead t | .releaseLock t | .releaseClaim t => some t
  | _ => none

def Control.Choosing : Control Claim → Prop
  | .scan .choose _ | .publish _ => True
  | _ => False

def Scan.mentions : Scan Claim → List Claim
  | .list => []
  | .probe todo _ => todo
  | .reclaim n todo _ | .readTicket n todo _ | .statClaim n todo _ => n :: todo

def Control.mentions : Control Claim → List Claim
  | .scan _ position => position.mentions
  | _ => []

theorem lt_nextTicket {claims : List (RuntimeClaim Claim)} {name : Claim} {t : ℕ}
    (h : ⟨name, some t⟩ ∈ claims) : t < nextTicket claims := by
  unfold nextTicket
  induction claims with
  | nil => simp at h
  | cons claim claims ih =>
    simp only [List.map_cons, List.foldr_cons]
    rcases List.mem_cons.mp h with rfl | h
    · simp only [Option.getD_some]
      omega
    · have := ih h
      omega

def Recorded (i : Claim) (t : ℕ) (claims : List (RuntimeClaim Claim)) : Prop :=
  ∃ u, t ≤ u ∧ ⟨i, some u⟩ ∈ claims

theorem Recorded.lt_nextTicket {i : Claim} {t : ℕ} {claims : List (RuntimeClaim Claim)}
    (h : Recorded i t claims) : t < nextTicket claims := by
  obtain ⟨u, htu, hmem⟩ := h
  exact Nat.lt_of_le_of_lt htu (RuntimeLock.lt_nextTicket hmem)

theorem Recorded.append {i : Claim} {t : ℕ} {claims : List (RuntimeClaim Claim)}
    (h : Recorded i t claims) (more : List (RuntimeClaim Claim)) :
    Recorded i t (claims ++ more) := by
  obtain ⟨u, htu, hmem⟩ := h
  exact ⟨u, htu, List.mem_append_left _ hmem⟩

theorem Fault.control_ne_idle {ctl ctl' : Control Claim} (h : Fault ctl ctl') : ctl' ≠ .idle := by
  cases h <;> simp

theorem Fault.mentions {ctl ctl' : Control Claim} (h : Fault ctl ctl') : ctl'.mentions = [] := by
  cases h <;> rfl

theorem Fault.published_ticket {ctl ctl' : Control Claim} (hf : Fault ctl ctl') {t : ℕ}
    (ht : ctl'.ticket = some t) : ctl.ticket = some t := by
  cases hf with
  | @rescan phase => cases phase <;> exact ht
  | releaseRead | releaseLock => exact ht
  | _ => cases ht

theorem Fault.choosing {ctl ctl' : Control Claim} (hf : Fault ctl ctl') (hc : ctl'.Choosing) :
    ctl.Choosing := by
  cases hf with
  | @rescan phase => cases phase <;> exact hc
  | _ => exact hc.elim

theorem World.live.processExists {Process : Type} {d : Deployment Claim Process}
    {w : World Claim Process} {c : Claim} (h : w.live d c) :
    processExists d w.life (d.claimPid c) := ⟨d.process c, h, rfl⟩

def Control.elected : Control Claim → Prop
  | .readLock _ | .probeHolder _ _ | .writeLock _ | .wroteLock _ | .held _
  | .releaseRead _ | .releaseLock _ | .releaseClaim _ => True
  | _ => False

theorem World.holds.elected {Process : Type} {d : Deployment Claim Process} {w : World Claim Process} {c : Claim}
    (h : w.holds d c) : (w.control c).elected := by
  obtain ⟨-, t, ht⟩ := h
  rw [ht]
  trivial

@[simp] theorem Files.setLock_claims (f : Files Claim) (lock : Option (LockFile Claim)) :
    (f.setLock lock).claims = f.claims := rfl

@[simp] theorem Files.setLock_lock (f : Files Claim) (lock : Option (LockFile Claim)) :
    (f.setLock lock).lock = lock := rfl

end Tickets

variable {Claim Process : Type} [LinearOrder Claim]

def Before (i : Claim) (t : ℕ) (j : Claim) (u : ℕ) : Prop :=
  t < u ∨ t = u ∧ i < j

theorem Before.asymm {i j : Claim} {t u : ℕ} (h : Before i t j u) : ¬ Before j u i t := by
  rintro (hlt | ⟨heq, hji⟩)
  · rcases h with h | ⟨h, -⟩ <;> omega
  · rcases h with h | ⟨-, hij⟩
    · omega
    · exact lt_asymm hij hji

def Blocks (me : Claim) (t : ℕ) (j : Claim) (claims : List (RuntimeClaim Claim)) : Prop :=
  ∃ claim ∈ claims, claim.name = j ∧ (claim.ticket = none ∨ precedes me t claim = true)

def Control.Passed (me j : Claim) : Control Claim → Prop
  | .scan (.elect t) (.probe todo claims) | .scan (.elect t) (.reclaim _ todo claims) =>
      j ∉ todo ∧ ¬ Blocks me t j claims
  | .scan (.elect t) (.readTicket n todo claims) | .scan (.elect t) (.statClaim n todo claims) =>
      j ≠ n ∧ j ∉ todo ∧ ¬ Blocks me t j claims
  | .readLock _ | .probeHolder _ _ | .writeLock _ | .wroteLock _ | .held _
  | .releaseRead _ | .releaseLock _ | .releaseClaim _ => True
  | _ => False

def Control.Behind (i : Claim) (t : ℕ) (j : Claim) : Control Claim → Prop
  | .idle | .scan .choose .list | .abort | .done => True
  | .scan .choose (.probe todo claims) | .scan .choose (.reclaim _ todo claims)
  | .scan .choose (.statClaim _ todo claims) => i ∈ todo ∨ Recorded i t claims
  | .scan .choose (.readTicket n todo claims) => i = n ∨ i ∈ todo ∨ Recorded i t claims
  | .publish u => t < u
  | .scan (.elect u) _ | .readLock u | .probeHolder u _ | .writeLock u | .wroteLock u
  | .held u | .releaseRead u | .releaseLock u | .releaseClaim u => Before i t j u

theorem Blocks.append {me j : Claim} {t : ℕ} {claims : List (RuntimeClaim Claim)}
    (h : Blocks me t j claims) (more : List (RuntimeClaim Claim)) :
    Blocks me t j (claims ++ more) := by
  obtain ⟨claim, hmem, hrest⟩ := h
  exact ⟨claim, List.mem_append_left _ hmem, hrest⟩

theorem not_blocks_of_elected {me j : Claim} {t : ℕ} {claims : List (RuntimeClaim Claim)}
    (h : election me t claims = .elected) (hj : j ≠ me) : ¬ Blocks me t j claims := by
  rintro ⟨claim, hmem, rfl, hblock⟩
  have hother : claim ∈ claims.filter (fun claim => claim.name ≠ me) := by
    simpa using ⟨hmem, hj⟩
  unfold election at h
  simp only at h
  split at h
  · cases h
  · rename_i hprecede
    split at h
    · cases h
    · rename_i hnone
      rcases hblock with hticket | hprecedes
      · exact hnone (List.any_eq_true.mpr ⟨claim, hother, by simp [hticket]⟩)
      · exact hprecede (List.any_eq_true.mpr ⟨claim, hother, hprecedes⟩)

theorem before_of_not_precedes {me j : Claim} {t u : ℕ} (hj : j ≠ me)
    (h : ¬ precedes me t ⟨j, some u⟩ = true) : Before me t j u := by
  simp only [precedes, Bool.or_eq_true, decide_eq_true_eq, Bool.and_eq_true, beq_iff_eq,
    not_or, not_and, not_lt] at h
  rcases Nat.lt_or_eq_of_le h.1 with hlt | heq
  · exact .inl hlt
  · exact .inr ⟨heq, lt_of_le_of_ne (h.2 heq.symm) (Ne.symm hj)⟩

section Files

variable {d : Deployment Claim Process} {life : Process → Life} {me : Claim}
  {ctl ctl' : Control Claim} {f f' : Files Claim}

@[simp] theorem Files.setClaim_claims_self (f : Files Claim) (n : Claim)
    (entry : Option (Option ℕ)) : (f.setClaim n entry).claims n = entry := by
  simp [Files.setClaim]

theorem Files.setClaim_claims_ne (f : Files Claim) {n m : Claim} (entry : Option (Option ℕ))
    (h : m ≠ n) : (f.setClaim n entry).claims m = f.claims m := by
  simp [Files.setClaim, Function.update_of_ne h]

@[simp] theorem Files.setClaim_lock (f : Files Claim) (n : Claim) (entry : Option (Option ℕ)) :
    (f.setClaim n entry).lock = f.lock := rfl

theorem Move.claims_other (h : Move d life me ctl f ctl' f') {n : Claim} (hn : n ≠ me) :
    f'.claims n = f.claims n ∨
      ∃ phase todo claims, ctl = .scan phase (.reclaim n todo claims) := by
  cases h with
  | @reclaim _ phase m todo claims =>
    by_cases hm : n = m
    · subst hm
      exact .inr ⟨phase, todo, claims, rfl⟩
    · exact .inl (f.setClaim_claims_ne _ hm)
  | makeClaim => exact .inl (f.setClaim_claims_ne _ hn)
  | publish => exact .inl (f.setClaim_claims_ne _ hn)
  | removeClaim => exact .inl (f.setClaim_claims_ne _ hn)
  | cleanup => exact .inl (f.setClaim_claims_ne _ hn)
  | _ => exact .inl rfl

theorem Move.published (h : Move d life me ctl f ctl' f')
    (hreclaim : ∀ phase todo claims, ctl ≠ .scan phase (.reclaim me todo claims))
    (hold : ∀ t, ctl.ticket = some t → f.claims me = some (some t)) {t : ℕ}
    (ht : ctl'.ticket = some t) : f'.claims me = some (some t) := by
  cases h with
  | @reclaim _ phase n todo claims =>
    have hne : me ≠ n := fun heq => hreclaim phase todo claims (by rw [heq])
    rw [f.setClaim_claims_ne _ hne]
    cases phase with
    | choose => cases ht
    | elect u => exact hold t ht
  | publish => simpa [Control.ticket] using ht
  | makeClaim => cases ht
  | chosen => cases ht
  | exhausted => cases ht
  | alreadyActive => cases ht
  | waitExpired => cases ht
  | holderAlive => cases ht
  | removeClaim => cases ht
  | cleanup => cases ht
  | @list _ phase | @probeAlive _ phase | @probeDead _ phase | @readTicket _ phase
  | @readMissing _ phase | @statPresent _ phase | @statMissing _ phase =>
    cases phase with
    | choose => cases ht
    | elect u => exact hold t ht
  | _ => exact hold t ht

theorem Move.choosing (h : Move d life me ctl f ctl' f')
    (hreclaim : ∀ phase todo claims, ctl ≠ .scan phase (.reclaim me todo claims))
    (hold : ctl.Choosing → f.claims me = some none) (hc : ctl'.Choosing) :
    f'.claims me = some none := by
  cases h with
  | @reclaim _ phase n todo claims =>
    have hne : me ≠ n := fun heq => hreclaim phase todo claims (by rw [heq])
    rw [f.setClaim_claims_ne _ hne]
    cases phase with
    | choose => exact hold hc
    | elect u => exact hc.elim
  | makeClaim => simp
  | chosen => exact hold trivial
  | @list _ phase | @probeAlive _ phase | @probeDead _ phase | @readTicket _ phase
  | @readMissing _ phase | @statPresent _ phase | @statMissing _ phase =>
    cases phase with
    | choose => exact hold hc
    | elect u => exact hc.elim
  | _ => exact hc.elim

theorem Move.control_ne_idle (h : Move d life me ctl f ctl' f') : ctl' ≠ .idle := by
  cases h <;> simp

theorem Move.mentions (h : Move d life me ctl f ctl' f') {n : Claim} (hn : n ∈ ctl'.mentions) :
    n ∈ ctl.mentions ∨ f.claims n ≠ none := by
  cases h with
  | list _ hnames => exact .inr ((hnames n).mp hn)
  | reclaim | readTicket | statPresent | statMissing => exact .inl (List.mem_cons_of_mem _ hn)
  | probeAlive | probeDead | readMissing => exact .inl hn
  | _ => simp [Control.mentions, Scan.mentions] at hn

theorem Move.behind (h : Move d life me ctl f ctl' f') {i : Claim} {t : ℕ}
    (hclaim : f.claims i = some (some t)) (hlive : processExists d life (d.claimPid i))
    (hb : ctl.Behind i t me) : ctl'.Behind i t me := by
  cases h with
  | @list _ phase names _ hnames =>
    cases phase with
    | choose => exact .inl ((hnames i).mpr (by simp [hclaim]))
    | elect u => exact hb
  | @probeAlive _ phase n todo claims _ =>
    cases phase with
    | choose =>
      rcases hb with hmem | hrec
      · rcases List.mem_cons.mp hmem with rfl | hmem
        · exact .inl rfl
        · exact .inr (.inl hmem)
      · exact .inr (.inr hrec)
    | elect u => exact hb
  | @probeDead _ phase n todo claims hdead =>
    cases phase with
    | choose =>
      rcases hb with hmem | hrec
      · rcases List.mem_cons.mp hmem with rfl | hmem
        · exact absurd hlive hdead
        · exact .inl hmem
      · exact .inr hrec
    | elect u => exact hb
  | @readTicket _ phase n todo claims u hread =>
    cases phase with
    | choose =>
      rcases hb with rfl | hmem | hrec
      · obtain rfl : t = u := by simpa [hclaim] using hread
        exact .inr ⟨t, Nat.le_refl t, by simp⟩
      · exact .inl hmem
      · exact .inr (hrec.append _)
    | elect u => exact hb
  | @readMissing _ phase n todo claims hmissing =>
    cases phase with
    | choose =>
      rcases hb with rfl | hrest
      · exact absurd hclaim (hmissing t)
      · exact hrest
    | elect u => exact hb
  | @statPresent _ phase =>
    cases phase with
    | choose => exact hb.imp_right fun hrec => hrec.append _
    | elect u => exact hb
  | @reclaim _ phase | @statMissing _ phase => cases phase <;> exact hb
  | chosen =>
    rcases hb with hmem | hrec
    · cases hmem
    · exact hrec.lt_nextTicket
  | publish => exact .inl hb
  | makeClaim | exhausted | alreadyActive | waitExpired | holderAlive | removeClaim | cleanup =>
    trivial
  | _ => exact hb

theorem Fault.behind (h : Fault ctl ctl') {i j : Claim} {t : ℕ} (hb : ctl.Behind i t j) :
    ctl'.Behind i t j := by
  cases h with
  | @rescan phase =>
    cases phase with
    | choose => trivial
    | elect u => exact hb
  | releaseRead | releaseLock => exact hb
  | _ => trivial

theorem Move.passed (h : Move d life me ctl f ctl' f') {j : Claim} (hj : j ≠ me) {t : ℕ}
    (ht : ctl'.ticket = some t) (hp : ctl'.Passed me j) :
    ctl.ticket = some t ∧ ctl.Passed me j ∨ f.claims j = none ∨
      ¬ processExists d life (d.claimPid j) ∨
      ∃ u, f.claims j = some (some u) ∧ Before me t j u := by
  cases h with
  | @list _ phase names _ hnames =>
    cases phase with
    | choose => exact hp.elim
    | elect u =>
      by_cases hclaim : f.claims j = none
      · exact .inr (.inl hclaim)
      · exact absurd ((hnames j).mpr hclaim) hp.1
  | @probeAlive _ phase n todo claims _ =>
    cases phase with
    | choose => exact hp.elim
    | elect u =>
      obtain ⟨hn, htodo, hblocks⟩ := hp
      exact .inl ⟨ht, by simp [hn, htodo], hblocks⟩
  | @probeDead _ phase n todo claims hdead =>
    cases phase with
    | choose => exact hp.elim
    | elect u =>
      by_cases hn : j = n
      · subst hn
        exact .inr (.inr (.inl hdead))
      · exact .inl ⟨ht, by simp [hn, hp.1], hp.2⟩
  | @reclaim _ phase =>
    cases phase with
    | choose => exact hp.elim
    | elect u => exact .inl ⟨ht, hp⟩
  | @readTicket _ phase n todo claims u hread =>
    cases phase with
    | choose => exact hp.elim
    | elect v =>
      obtain rfl : v = t := by simpa [Control.ticket] using ht
      by_cases hn : j = n
      · subst hn
        have hnot : ¬ precedes me v ⟨j, some u⟩ = true := fun hprec =>
          hp.2 ⟨⟨j, some u⟩, by simp, rfl, .inr hprec⟩
        exact .inr (.inr (.inr ⟨u, hread, before_of_not_precedes hj hnot⟩))
      · exact .inl ⟨rfl, hn, hp.1, fun hb => hp.2 (hb.append _)⟩
  | @readMissing _ phase =>
    cases phase with
    | choose => exact hp.elim
    | elect u => exact .inl ⟨ht, hp⟩
  | @statPresent _ phase n todo claims _ =>
    cases phase with
    | choose => exact hp.elim
    | elect u =>
      by_cases hn : j = n
      · subst hn
        exact absurd ⟨⟨j, none⟩, by simp, rfl, .inl rfl⟩ hp.2
      · exact .inl ⟨ht, hn, hp.1, fun hb => hp.2 (hb.append _)⟩
  | @statMissing _ phase n todo claims hmissing =>
    cases phase with
    | choose => exact hp.elim
    | elect u =>
      by_cases hn : j = n
      · subst hn
        exact .inr (.inl hmissing)
      · exact .inl ⟨ht, hn, hp.1, hp.2⟩
  | elected hwon => exact .inl ⟨ht, by simp, not_blocks_of_elected hwon hj⟩
  | lockAbsent | lockPresent | holderDead | writeLock | acquired | release | ownLock
  | otherLock | removeLock => exact .inl ⟨ht, trivial⟩
  | _ => exact hp.elim

theorem Fault.passed (h : Fault ctl ctl') {j : Claim} (hp : ctl'.Passed me j) :
    ctl.Passed me j ∧ ctl.ticket = ctl'.ticket := by
  cases h with
  | @rescan phase => cases phase <;> exact hp.elim
  | releaseRead | releaseLock => exact ⟨trivial, rfl⟩
  | _ => exact hp.elim

end Files

theorem Control.elected_passed {ctl : Control Claim} (h : ctl.elected) (me j : Claim) :
    (∃ t, ctl.ticket = some t) ∧ ctl.Passed me j := by
  cases ctl <;> first | exact h.elim | exact ⟨⟨_, rfl⟩, trivial⟩

theorem Control.behind_before {ctl : Control Claim} {i j : Claim} {t u : ℕ}
    (ht : ctl.ticket = some u) (hb : ctl.Behind i t j) : Before i t j u := by
  cases ctl with
  | scan phase position =>
    cases phase with
    | choose => cases ht
    | elect v => cases ht; exact hb
  | idle | publish | abort | done => cases ht
  | _ => cases ht; exact hb

variable {d : Deployment Claim Process}

structure Invariant (d : Deployment Claim Process) (w : World Claim Process) : Prop where
  published : ∀ c t, w.live d c → (w.control c).ticket = some t →
    w.files.claims c = some (some t)
  choosing : ∀ c, w.live d c → (w.control c).Choosing → w.files.claims c = some none
  fresh : ∀ c, w.control c = .idle → w.files.claims c = none
  started : ∀ c, w.control c ≠ .idle → w.life (d.process c) ≠ .unborn
  listed : ∀ c, ∀ n ∈ (w.control c).mentions, w.control n ≠ .idle
  reclaims : ∀ c phase n todo claims, w.control c = .scan phase (.reclaim n todo claims) →
    w.life (d.process n) = .dead
  behind : ∀ i j t, w.live d i → w.live d j → i ≠ j → (w.control i).ticket = some t →
    (w.control i).Passed i j → (w.control j).Behind i t j

theorem Invariant.initial {w : World Claim Process} (h : Initial w) : Invariant d w := by
  obtain ⟨hlife, hcontrol, hclaims, -⟩ := h
  constructor <;> intros <;> simp_all [Control.ticket, Control.mentions, Control.Choosing]

theorem Invariant.behind_of_claim {w : World Claim Process} (h : Invariant d w) {i j : Claim}
    {t : ℕ} (hj : w.live d j)
    (hread : w.files.claims j = none ∨
      ∃ u, w.files.claims j = some (some u) ∧ Before i t j u) :
    (w.control j).Behind i t j := by
  have hticket : ∀ v, (w.control j).ticket = some v → Before i t j v := by
    intro v hv
    have hpub := h.published j v hj hv
    rcases hread with hnone | ⟨u, hsome, hbefore⟩
    · simp [hnone] at hpub
    · obtain rfl : u = v := by simpa [hsome] using hpub
      exact hbefore
  have hchoosing : ¬ (w.control j).Choosing := by
    intro hc
    have hentry := h.choosing j hj hc
    rcases hread with hnone | ⟨u, hsome, -⟩ <;> simp_all
  generalize w.control j = ctl at hticket hchoosing
  cases ctl with
  | idle | abort | done => trivial
  | publish => exact (hchoosing trivial).elim
  | scan phase position =>
    cases phase with
    | choose => exact (hchoosing trivial).elim
    | elect u => exact hticket u rfl
  | _ => exact hticket _ rfl

theorem Invariant.not_reclaiming {w : World Claim Process} (h : Invariant d w) {c : Claim}
    (hc : w.live d c) (a : Claim) (phase : Phase) (todo : List Claim)
    (claims : List (RuntimeClaim Claim)) :
    w.control a ≠ .scan phase (.reclaim c todo claims) := by
  intro heq
  have hdead := h.reclaims a phase c todo claims heq
  have halive : w.life (d.process c) = .alive := hc
  simp [hdead] at halive

theorem Invariant.elected_unique {w : World Claim Process} (h : Invariant d w) {i j : Claim}
    (hi : w.live d i) (hj : w.live d j) (hei : (w.control i).elected)
    (hej : (w.control j).elected) : i = j := by
  by_contra hij
  obtain ⟨⟨t, ht⟩, hpi⟩ := Control.elected_passed hei i j
  obtain ⟨⟨u, hu⟩, hpj⟩ := Control.elected_passed hej j i
  have hbefore := Control.behind_before hu (h.behind i j t hi hj hij ht hpi)
  have hafter := Control.behind_before ht (h.behind j i u hj hi (Ne.symm hij) hu hpj)
  exact hbefore.asymm hafter

section Preservation

variable {w : World Claim Process} {c : Claim} {ctl : Control Claim} {f : Files Claim}

theorem Invariant.claims_frame (h : Invariant d w) (hm : Move d w.life c (w.control c) w.files ctl f)
    {n : Claim} (hn : w.live d n) (hne : n ≠ c) : f.claims n = w.files.claims n := by
  rcases hm.claims_other hne with heq | ⟨phase, todo, claims, hctl⟩
  · exact heq
  · exact absurd hctl (h.not_reclaiming hn c phase todo claims)

theorem Invariant.move (h : Invariant d w) (hc : w.live d c)
    (hm : Move d w.life c (w.control c) w.files ctl f) :
    Invariant d { w with control := Function.update w.control c ctl, files := f } where
  published n t hn ht := by
    by_cases hnc : n = c
    · subst hnc
      exact hm.published (h.not_reclaiming hn n) (fun t ht => h.published n t hn ht)
        (by simpa using ht)
    · simp only [Function.update_of_ne hnc] at ht
      exact (h.claims_frame hm hn hnc).trans (h.published n t hn ht)
  choosing n hn hch := by
    by_cases hnc : n = c
    · subst hnc
      exact hm.choosing (h.not_reclaiming hn n) (h.choosing n hn) (by simpa using hch)
    · simp only [Function.update_of_ne hnc] at hch
      exact (h.claims_frame hm hn hnc).trans (h.choosing n hn hch)
  fresh n hn := by
    by_cases hnc : n = c
    · subst hnc
      exact absurd (by simpa using hn) hm.control_ne_idle
    · simp only [Function.update_of_ne hnc] at hn
      rcases hm.claims_other hnc with heq | ⟨phase, todo, claims, hctl⟩
      · exact heq.trans (h.fresh n hn)
      · exact absurd hn (h.listed c n (by simp [hctl, Control.mentions, Scan.mentions]))
  started n hn := by
    by_cases hnc : n = c
    · subst hnc
      have halive : w.life (d.process n) = .alive := hc
      simp [halive]
    · simp only [Function.update_of_ne hnc] at hn
      exact h.started n hn
  listed a n hn := by
    have hold : n ∈ (w.control a).mentions ∨ w.files.claims n ≠ none := by
      by_cases hac : a = c
      · subst hac
        exact hm.mentions (by simpa using hn)
      · simp only [Function.update_of_ne hac] at hn
        exact .inl hn
    have hidle : w.control n ≠ .idle := by
      rcases hold with hmem | hclaim
      · exact h.listed a n hmem
      · exact fun heq => hclaim (h.fresh n heq)
    by_cases hnc : n = c
    · subst hnc
      simpa using hm.control_ne_idle
    · simpa only [Function.update_of_ne hnc] using hidle
  reclaims a phase n todo claims ha := by
    by_cases hac : a = c
    · subst hac
      have hctl : ctl = .scan phase (.reclaim n todo claims) := by simpa using ha
      subst hctl
      generalize hold : w.control a = old at hm
      cases hm with
      | probeDead hdead =>
        have hborn := h.started n (h.listed a n (by simp [hold, Control.mentions, Scan.mentions]))
        cases hlife : w.life (d.process n) with
        | unborn => exact absurd hlife hborn
        | alive => exact absurd ⟨d.process n, hlife, rfl⟩ hdead
        | dead => rfl
    · simp only [Function.update_of_ne hac] at ha
      exact h.reclaims a phase n todo claims ha
  behind i j t hi hj hij ht hp := by
    by_cases hic : i = c
    · subst hic
      have hji : j ≠ i := Ne.symm hij
      simp only [Function.update_self, Function.update_of_ne hji] at ht hp ⊢
      rcases hm.passed hji ht hp with ⟨hticket, hpassed⟩ | hnone | hdead | hbefore
      · exact h.behind i j t hi hj hij hticket hpassed
      · exact h.behind_of_claim hj (.inl hnone)
      · exact absurd (World.live.processExists hj) hdead
      · exact h.behind_of_claim hj (.inr hbefore)
    · simp only [Function.update_of_ne hic] at ht hp
      have hbehind := h.behind i j t hi hj hij ht hp
      by_cases hjc : j = c
      · subst hjc
        simpa using hm.behind (h.published i t hi ht) (World.live.processExists hi) hbehind
      · simpa only [Function.update_of_ne hjc] using hbehind

theorem Invariant.fault (h : Invariant d w) (hc : w.live d c) (hf : Fault (w.control c) ctl) :
    Invariant d { w with control := Function.update w.control c ctl } where
  published n t hn ht := by
    by_cases hnc : n = c
    · subst hnc
      exact h.published n t hn (hf.published_ticket (by simpa using ht))
    · simp only [Function.update_of_ne hnc] at ht
      exact h.published n t hn ht
  choosing n hn hch := by
    by_cases hnc : n = c
    · subst hnc
      exact h.choosing n hn (hf.choosing (by simpa using hch))
    · simp only [Function.update_of_ne hnc] at hch
      exact h.choosing n hn hch
  fresh n hn := by
    by_cases hnc : n = c
    · subst hnc
      exact absurd (by simpa using hn) hf.control_ne_idle
    · simp only [Function.update_of_ne hnc] at hn
      exact h.fresh n hn
  started n hn := by
    by_cases hnc : n = c
    · subst hnc
      have halive : w.life (d.process n) = .alive := hc
      simp [halive]
    · simp only [Function.update_of_ne hnc] at hn
      exact h.started n hn
  listed a n hn := by
    by_cases hac : a = c
    · subst hac
      simp [hf.mentions] at hn
    · simp only [Function.update_of_ne hac] at hn
      by_cases hnc : n = c
      · subst hnc
        simpa using hf.control_ne_idle
      · simpa only [Function.update_of_ne hnc] using h.listed a n hn
  reclaims a phase n todo claims ha := by
    by_cases hac : a = c
    · subst hac
      have hctl : ctl = .scan phase (.reclaim n todo claims) := by simpa using ha
      have hmentions := hf.mentions
      simp [hctl, Control.mentions, Scan.mentions] at hmentions
    · simp only [Function.update_of_ne hac] at ha
      exact h.reclaims a phase n todo claims ha
  behind i j t hi hj hij ht hp := by
    have hbehind : (w.control j).Behind i t j := by
      by_cases hic : i = c
      · subst hic
        obtain ⟨hpassed, hticket⟩ := hf.passed (by simpa using hp)
        exact h.behind i j t hi hj hij (hticket.trans (by simpa using ht)) hpassed
      · simp only [Function.update_of_ne hic] at ht hp
        exact h.behind i j t hi hj hij ht hp
    by_cases hjc : j = c
    · subst hjc
      simpa using hf.behind hbehind
    · simpa only [Function.update_of_ne hjc] using hbehind

variable [DecidableEq Process]

theorem Invariant.start (h : Invariant d w) {p : Process} (hp : w.life p = .unborn) :
    Invariant d { w with life := Function.update w.life p .alive } := by
  -- A contender that is live only now has not taken a step yet.
  have hlive : ∀ n, World.live d { w with life := Function.update w.life p .alive } n →
      w.live d n ∨ w.control n = .idle := by
    intro n hn
    by_cases hnp : d.process n = p
    · refine .inr ?_
      by_contra hidle
      exact h.started n hidle (hnp ▸ hp)
    · exact .inl (by simpa [World.live, Function.update_of_ne hnp] using hn)
  refine ⟨?_, ?_, h.fresh, ?_, h.listed, ?_, ?_⟩
  · intro n t hn ht
    rcases hlive n hn with hold | hidle
    · exact h.published n t hold ht
    · simp [hidle, Control.ticket] at ht
  · intro n hn hch
    rcases hlive n hn with hold | hidle
    · exact h.choosing n hold hch
    · simp [hidle, Control.Choosing] at hch
  · intro n hn
    by_cases hnp : d.process n = p
    · simp [hnp]
    · simpa [Function.update_of_ne hnp] using h.started n hn
  · intro a phase n todo claims ha
    have hdead := h.reclaims a phase n todo claims ha
    have hnp : d.process n ≠ p := by
      rintro rfl
      simp [hp] at hdead
    simpa [Function.update_of_ne hnp] using hdead
  · intro i j t hi hj hij ht hpassed
    rcases hlive i hi with hi | hidle
    · rcases hlive j hj with hj | hidle
      · exact h.behind i j t hi hj hij ht hpassed
      · simp [hidle, Control.Behind]
    · simp [hidle, Control.ticket] at ht

theorem Invariant.crash (h : Invariant d w) (p : Process) :
    Invariant d { w with life := Function.update w.life p .dead } := by
  have hlive : ∀ n, World.live d { w with life := Function.update w.life p .dead } n →
      w.live d n := by
    intro n hn
    by_cases hnp : d.process n = p
    · simp [World.live, hnp] at hn
    · simpa [World.live, Function.update_of_ne hnp] using hn
  refine ⟨fun n t hn => h.published n t (hlive n hn), fun n hn => h.choosing n (hlive n hn),
    h.fresh, ?_, h.listed, ?_, fun i j t hi hj => h.behind i j t (hlive i hi) (hlive j hj)⟩
  · intro n hn
    by_cases hnp : d.process n = p
    · simp [hnp]
    · simpa [Function.update_of_ne hnp] using h.started n hn
  · intro a phase n todo claims ha
    by_cases hnp : d.process n = p
    · simp [hnp]
    · simpa [Function.update_of_ne hnp] using h.reclaims a phase n todo claims ha

theorem Invariant.step {w w' : World Claim Process} {a : Action Claim Process}
    (hs : Step d w a w') (h : Invariant d w) : Invariant d w' := by
  cases hs with
  | start hunborn _ => exact h.start hunborn
  | @crash p _ => exact h.crash p
  | move hlive hm => exact h.move hlive hm
  | fault hlive hf => exact h.fault hlive hf

theorem Reachable.invariant {w : World Claim Process} (h : Reachable d w) : Invariant d w := by
  refine TransitionSystem.Reachable.invariant ?_ ?_ h
  · exact fun _ => Invariant.initial
  · exact fun _ _ _ hs => Invariant.step hs

end Preservation

section Removal

variable {life : Process → Life} {me : Claim} {ctl ctl' : Control Claim} {f f' : Files Claim}

theorem Move.lock_kept (h : Move d life me ctl f ctl' f') :
    f'.lock = f.lock ∨ ctl.elected := by
  cases h with
  | writeLock | removeLock => exact .inr trivial
  | _ => exact .inl rfl

variable [DecidableEq Process]

theorem Invariant.claim_removed {w w' : World Claim Process} {a : Action Claim Process}
    (h : Invariant d w) (hs : Step d w a w') {n : Claim} (hlive : w.live d n)
    (hclaim : w.files.claims n ≠ none) (hgone : w'.files.claims n = none) : a = .move n := by
  cases hs with
  | @move c ctl f hc hm =>
    by_cases hnc : n = c
    · rw [hnc]
    · exact absurd ((h.claims_frame hm hlive hnc).symm.trans hgone) hclaim
  | _ => exact absurd hgone hclaim

theorem Invariant.lock_removed {w w' : World Claim Process} {a : Action Claim Process}
    (h : Invariant d w) (hs : Step d w a w') {writer : Claim} (hholds : w.holds d writer)
    (hgone : w'.files.lock ≠ w.files.lock) : a = .move writer := by
  cases hs with
  | @move c ctl f hc hm =>
    rcases hm.lock_kept with heq | helected
    · exact absurd heq hgone
    · rw [h.elected_unique hc hholds.1 helected hholds.elected]
  | _ => exact absurd rfl hgone

theorem runtime_lock_mutual_exclusion {w : World Claim Process} (h : Reachable d w) :
    (∀ i j, w.holds d i → w.holds d j → i = j) ∧
    ∀ a w', Step d w a w' →
      (∀ n, w.files.claims n ≠ none → w'.files.claims n = none →
        a = .move n ∨ ¬ w.live d n) ∧
      ∀ file writer, w.files.lock = some file → file.writer = some writer →
        w.holds d writer → w'.files.lock ≠ some file → a = .move writer := by
  have hinv := h.invariant
  refine ⟨fun i j hi hj => hinv.elected_unique hi.1 hj.1 hi.elected hj.elected, ?_⟩
  intro a w' hs
  refine ⟨?_, ?_⟩
  · intro n hclaim hgone
    by_cases hlive : w.live d n
    · exact .inl (hinv.claim_removed hs hlive hclaim hgone)
    · exact .inr hlive
  · intro file writer hlock _ hholds hgone
    exact hinv.lock_removed hs hholds (by rwa [hlock])

end Removal

section Solo

variable [DecidableEq Process]

def Acquires (d : Deployment Claim Process) (me : Claim) (w : World Claim Process)
    (a : Action Claim Process) (w' : World Claim Process) : Prop :=
  a = .move me ∧ (∀ t, w.control me ≠ .held t) ∧ Step d w a w'

theorem Reachable.acquires {w w' : World Claim Process} {me : Claim}
    {labels : List (Action Claim Process)} (h : Reachable d w)
    (hrun : TransitionSystem.Run (Acquires d me) w labels w') : Reachable d w' :=
  hrun.invariant (P := Reachable d) (fun _ _ _ hs hr => hr.tail hs.2.2) h

def solo : Deployment ℕ ℕ := ⟨fun p => p + 1, id, fun _ => "runtime"⟩

def soloStart : World ℕ ℕ :=
  ⟨Function.update (fun _ => .unborn) 0 .alive, fun _ => .idle, ⟨fun _ => none, none⟩⟩

theorem solo_start : Reachable solo soloStart := by
  have h0 : Reachable solo ⟨fun _ => .unborn, fun _ => .idle, ⟨fun _ => none, none⟩⟩ :=
    .refl ⟨fun _ => rfl, fun _ => rfl, fun _ => rfl, fun _ h => by cases h⟩
  exact h0.tail (.start (p := 0) rfl (fun q hq => by cases hq))

def soloWrote : World ℕ ℕ :=
  ⟨soloStart.life, Function.update soloStart.control 0 (.wroteLock 1),
    ⟨Function.update (fun _ => none) 0 (some (some 1)), some ⟨solo.content 0, some 0⟩⟩⟩

theorem solo_wrote : ∃ labels, TransitionSystem.Run (Acquires solo 0) soloStart labels soloWrote := by
  have hfree : ∀ {ctl : Control ℕ}, (match ctl with | .held _ => False | _ => True) →
      ∀ t, ctl ≠ .held t := by
    rintro ctl hctl t rfl
    exact hctl
  have h1 : TransitionSystem.Run (Acquires solo 0) soloStart [] soloStart := .nil _
  have h2 := h1.snoc ⟨rfl, hfree trivial, .move (c := 0) rfl (.makeClaim rfl)⟩
  have hnames : ∀ n, n ∈ [0] ↔
      Function.update (fun _ : ℕ => (none : Option (Option ℕ))) 0 (some none) n ≠ none := by
    intro n
    by_cases hn : n = 0 <;> simp [hn]
  have h3 := h2.snoc ⟨rfl, hfree trivial, .move (c := 0) rfl (.list (by simp) hnames)⟩
  have h4 := h3.snoc ⟨rfl, hfree trivial, .move (c := 0) rfl (.probeAlive ⟨0, rfl, rfl⟩)⟩
  have h5 := h4.snoc ⟨rfl, hfree trivial, .move (c := 0) rfl (.readMissing (fun t h => by cases h))⟩
  have h6 := h5.snoc ⟨rfl, hfree trivial, .move (c := 0) rfl (.statPresent (fun h => by cases h))⟩
  have h7 := h6.snoc ⟨rfl, hfree trivial, .move (c := 0) rfl (.chosen (by decide))⟩
  have h8 := h7.snoc ⟨rfl, hfree trivial, .move (c := 0) rfl .publish⟩
  have hpublished : ∀ n, n ∈ [0] ↔
      Function.update (Function.update (fun _ : ℕ => (none : Option (Option ℕ))) 0 (some none))
        0 (some (some 1)) n ≠ none := by
    intro n
    by_cases hn : n = 0 <;> simp [hn]
  have h9 := h8.snoc ⟨rfl, hfree trivial, .move (c := 0) rfl (.list (by simp) hpublished)⟩
  have h10 := h9.snoc ⟨rfl, hfree trivial, .move (c := 0) rfl (.probeAlive ⟨0, rfl, rfl⟩)⟩
  have h11 := h10.snoc ⟨rfl, hfree trivial, .move (c := 0) rfl (.readTicket (t := 1) rfl)⟩
  have h12 := h11.snoc ⟨rfl, hfree trivial, .move (c := 0) rfl (.elected (by decide))⟩
  have h13 := h12.snoc ⟨rfl, hfree trivial, .move (c := 0) rfl (.lockAbsent rfl)⟩
  have h14 := h13.snoc ⟨rfl, hfree trivial, .move (c := 0) rfl .writeLock⟩
  simp only [Function.update_idem, Files.setClaim, Files.setLock] at h14
  exact ⟨_, h14⟩

def soloHolds : World ℕ ℕ :=
  { soloWrote with control := Function.update soloStart.control 0 (.held 1) }

theorem solo_holds : Reachable solo soloHolds := by
  obtain ⟨labels, hrun⟩ := solo_wrote
  have hheld : Step solo soloWrote (.move 0)
      { soloWrote with control := Function.update soloWrote.control 0 (.held 1) } :=
    .move rfl .acquired
  simp only [soloWrote, Function.update_idem] at hheld
  exact (solo_start.acquires hrun).tail hheld

theorem rival_refused : ∃ w : World ℕ ℕ, Reachable solo w ∧ w.holds solo 0 ∧ w.live solo 1 ∧
    w.control 1 = .abort ∧ w.files.claims 1 = some (some 2) := by
  have hpid : ∀ q, soloHolds.life q = .alive → solo.pid q ≠ solo.pid 1 := by
    intro q hq
    by_cases hzero : q = 0
    · rw [hzero]
      decide
    · have hunborn : soloHolds.life q = .unborn := by
        simp [soloHolds, soloWrote, soloStart, hzero]
      cases hunborn.symm.trans hq
  have h1 := solo_holds.tail (.start (p := 1) rfl hpid)
  have h2 := h1.tail (.move (c := 1) rfl (.makeClaim rfl))
  have hnames (ticket : Option ℕ) (n : ℕ) : n ∈ [0, 1] ↔ Function.update (Function.update
      (fun _ : ℕ => (none : Option (Option ℕ))) 0 (some (some 1))) 1 (some ticket) n ≠ none := by
    by_cases hone : n = 1
    · simp [hone]
    · by_cases hzero : n = 0 <;> simp [hone, hzero]
  have h3 := h2.tail (.move (c := 1) rfl (.list (by simp) (hnames none)))
  have h4 := h3.tail (.move (c := 1) rfl (.probeAlive ⟨0, rfl, rfl⟩))
  have h5 := h4.tail (.move (c := 1) rfl (.readTicket (t := 1) rfl))
  have h6 := h5.tail (.move (c := 1) rfl (.probeAlive ⟨1, rfl, rfl⟩))
  have h7 := h6.tail (.move (c := 1) rfl (.readMissing (fun t h => by cases h)))
  have h8 := h7.tail (.move (c := 1) rfl (.statPresent (fun h => by cases h)))
  have h9 := h8.tail (.move (c := 1) rfl (.chosen (by decide)))
  have h10 := h9.tail (.move (c := 1) rfl .publish)
  simp only [Function.update_idem, Files.setClaim] at h10
  have h11 := h10.tail (.move (c := 1) rfl (.list (by simp) (hnames (some 2))))
  have h12 := h11.tail (.move (c := 1) rfl (.probeAlive ⟨0, rfl, rfl⟩))
  have h13 := h12.tail (.move (c := 1) rfl (.readTicket (t := 1) rfl))
  have h14 := h13.tail (.move (c := 1) rfl (.probeAlive ⟨1, rfl, rfl⟩))
  have h15 := h14.tail (.move (c := 1) rfl (.readTicket (t := 2) rfl))
  have h16 := h15.tail (.move (c := 1) rfl (.alreadyActive (by decide)))
  exact ⟨_, h16, ⟨rfl, 1, rfl⟩, rfl, rfl, rfl⟩

theorem rival_mutual_exclusion : ∃ w w' : World ℕ ℕ, w.holds solo 0 ∧ w.live solo 1 ∧
    Step solo w (.move 1) w' ∧ w'.control 1 = .done ∧ w'.files.claims 1 = none ∧
    (∀ j, w.holds solo j → j = 0) ∧
    ∀ n, w.live solo n → w.files.claims n ≠ none → w'.files.claims n = none → n = 1 := by
  obtain ⟨w, hreach, hholds, hlive, hcontrol, -⟩ := rival_refused
  have hcleanup : Move solo w.life 1 (w.control 1) w.files .done (w.files.setClaim 1 none) := by
    rw [hcontrol]
    exact .cleanup
  have hstep : Step solo w (.move 1) ⟨w.life, Function.update w.control 1 .done,
      w.files.setClaim 1 none⟩ := .move hlive hcleanup
  obtain ⟨hone, hremoval⟩ := runtime_lock_mutual_exclusion hreach
  refine ⟨w, _, hholds, hlive, hstep, by simp, by simp [Files.setClaim],
    fun j hj => hone j 0 hj hholds, fun n hn hclaim hgone => ?_⟩
  obtain hown | hdead := (hremoval _ _ hstep).1 n hclaim hgone
  · cases hown
    rfl
  · exact absurd hn hdead

end Solo

end Aseos.RuntimeLock
