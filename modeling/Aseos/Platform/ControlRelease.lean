import Aseos.Platform.ControlStart
import Aseos.Platform.RuntimeLockSafety

namespace Aseos.RuntimeLock

variable {Claim Process : Type}

def Control.Past : Control Claim → Prop
  | .held _ | .releaseRead _ | .releaseLock _ | .releaseClaim _ | .done => True
  | _ => False

def Control.Unlocked (lockRemovalFailed : Bool) : Control Claim → Prop
  | .wroteLock _ | .held _ | .releaseRead _ | .releaseLock _ => False
  | .releaseClaim _ | .done => lockRemovalFailed = false
  | _ => True

def Control.Unclaimed (claimRemovalFailed : Bool) : Control Claim → Prop
  | .idle => True
  | .done => claimRemovalFailed = false
  | _ => False

structure Tidy (d : Deployment Claim Process) (me : Claim) (ctl : Control Claim)
    (f : Files Claim) (claimRemovalFailed lockRemovalFailed : Bool) : Prop where
  own : ∀ file, f.lock = some file → file.writer = some me → file.content = d.content me
  unlocked : ctl.Unlocked lockRemovalFailed → ∀ file, f.lock = some file → file.writer ≠ some me
  unclaimed : ctl.Unclaimed claimRemovalFailed → f.claims me = none

section Moves

variable {d : Deployment Claim Process} {life : Process → Life} {me : Claim}
  {ctl ctl' : Control Claim} {f f' : Files Claim} {claimFailed lockFailed : Bool}

theorem Fault.past (h : Fault ctl ctl') (hp : ctl.Past) : ctl'.Past := by
  cases h <;> trivial

theorem Fault.not_done (h : Fault ctl ctl') : ctl ≠ .done := by
  cases h <;> simp

theorem Tidy.fault (h : Tidy d me ctl f claimFailed lockFailed) (hf : Fault ctl ctl')
    (hwrote : ∀ t, ctl ≠ .wroteLock t) (hread : ∀ t, ctl ≠ .releaseRead t)
    {claimFailed' lockFailed' : Bool}
    (hclaim : ctl = .abort ∨ (∃ t, ctl = .releaseClaim t) → claimFailed' = true)
    (hlock : (∃ t, ctl = .releaseLock t) → lockFailed' = true)
    (hkept : (¬ ∃ t, ctl = .releaseLock t) → lockFailed' = lockFailed) :
    Tidy d me ctl' f claimFailed' lockFailed' := by
  cases hf with
  | makeClaim => exact ⟨h.own, fun _ => h.unlocked trivial, fun _ => h.unclaimed trivial⟩
  | wroteLock => exact absurd rfl (hwrote _)
  | releaseRead => exact absurd rfl (hread _)
  | releaseLock =>
    refine ⟨h.own, fun hfree => ?_, False.elim⟩
    simp [Control.Unlocked, hlock ⟨_, rfl⟩] at hfree
  | releaseClaim =>
    refine ⟨h.own, ?_, fun hfree => ?_⟩
    · rw [hkept (by simp)]
      exact h.unlocked
    · simp [Control.Unclaimed, hclaim (.inr ⟨_, rfl⟩)] at hfree
  | cleanup =>
    refine ⟨h.own, fun _ => h.unlocked trivial, fun hfree => ?_⟩
    simp [Control.Unclaimed, hclaim (.inl rfl)] at hfree
  | _ => exact ⟨h.own, fun _ => h.unlocked trivial, False.elim⟩

variable [LinearOrder Claim]

theorem Move.past (h : Move d life me ctl f ctl' f') (hp : ctl.Past) : ctl'.Past := by
  cases h <;> trivial

theorem Move.not_done (h : Move d life me ctl f ctl' f') : ctl ≠ .done := by
  cases h <;> simp

theorem Tidy.move (h : Tidy d me ctl f claimFailed lockFailed)
    (hm : Move d life me ctl f ctl' f') : Tidy d me ctl' f' claimFailed lockFailed := by
  cases hm with
  | writeLock => exact ⟨by rintro _ ⟨⟩ _; rfl, False.elim, False.elim⟩
  | otherLock hother =>
    refine ⟨h.own, ?_, False.elim⟩
    intro _ file hfile hwriter
    exact hother file hfile (h.own file hfile hwriter)
  | removeLock => exact ⟨by rintro _ ⟨⟩, by rintro _ _ ⟨⟩, False.elim⟩
  | removeClaim => exact ⟨h.own, h.unlocked, by simp⟩
  | cleanup => exact ⟨h.own, fun _ => h.unlocked trivial, by simp⟩
  | _ => exact ⟨h.own, h.unlocked, False.elim⟩

theorem Move.claims_none (h : Move d life me ctl f ctl' f') {n : Claim} (hn : n ≠ me)
    (hnone : f.claims n = none) : f'.claims n = none := by
  cases h with
  | @reclaim _ phase m todo claims =>
    by_cases hm : n = m
    · rw [hm, f.setClaim_claims_self]
    · rw [f.setClaim_claims_ne _ hm, hnone]
  | makeClaim | publish | removeClaim | cleanup => rw [f.setClaim_claims_ne _ hn, hnone]
  | _ => exact hnone

theorem Move.lock_of_other (h : Move d life me ctl f ctl' f') {n : Claim} (hn : n ≠ me)
    {file : LockFile Claim} (hfile : f'.lock = some file) (hwriter : file.writer = some n) :
    f.lock = some file := by
  cases h with
  | writeLock =>
    obtain rfl := Option.some.inj hfile
    exact absurd (Option.some.inj hwriter).symm hn
  | removeLock => cases hfile
  | _ => exact hfile

end Moves

section Others

variable [LinearOrder Claim] [DecidableEq Process] {d : Deployment Claim Process} {me : Claim}
  {w w' : World Claim Process} {a : Action Claim Process}

theorem Step.others (h : Step d w a w') (hmove : a ≠ .move me) (hfault : a ≠ .fault me) :
    w'.control me = w.control me ∧ (w.files.claims me = none → w'.files.claims me = none) ∧
      ∀ file, w'.files.lock = some file → file.writer = some me → w.files.lock = some file := by
  cases h with
  | start | crash => exact ⟨rfl, id, fun _ hfile _ => hfile⟩
  | @move c ctl f hc hm =>
    have hne : me ≠ c := fun heq => hmove (by rw [heq])
    exact ⟨Function.update_of_ne hne _ _, hm.claims_none hne,
      fun file hfile hwriter => hm.lock_of_other hne hfile hwriter⟩
  | @fault c ctl hc hf =>
    have hne : me ≠ c := fun heq => hfault (by rw [heq])
    exact ⟨Function.update_of_ne hne _ _, id, fun _ hfile _ => hfile⟩

theorem Tidy.others {claimFailed lockFailed : Bool}
    (h : Tidy d me (w.control me) w.files claimFailed lockFailed) (hs : Step d w a w')
    (hmove : a ≠ .move me) (hfault : a ≠ .fault me) :
    Tidy d me (w'.control me) w'.files claimFailed lockFailed := by
  obtain ⟨hcontrol, hclaims, hlock⟩ := hs.others hmove hfault
  rw [hcontrol]
  refine ⟨?_, ?_, ?_⟩
  · exact fun file hfile hwriter => h.own file (hlock file hfile hwriter) hwriter
  · exact fun hfree file hfile hwriter => h.unlocked hfree file (hlock file hfile hwriter) hwriter
  · exact fun hfree => hclaims (h.unclaimed hfree)

end Others

end Aseos.RuntimeLock

namespace Aseos.ControlApi

open RuntimeLock (World Deployment Control Tidy)

variable {Claim Process : Type}

-- The steps that leave the lock to be released: every origin is valid, no stop is requested
-- before the descriptor is written, and neither the server's close, the removal of the control
-- files, the release's read of the lock file nor the clean-up behind its rename fails.
def Guarded (parseUrl : JsString → Option Url) (options : StartControlApiOptions) (me : Claim)
    (s : Instance Claim Process) : Event Claim Process → Prop
  | .lockFault => (∀ t, s.control me ≠ .wroteLock t) ∧ ∀ t, s.control me ≠ .releaseRead t
  | .createState => ∃ origins, normalizedOrigins parseUrl options.allowedOrigins = .ok origins
  | .resolved => s.start = .writeDescriptor → s.stop = .idle
  | .rejected => ∀ step, s.start ≠ .cleaning step
  | .stopRejected => False
  | _ => True

namespace Instance

def Finished (s : Instance Claim Process) : Prop := s.start = .rejected ∨ s.stop = .settled

def Released (s : Instance Claim Process) (me : Claim) : Prop :=
  (s.claimRemovalFailed = false → s.world.files.claims me = none) ∧
    (s.lockRemovalFailed = false →
      ∀ file, s.world.files.lock = some file → file.writer ≠ some me)

end Instance

def Start.HoldsLock : Start → Prop
  | .entered | .acquiring _ | .rejected => False
  | _ => True

structure Ordered (options : StartControlApiOptions) (me : Claim)
    (s : Instance Claim Process) : Prop where
  entered : s.start = .entered → s.control me = .idle
  accepted : ∀ limits, s.start = .acquiring limits ∨ s.start = .holding limits →
    checkOptions options = .ok limits
  holds : s.start.HoldsLock → (s.control me).Past
  served : s.served = true → (s.control me).Past
  stopped : s.stop ≠ .idle → s.served = true
  rejected : s.start = .rejected →
    s.control me = .done ∨ (s.control me = .idle ∧ s.served = false)
  settled : s.stop = .settled → s.control me = .done

variable {parseUrl : JsString → Option Url} {options : StartControlApiOptions}
  {d : Deployment Claim Process} {me : Claim} {s t : Instance Claim Process}
  {e : Event Claim Process}

@[simp] theorem noteFault_start (s : Instance Claim Process) :
    (s.noteFault me).start = s.start := by
  unfold Instance.noteFault; split <;> rfl

@[simp] theorem noteFault_stop (s : Instance Claim Process) :
    (s.noteFault me).stop = s.stop := by
  unfold Instance.noteFault; split <;> rfl

@[simp] theorem noteFault_served (s : Instance Claim Process) :
    (s.noteFault me).served = s.served := by
  unfold Instance.noteFault; split <;> rfl

theorem Ordered.setWorld {ctl : Control Claim} (h : Ordered options me s)
    (hpending : s.lockPending me) (hnot : s.control me ≠ .done)
    (hpast : (s.control me).Past → ctl.Past) (hstart : t.start = s.start)
    (hstop : t.stop = s.stop) (hserved : t.served = s.served) (hcontrol : t.control me = ctl) :
    Ordered options me t := by
  have hlate : s.start = .cleaning .releaseLock ∨ s.stop = .cleaning .releaseLock →
      (s.control me).Past := by
    rintro (hclean | hclean)
    · exact h.holds (by rw [hclean]; trivial)
    · exact h.served (h.stopped (by simp [hclean]))
  have hacquiring : ¬ (s.control me).Past → ∃ limits, s.start = .acquiring limits := by
    intro hearly
    rcases hpending with ⟨limits, hlimits, -⟩ | hclean
    · exact ⟨limits, hlimits⟩
    · exact absurd (hlate hclean) hearly
  refine ⟨?_, ?_, ?_, ?_, ?_, ?_, ?_⟩
  · intro hentered
    rw [hstart] at hentered
    obtain ⟨limits, hlimits⟩ := hacquiring (by simp [h.entered hentered, Control.Past])
    simp [hentered] at hlimits
  · rw [hstart]
    exact h.accepted
  · intro hholds
    rw [hcontrol]
    exact hpast (h.holds (hstart ▸ hholds))
  · intro hs
    rw [hcontrol]
    exact hpast (h.served (hserved ▸ hs))
  · rw [hstop, hserved]
    exact h.stopped
  · intro hrejected
    rw [hstart] at hrejected
    rcases h.rejected hrejected with hdone | ⟨hidle, -⟩
    · exact absurd hdone hnot
    · obtain ⟨limits, hlimits⟩ := hacquiring (by simp [hidle, Control.Past])
      simp [hrejected] at hlimits
  · intro hsettled
    exact absurd (h.settled (hstop ▸ hsettled)) hnot

theorem Ordered.initial (h : Initial s) : Ordered options me s := by
  obtain ⟨hworld, hstart, hstop, -, hserved, -, -⟩ := h
  refine ⟨fun _ => hworld.2.1 me, ?_, ?_, ?_, ?_, ?_, ?_⟩ <;>
    simp [hstart, hstop, hserved, Start.HoldsLock]

theorem Ordered.progress (h : Ordered options me s)
    (hp : Progress parseUrl options me s e t) (hguard : Guarded parseUrl options me s e) :
    Ordered options me t := by
  obtain ⟨hentered, haccepted, hholds, hserved, hstopped, hrejected, hsettled⟩ := h
  cases hp with
  | accept hstart haccept =>
    refine ⟨by simp, ?_, by simp [Start.HoldsLock], hserved, hstopped, by simp, hsettled⟩
    rintro limits (hlimits | hlimits)
    · obtain rfl := Start.acquiring.inj hlimits
      exact haccept
    · cases hlimits
  | refuse hstart =>
    refine ⟨by simp, by simp, by simp [Start.HoldsLock], hserved, hstopped, ?_, hsettled⟩
    intro _
    have hidle := hentered hstart
    refine .inr ⟨hidle, ?_⟩
    by_contra hserved'
    have hpast := hserved (by simpa using hserved')
    simp [hidle, Control.Past] at hpast
  | acquired hstart hcontrol =>
    refine ⟨by simp, ?_, ?_, hserved, hstopped, by simp, hsettled⟩
    · rintro limits (hlimits | hlimits)
      · cases hlimits
      · obtain rfl := Start.holding.inj hlimits
        exact haccepted _ (.inl hstart)
    · intro _
      show (s.control me).Past
      rw [hcontrol]
      trivial
  | notAcquired _ hdone | released _ hdone =>
    exact ⟨by simp, by simp, by simp [Start.HoldsLock], hserved, hstopped, fun _ => .inl hdone,
      hsettled⟩
  | stopReleased hstop hdone =>
    exact ⟨hentered, haccepted, hholds, hserved, fun _ => hstopped (by simp [hstop]), hrejected,
      fun _ => hdone⟩
  | stateCreated hstart | tokenCreated hstart | descriptorWritten hstart | serverClosed hstart
  | filesRemoved hstart =>
    have hpast : (s.control me).Past := hholds (by rw [hstart]; trivial)
    exact ⟨by simp, by simp, fun _ => hpast, hserved, hstopped, by simp, hsettled⟩
  | tokenFailed hstart | listenFailed hstart | descriptorFailed hstart =>
    have hpast : (s.control me).Past := hholds (by rw [hstart]; trivial)
    exact ⟨by simp [Instance.fail], by simp [Instance.fail], fun _ => hpast, hserved, hstopped,
      by simp [Instance.fail], hsettled⟩
  | listening hstart =>
    have hpast : (s.control me).Past := hholds (by rw [hstart]; trivial)
    exact ⟨by simp [Instance.listen], by simp [Instance.listen], fun _ => hpast, fun _ => hpast,
      fun _ => rfl, by simp [Instance.listen], hsettled⟩
  | bindUnsafe hstart =>
    have hpast : (s.control me).Past := hholds (by rw [hstart]; trivial)
    exact ⟨by simp [Instance.fail], by simp [Instance.fail], fun _ => hpast, fun _ => hpast,
      fun _ => rfl, by simp [Instance.fail], hsettled⟩
  | stop hs =>
    exact ⟨hentered, haccepted, hholds, hserved, fun _ => hs, hrejected, by simp [Instance.requestStop]⟩
  | stopServerClosed hstop | stopFilesRemoved hstop =>
    exact ⟨hentered, haccepted, hholds, hserved, fun _ => hstopped (by simp [hstop]), hrejected,
      by simp⟩
  | stateThrew hstart hthrew =>
    obtain ⟨origins, horigins⟩ := hguard
    rw [createState_eq (haccepted _ (.inr hstart)), horigins] at hthrew
    cases hthrew
  | runtimeStopped hstart hstop => exact absurd (hguard hstart) hstop
  | cleanupFailed hstart => exact absurd hstart (hguard _)
  | stopCleanupFailed => exact hguard.elim

def TidyInstance (d : Deployment Claim Process) (me : Claim) (s : Instance Claim Process) : Prop :=
  Tidy d me (s.control me) s.world.files s.claimRemovalFailed s.lockRemovalFailed

theorem TidyInstance.progress (h : TidyInstance d me s)
    (hp : Progress parseUrl options me s e t) : TidyInstance d me t := by
  cases hp <;> exact h

theorem TidyInstance.initial (h : Initial s) : TidyInstance d me s := by
  obtain ⟨hworld, -, -, -, -, -, -⟩ := h
  obtain ⟨-, -, hclaims, hlock⟩ := hworld
  refine ⟨?_, ?_, fun _ => hclaims me⟩ <;> intros <;> simp_all

def GuardedReachable [LinearOrder Claim] [DecidableEq Process]
    (parseUrl : JsString → Option Url) (options : StartControlApiOptions) (d : Deployment Claim Process) (me : Claim) : Instance Claim Process → Prop :=
  TransitionSystem.Reachable Initial fun s e t =>
    Guarded parseUrl options me s e ∧ Step parseUrl options d me s e t

variable [LinearOrder Claim] [DecidableEq Process]

theorem GuardedReachable.reachable (h : GuardedReachable parseUrl options d me s) :
    Reachable parseUrl options d me s := by
  refine TransitionSystem.Reachable.invariant ?_ ?_ h
  · exact fun _ h₀ => .refl h₀
  · exact fun _ _ _ hs hr => hr.tail hs.2

theorem lockMove_control {w w' : World Claim Process}
    (h : RuntimeLock.Step d w (.move me) w') :
    ∃ ctl f, RuntimeLock.Move d w.life me (w.control me) w.files ctl f ∧ w'.control me = ctl ∧
      w'.files = f := by
  cases h with
  | move _ hm => exact ⟨_, _, hm, Function.update_self .., rfl⟩

theorem lockFault_control {w w' : World Claim Process}
    (h : RuntimeLock.Step d w (.fault me) w') :
    ∃ ctl, RuntimeLock.Fault (w.control me) ctl ∧ w'.control me = ctl ∧ w'.files = w.files := by
  cases h with
  | fault _ hf => exact ⟨_, hf, Function.update_self .., rfl⟩

theorem Ordered.step (h : Ordered options me s) (hs : Step parseUrl options d me s e t)
    (hguard : Guarded parseUrl options me s e) : Ordered options me t := by
  cases hs with
  | own _ hp => exact h.progress hp hguard
  | lockMove hpending hm =>
    obtain ⟨ctl, f, hmove, hcontrol, -⟩ := lockMove_control hm
    exact h.setWorld hpending hmove.not_done hmove.past rfl rfl rfl hcontrol
  | lockFault hpending hf =>
    obtain ⟨ctl, hfault, hcontrol, -⟩ := lockFault_control hf
    exact h.setWorld hpending hfault.not_done hfault.past (by simp) (by simp) (by simp) hcontrol
  | others hmove hfault hw =>
    have hcontrol : ∀ w, ({ s with world := w } : Instance Claim Process).control me =
        w.control me := fun _ => rfl
    obtain ⟨heq, -, -⟩ := hw.others hmove hfault
    refine ⟨?_, h.accepted, ?_, ?_, h.stopped, ?_, ?_⟩ <;> rw [hcontrol, heq]
    · exact h.entered
    · exact h.holds
    · exact h.served
    · exact h.rejected
    · exact h.settled

theorem TidyInstance.lockFault {w : World Claim Process} (h : TidyInstance d me s)
    (hf : RuntimeLock.Step d s.world (.fault me) w)
    (hguard : Guarded parseUrl options me s .lockFault) :
    TidyInstance d me { s.noteFault me with world := w } := by
  obtain ⟨ctl, hfault, hcontrol, hfiles⟩ := lockFault_control hf
  show Tidy d me (w.control me) w.files (s.noteFault me).claimRemovalFailed
    (s.noteFault me).lockRemovalFailed
  rw [hcontrol, hfiles]
  refine Tidy.fault h hfault hguard.1 hguard.2 ?_ ?_ ?_
  · rintro (hctl | ⟨t, hctl⟩) <;>
      simp [Instance.noteFault, show s.control me = _ from hctl]
  · rintro ⟨t, hctl⟩
    simp [Instance.noteFault, show s.control me = _ from hctl]
  · intro hother
    unfold Instance.noteFault
    split
    · rfl
    · rfl
    · rename_i t hctl
      exact absurd ⟨t, hctl⟩ hother
    · rfl

theorem TidyInstance.step (h : TidyInstance d me s) (hs : Step parseUrl options d me s e t)
    (hguard : Guarded parseUrl options me s e) : TidyInstance d me t := by
  cases hs with
  | own _ hp => exact h.progress hp
  | lockMove _ hm =>
    obtain ⟨ctl, f, hmove, hcontrol, hfiles⟩ := lockMove_control hm
    have htidy := Tidy.move h hmove
    rwa [← hcontrol, ← hfiles] at htidy
  | lockFault _ hf => exact h.lockFault hf hguard
  | others hmove hfault hw => exact Tidy.others h hw hmove hfault

theorem GuardedReachable.invariant (h : GuardedReachable parseUrl options d me s) :
    Ordered options me s ∧ TidyInstance d me s := by
  refine TransitionSystem.Reachable.invariant
    (P := fun s => Ordered options me s ∧ TidyInstance d me s) ?_ ?_ h
  · exact fun s h₀ => ⟨.initial h₀, .initial h₀⟩
  · exact fun _ _ _ hs hinv => ⟨hinv.1.step hs.2 hs.1, hinv.2.step hs.2 hs.1⟩

theorem GuardedReachable.released (h : GuardedReachable parseUrl options d me s)
    (hfinished : s.Finished) : s.Released me := by
  obtain ⟨hordered, htidy⟩ := h.invariant
  have hend : s.control me = .done ∨ s.control me = .idle := by
    rcases hfinished with hrejected | hsettled
    · exact (hordered.rejected hrejected).imp_right And.left
    · exact .inl (hordered.settled hsettled)
  refine ⟨fun hclaim => htidy.unclaimed ?_, fun hlock => htidy.unlocked ?_⟩
  · rcases hend with hend | hend <;> simp [hend, hclaim, Control.Unclaimed]
  · rcases hend with hend | hend <;> simp [hend, hlock, Control.Unlocked]

theorem Step.world (hs : Step parseUrl options d me s e t) :
    t.world = s.world ∨ ∃ a, RuntimeLock.Step d s.world a t.world := by
  cases hs with
  | own _ hp => cases hp <;> exact .inl rfl
  | lockMove _ hw | lockFault _ hw | others _ _ hw => exact .inr ⟨_, hw⟩

theorem Reachable.world (h : Reachable parseUrl options d me s) :
    RuntimeLock.Reachable d s.world := by
  refine TransitionSystem.Reachable.invariant (P := fun s => RuntimeLock.Reachable d s.world)
    ?_ ?_ h
  · exact fun _ h₀ => .refl h₀.1
  · intro s e t hs hr
    rcases hs.world with heq | ⟨a, hw⟩
    · rw [heq]
      exact hr
    · exact hr.tail hw

theorem Reachable.removal_done (h : Reachable parseUrl options d me s) :
    s.claimRemovalFailed = true → s.control me = .done := by
  refine TransitionSystem.Reachable.invariant
    (P := fun s : Instance Claim Process => s.claimRemovalFailed = true → s.control me = .done)
    ?_ ?_ h
  · intro s h₀ hfailed
    simp [h₀.2.2.2.2.2.1] at hfailed
  · intro s e t hs ih
    cases hs with
    | own _ hp => cases hp <;> exact ih
    | lockMove _ hm =>
      obtain ⟨ctl, f, hmove, -, -⟩ := lockMove_control hm
      exact fun hfailed => absurd (ih hfailed) hmove.not_done
    | @lockFault w _ hf =>
      obtain ⟨ctl, hfault, hcontrol, -⟩ := lockFault_control hf
      intro hfailed
      show w.control me = .done
      rw [hcontrol]
      have hkept : s.claimRemovalFailed = true → ctl = .done :=
        fun hold => absurd (ih hold) hfault.not_done
      cases hctl : s.control me with
      | abort | releaseClaim t =>
        rw [show s.world.control me = _ from hctl] at hfault
        cases hfault
        rfl
      | _ => exact hkept (by simpa [Instance.noteFault, hctl] using hfailed)
    | others hmove hfault hw =>
      intro hfailed
      exact (hw.others hmove hfault).1.trans (ih hfailed)

theorem Reachable.claim_left (h : Reachable parseUrl options d me s)
    (hheld : s.world.holds d me) : ¬ s.Released me := by
  obtain ⟨hlive, ticket, hcontrol⟩ := hheld
  intro hreleased
  have hclaim := h.world.invariant.published me ticket hlive (by rw [hcontrol]; rfl)
  have hfailed : s.claimRemovalFailed = false := by
    by_contra hfailed
    have hdone := h.removal_done (by simpa using hfailed)
    rw [show s.control me = _ from hcontrol] at hdone
    cases hdone
  rw [hreleased.1 hfailed] at hclaim
  cases hclaim

theorem runtime_lock_released :
    (∀ s, GuardedReachable parseUrl options d me s → s.Finished → s.Released me) ∧
    ∀ s, Reachable parseUrl options d me s → s.Finished → s.world.holds d me →
      ¬ s.Released me :=
  ⟨fun _ h hfinished => h.released hfinished, fun _ h _ hheld => h.claim_left hheld⟩

section Solo

open RuntimeLock (Acquires solo soloStart solo_wrote)

theorem GuardedReachable.tail (h : GuardedReachable parseUrl options d me s)
    (hs : Step parseUrl options d me s e t) (hguard : Guarded parseUrl options me s e) :
    GuardedReachable parseUrl options d me t :=
  TransitionSystem.Reachable.tail h ⟨hguard, hs⟩

theorem GuardedReachable.acquires {limits : ControlApiLimits} {w : World Claim Process}
    {labels : List (RuntimeLock.Action Claim Process)}
    (h : GuardedReachable parseUrl options d me s) (hstart : s.start = .acquiring limits)
    (hrun : TransitionSystem.Run (Acquires d me) s.world labels w) :
    GuardedReachable parseUrl options d me { s with world := w } := by
  refine hrun.invariant
    (P := fun w => GuardedReachable parseUrl options d me { s with world := w }) ?_ h
  rintro v a w ⟨rfl, hfree, hs⟩ hv
  exact hv.tail (.lockMove (.inl ⟨limits, hstart, hfree⟩) hs) trivial

def localOrigin : JsString := js "http://localhost:3000"

def parseLocal (text : JsString) : Option Url :=
  if text = localOrigin then some ⟨[], [], localOrigin⟩ else none

def soloOptions (origin : JsString) : StartControlApiOptions :=
  ⟨js "data", js "1.0.0", js "release", fun _ => none, some [origin]⟩

theorem solo_accepted (origin : JsString) :
    checkOptions (soloOptions origin) = .ok defaultLimits := by
  have hidentity : ¬ (JsString.trim (js "data") = [] ∨ Pattern.semver.test (js "1.0.0") = false ∨
      (js "release").length < 1 ∨ (js "release").length > 256) := by decide
  have hlimits : LimitName.all.find? (fun name => !(defaultLimits name).isPositiveSafeInteger) =
      none := by decide
  unfold checkOptions soloOptions mergeLimits
  simp only [Option.getD_none, hlimits, if_neg hidentity]

abbrev SoloReachable (origin : JsString) : Instance ℕ ℕ → Prop :=
  GuardedReachable parseLocal (soloOptions origin) solo 0

structure SoloAt (origin : JsString) (start : Start) (ctl : Control ℕ) (s : Instance ℕ ℕ) :
    Prop where
  reachable : SoloReachable origin s
  start : s.start = start
  stop : s.stop = .idle
  live : s.world.live solo 0
  control : s.control 0 = ctl
  lock : s.world.files.lock = some ⟨solo.content 0, some 0⟩
  kept : s.claimRemovalFailed = false ∧ s.lockRemovalFailed = false

theorem solo_acquiring (origin : JsString) :
    ∃ s, SoloAt origin (.acquiring defaultLimits) (.wroteLock 1) s := by
  have h0 : SoloReachable origin ⟨⟨fun _ => .unborn, fun _ => .idle, ⟨fun _ => none, none⟩⟩,
      .entered, .idle, false, false, false, false⟩ :=
    .refl ⟨⟨fun _ => rfl, fun _ => rfl, fun _ => rfl, fun _ h => by cases h⟩, rfl, rfl, rfl, rfl,
      rfl, rfl⟩
  have h1 : SoloReachable origin ⟨soloStart, .entered, .idle, false, false, false, false⟩ :=
    h0.tail (.others (a := .start 0) (by simp) (by simp) (.start rfl (fun q hq => by cases hq)))
      trivial
  have h2 := h1.tail (.own rfl (.accept rfl (solo_accepted origin))) trivial
  obtain ⟨labels, hrun⟩ := solo_wrote
  exact ⟨_, h2.acquires rfl hrun, rfl, rfl, rfl, rfl, rfl, rfl, rfl⟩

theorem solo_holding (origin : JsString) :
    ∃ s, SoloAt origin (.holding defaultLimits) (.held 1) s := by
  obtain ⟨s, h⟩ := solo_acquiring origin
  have hmove : RuntimeLock.Move solo s.world.life 0 (s.world.control 0) s.world.files (.held 1)
      s.world.files := by
    rw [show s.world.control 0 = _ from h.control]
    exact .acquired
  have hpending : s.lockPending 0 := .inl ⟨_, h.start, by simp [h.control]⟩
  have h1 := h.reachable.tail (.lockMove hpending (.move h.live hmove)) trivial
  have h2 := h1.tail (.own h.live (.acquired (t := 1) h.start rfl)) trivial
  exact ⟨_, h2, rfl, h.stop, h.live, rfl, h.lock, h.kept⟩

theorem solo_origins : normalizedOrigins parseLocal (soloOptions localOrigin).allowedOrigins =
    .ok [localOrigin] := by
  simp [normalizedOrigins, soloOptions, parseLocal, addOrigin]

theorem solo_running : ∃ s, SoloAt localOrigin .running (.held 1) s ∧ s.listening = true ∧
    s.served = true := by
  obtain ⟨s, h⟩ := solo_holding localOrigin
  have hstate := (createState_eq (solo_accepted localOrigin)).trans solo_origins
  have h1 := h.reachable.tail (.own h.live (.stateCreated h.start hstate)) ⟨_, solo_origins⟩
  have h2 := h1.tail (.own h.live (.tokenCreated rfl)) (by simp [Guarded])
  have h3 := h2.tail (.own h.live (.listening rfl)) (by simp [Guarded])
  have h4 := h3.tail (.own h.live (.descriptorWritten rfl h.stop)) (fun _ => h.stop)
  exact ⟨_, ⟨h4, rfl, h.stop, h.live, h.control, h.lock, h.kept⟩, rfl, rfl⟩

theorem solo_releasing : ∃ s, SoloReachable localOrigin s ∧ s.stop = .cleaning .releaseLock ∧
    s.world.live solo 0 ∧ s.control 0 = .releaseRead 1 ∧
    s.world.files.lock = some ⟨solo.content 0, some 0⟩ ∧ s.claimRemovalFailed = false ∧
    s.lockRemovalFailed = false := by
  obtain ⟨s, h, hlistening, hserved⟩ := solo_running
  have h1 := h.reachable.tail (.own h.live (.stop hserved h.stop)) trivial
  have h2 := h1.tail (.own h.live (.stopServerClosed (by
    simp [Instance.requestStop, Cleanup.first, hlistening]))) trivial
  have h3 := h2.tail (.own h.live (.stopFilesRemoved rfl)) trivial
  have hmove : RuntimeLock.Move solo s.world.life 0 (s.world.control 0) s.world.files
      (.releaseRead 1) s.world.files := by
    rw [show s.world.control 0 = _ from h.control]
    exact .release
  have h4 := h3.tail (.lockMove (.inr (.inr rfl)) (.move h.live hmove)) trivial
  exact ⟨_, h4, rfl, h.live, rfl, h.lock, h.kept⟩

theorem solo_released : ∃ s, SoloReachable localOrigin s ∧ s.stop = .settled ∧
    s.world.files.claims 0 = none ∧ ∀ file, s.world.files.lock = some file → file.writer ≠ some 0 := by
  obtain ⟨s, h, hstop, hlive, hcontrol, hlock, hclaim, hremoval⟩ := solo_releasing
  have hread : RuntimeLock.Move solo s.world.life 0 (s.world.control 0) s.world.files
      (.releaseLock 1) s.world.files := by
    rw [show s.world.control 0 = _ from hcontrol]
    exact .ownLock hlock rfl
  have h1 := h.tail (.lockMove (.inr (.inr hstop)) (.move hlive hread)) trivial
  have h2 := h1.tail (.lockMove (.inr (.inr hstop)) (.move (c := 0) hlive (.removeLock))) trivial
  have h3 := h2.tail (.lockMove (.inr (.inr hstop)) (.move (c := 0) hlive (.removeClaim))) trivial
  have h4 := h3.tail (.own hlive (.stopReleased hstop rfl)) trivial
  have hreleased := runtime_lock_released.1 _ h4 (.inr rfl)
  exact ⟨_, h4, rfl, hreleased.1 hclaim, hreleased.2 hremoval⟩

abbrev SoloRun (origin : JsString) : Instance ℕ ℕ → Prop :=
  Reachable parseLocal (soloOptions origin) solo 0

theorem SoloAt.left {origin : JsString} {start : Start} {s t : Instance ℕ ℕ}
    (h : SoloAt origin start (.held 1) s) (ht : SoloRun origin t) (hworld : t.world = s.world) :
    ¬ t.Released 0 := by
  refine ht.claim_left ?_
  rw [hworld]
  exact ⟨h.live, 1, h.control⟩

theorem lock_file_left {s : Instance ℕ ℕ}
    (hlock : s.world.files.lock = some ⟨solo.content 0, some 0⟩)
    (hkept : s.lockRemovalFailed = false) : ¬ s.Released 0 :=
  fun h => h.2 hkept _ hlock rfl

theorem left_by_invalid_origin : ∃ s, SoloRun (js "localhost") s ∧ s.start = .rejected ∧
    ¬ s.Released 0 := by
  obtain ⟨s, h⟩ := solo_holding (js "localhost")
  have hthrew : normalizedOrigins parseLocal (soloOptions (js "localhost")).allowedOrigins =
      .error .originUnparsable := by
    have hother : js "localhost" ≠ localOrigin := by decide
    simp [normalizedOrigins, soloOptions, parseLocal, hother]
  have hstate := (createState_eq (solo_accepted (js "localhost"))).trans hthrew
  have h1 := h.reachable.reachable.tail (.own h.live (.stateThrew h.start hstate))
  exact ⟨_, h1, rfl, h.left h1 rfl⟩

theorem left_by_failed_removal : ∃ s, SoloRun localOrigin s ∧ s.start = .rejected ∧
    ¬ s.Released 0 := by
  obtain ⟨s, h⟩ := solo_holding localOrigin
  have hstate := (createState_eq (solo_accepted localOrigin)).trans solo_origins
  have h1 := h.reachable.reachable.tail (.own h.live (.stateCreated h.start hstate))
  have h2 := h1.tail (.own h.live (.tokenFailed rfl))
  have h3 := h2.tail (.own h.live (.cleanupFailed rfl (by
    unfold Cleanup.first; split <;> simp)))
  exact ⟨_, h3, rfl, h.left h3 rfl⟩

theorem left_by_failed_close : ∃ s, SoloRun localOrigin s ∧ s.stop = .settled ∧
    ¬ s.Released 0 := by
  obtain ⟨s, h, hlistening, hserved⟩ := solo_running
  have h1 := h.reachable.reachable.tail (.own h.live (.stop hserved h.stop))
  have h2 := h1.tail (.own h.live (@Progress.stopCleanupFailed _ _ _ _ _ _ .closeServer (by
    simp [Instance.requestStop, Cleanup.first, hlistening]) (by simp)))
  exact ⟨_, h2, rfl, h.left h2 rfl⟩

theorem left_by_failed_cleanup : ∃ s, SoloRun localOrigin s ∧ s.start = .rejected ∧
    s.world.files.claims 0 = none ∧ ¬ s.Released 0 := by
  obtain ⟨s, h⟩ := solo_acquiring localOrigin
  have hpending : s.lockPending 0 := .inl ⟨_, h.start, by simp [h.control]⟩
  have hfault : RuntimeLock.Fault (s.world.control 0) .abort := by
    rw [show s.world.control 0 = _ from h.control]
    exact .wroteLock
  have h1 := h.reachable.reachable.tail (.lockFault hpending (.fault h.live hfault))
  have hnote : s.noteFault 0 = s := by simp [Instance.noteFault, h.control]
  rw [hnote] at h1
  have h2 := h1.tail (.lockMove (.inl ⟨_, h.start, fun _ h => nomatch h⟩)
    (.move (c := 0) h.live .cleanup))
  have h3 := h2.tail (.own h.live (.notAcquired h.start rfl))
  exact ⟨_, h3, rfl, rfl, lock_file_left h.lock h.kept.2⟩

theorem left_by_failed_read : ∃ s, SoloRun localOrigin s ∧ s.stop = .settled ∧
    s.world.files.claims 0 = none ∧ ¬ s.Released 0 := by
  obtain ⟨s, h, hstop, hlive, hcontrol, hlock, -, hkept⟩ := solo_releasing
  have hfault : RuntimeLock.Fault (s.world.control 0) (.releaseClaim 1) := by
    rw [show s.world.control 0 = _ from hcontrol]
    exact .releaseRead
  have h1 := h.reachable.tail (.lockFault (.inr (.inr hstop)) (.fault hlive hfault))
  have hnote : s.noteFault 0 = s := by simp [Instance.noteFault, hcontrol]
  rw [hnote] at h1
  have h2 := h1.tail (.lockMove (.inr (.inr hstop)) (.move (c := 0) hlive .removeClaim))
  have h3 := h2.tail (.own hlive (.stopReleased hstop rfl))
  exact ⟨_, h3, rfl, rfl, lock_file_left hlock hkept⟩

theorem left_by_early_stop : ∃ s, SoloRun localOrigin s ∧ s.start = .rejected ∧
    s.stop = .cleaning .closeServer ∧ ¬ s.Released 0 := by
  obtain ⟨s, h⟩ := solo_holding localOrigin
  have hstate := (createState_eq (solo_accepted localOrigin)).trans solo_origins
  have h1 := h.reachable.reachable.tail (.own h.live (.stateCreated h.start hstate))
  have h2 := h1.tail (.own h.live (.tokenCreated rfl))
  have h3 := h2.tail (.own h.live (.listening rfl))
  have h4 := h3.tail (.own h.live (.stop rfl h.stop))
  have h5 := h4.tail (.own h.live (.runtimeStopped rfl (by simp [Instance.requestStop])))
  exact ⟨_, h5, rfl, rfl, h.left h5 rfl⟩

theorem runtime_lock_left_behind :
    (∃ s, SoloRun (js "localhost") s ∧ s.start = .rejected ∧ ¬ s.Released 0) ∧
    (∃ s, SoloRun localOrigin s ∧ s.start = .rejected ∧ ¬ s.Released 0) ∧
    (∃ s, SoloRun localOrigin s ∧ s.stop = .settled ∧ ¬ s.Released 0) ∧
    (∃ s, SoloRun localOrigin s ∧ s.start = .rejected ∧ s.world.files.claims 0 = none ∧
      ¬ s.Released 0) ∧
    (∃ s, SoloRun localOrigin s ∧ s.stop = .settled ∧ s.world.files.claims 0 = none ∧
      ¬ s.Released 0) ∧
    ∃ s, SoloRun localOrigin s ∧ s.start = .rejected ∧ s.stop = .cleaning .closeServer ∧
      ¬ s.Released 0 :=
  ⟨left_by_invalid_origin, left_by_failed_removal, left_by_failed_close, left_by_failed_cleanup,
    left_by_failed_read, left_by_early_stop⟩

end Solo

end Aseos.ControlApi
