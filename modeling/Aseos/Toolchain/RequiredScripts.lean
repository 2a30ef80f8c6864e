import Aseos.Library.Splitting
import Aseos.Toolchain.AuthorityLock

namespace Aseos.ScopePolicy

open Splitting (split words)

structure Scripts (Command : Type) where
  entries : List (JsString × Command)
  distinct : (entries.map Prod.fst).Nodup

structure PackageManifest (Command : Type) where
  scripts : Option (Scripts Command)

inductive ScopeError where
  | typeError
  | code (text : JsString)

def requireCondition (condition : Bool) (code : JsString) : Except ScopeError Unit :=
  if condition then .ok () else .error (.code code)

-- `currentPackage.scripts?.[name]`
def PackageManifest.script (manifest : PackageManifest JsValue) (name : JsString) : JsValue :=
  match manifest.scripts with
  | none => .undefined
  | some scripts => ((scripts.entries.find? fun e => e.1 = name).map Prod.snd).getD .undefined

def steps (command : JsString) : List JsString := split (js " && ") command

def qualificationStep : JsString := js "pnpm run kernel:qualify"

def otherSteps (command : JsString) : List JsString :=
  (steps command).filter (· ≠ qualificationStep)

def keepsQuality (command : JsString) : JsValue → Bool
  | .string current => (js " && ").intercalate (otherSteps current) = command
  | _ => false

-- /[;&|<>\r\n]/
def isShellOperator (c : CodeUnit) : Bool := c.isAny ";&|<>" || c.val == 13 || c.val == 10

def keepsFormat (command : JsString) : JsValue → Bool
  | .string current =>
      command.isPrefixOf current && !(current.drop command.length).any isShellOperator
  | _ => false

def formatScripts : List JsString := [js "format", js "format:write"]

def requireScript (currentPackage : PackageManifest JsValue) (entry : JsString × JsString) :
    Except ScopeError Unit :=
  let current := currentPackage.script entry.1
  if entry.1 = js "quality" then
    requireCondition (keepsQuality entry.2 current) (js "P2_REQUIRED_QUALITY_WEAKENED")
  else if entry.1 ∈ formatScripts then
    requireCondition (keepsFormat entry.2 current) (js "P2_REQUIRED_FORMAT_WEAKENED")
  else
    requireCondition (strictlyEqual current (.string entry.2))
      (js "P2_REQUIRED_SCRIPT_CHANGED: " ++ entry.1)

def validatePhase2RequiredScripts (basePackage : PackageManifest JsString)
    (currentPackage : PackageManifest JsValue) : Except ScopeError Unit := do
  match basePackage.scripts with
  | none => throw .typeError
  | some scripts => scripts.entries.forM (requireScript currentPackage)
  let qualification := currentPackage.script (js "kernel:qualify")
  if !strictlyEqual qualification .undefined then
    requireCondition
      (strictlyEqual qualification
        (.string (js "pnpm run build && node scripts/qualification/kernel/qualify-kernel.mjs")))
      (js "P2_KERNEL_QUALIFICATION_COMMAND_MISMATCH")

section Kept

variable (basePackage : PackageManifest JsString) (currentPackage : PackageManifest JsValue)

def PackageManifest.Runs (name command : JsString) : Prop :=
  ∃ scripts, basePackage.scripts = some scripts ∧ (name, command) ∈ scripts.entries

def arguments (command : JsString) : List JsString := words 32 command

structure RequiredScriptsKept : Prop where
  present : ∀ name command, basePackage.Runs name command →
    currentPackage.script name ≠ .undefined
  quality : ∀ command, basePackage.Runs (js "quality") command →
    ∃ current, currentPackage.script (js "quality") = .string current ∧
      (steps command).Sublist (steps current)
  format : ∀ name ∈ formatScripts, ∀ command, basePackage.Runs name command →
    ∃ current, currentPackage.script name = .string current ∧
      arguments command <+: arguments current
  others : ∀ name command, basePackage.Runs name command → name ≠ js "quality" →
    name ∉ formatScripts → currentPackage.script name = .string command

structure ExtendsAtSeams : Prop where
  format : ∀ name ∈ formatScripts, ∀ command current, basePackage.Runs name command →
    currentPackage.script name = .string current →
      (∀ c ∈ command.getLast?, c = 32) ∨ ∀ c ∈ (current.drop command.length).head?, c = 32
  quality : ∀ current, basePackage.Runs (js "quality") [] →
    currentPackage.script (js "quality") = .string current →
      ∃ step ∈ steps current, step ≠ qualificationStep

end Kept

section Acceptance

variable {basePackage : PackageManifest JsString} {currentPackage : PackageManifest JsValue}

theorem requireCondition_eq_ok {condition : Bool} {code : JsString} :
    requireCondition condition code = .ok () ↔ condition = true := by
  cases condition <;> simp [requireCondition]

theorem accepted_script (h : validatePhase2RequiredScripts basePackage currentPackage = .ok ())
    {name command : JsString} (hruns : basePackage.Runs name command) :
    requireScript currentPackage (name, command) = .ok () := by
  obtain ⟨scripts, hscripts, hmem⟩ := hruns
  rw [validatePhase2RequiredScripts, hscripts] at h
  obtain ⟨_, hentries, -⟩ := Except.bind_eq_ok.mp h
  exact Except.forM_eq_ok.mp hentries _ hmem

theorem quality_kept (h : validatePhase2RequiredScripts basePackage currentPackage = .ok ())
    {command : JsString} (hruns : basePackage.Runs (js "quality") command) :
    ∃ current, currentPackage.script (js "quality") = .string current ∧
      (js " && ").intercalate (otherSteps current) = command := by
  have hscript := accepted_script h hruns
  rw [requireScript, if_pos rfl, requireCondition_eq_ok] at hscript
  generalize currentPackage.script (js "quality") = value at hscript
  cases value with
  | string current => exact ⟨current, rfl, by simpa [keepsQuality] using hscript⟩
  | _ => cases hscript

theorem format_kept (h : validatePhase2RequiredScripts basePackage currentPackage = .ok ())
    {name command : JsString} (hname : name ∈ formatScripts)
    (hruns : basePackage.Runs name command) :
    ∃ current, currentPackage.script name = .string current ∧ command <+: current := by
  have hscript := accepted_script h hruns
  have hne : name ≠ js "quality" := by
    rintro rfl
    exact absurd hname (by decide)
  rw [requireScript, if_neg hne, if_pos hname, requireCondition_eq_ok] at hscript
  generalize currentPackage.script name = value at hscript
  cases value with
  | string current =>
    exact ⟨current, rfl, List.isPrefixOf_iff_prefix.mp (Bool.and_eq_true_iff.mp hscript).1⟩
  | _ => cases hscript

theorem other_kept (h : validatePhase2RequiredScripts basePackage currentPackage = .ok ())
    {name command : JsString} (hruns : basePackage.Runs name command) (hquality : name ≠ js "quality")
    (hformat : name ∉ formatScripts) : currentPackage.script name = .string command := by
  have hscript := accepted_script h hruns
  rwa [requireScript, if_neg hquality, if_neg hformat, requireCondition_eq_ok,
    strictlyEqual_string_right] at hscript

theorem separator_ne_nil : js " && " ≠ [] := by decide

theorem steps_kept_iff {command current : JsString}
    (h : (js " && ").intercalate (otherSteps current) = command) :
    (steps command).Sublist (steps current) ↔
      (command = [] → ∃ step ∈ steps current, step ≠ qualificationStep) := by
  have hkept : (otherSteps current).Sublist (steps current) := List.filter_sublist
  rcases eq_or_ne (otherSteps current) [] with hnone | hsome
  · have hcommand : command = [] := by
      rw [← h, hnone]
      rfl
    have hall : ∀ step ∈ steps current, step = qualificationStep := by
      simpa [otherSteps] using hnone
    subst hcommand
    refine ⟨fun hsub => ?_, fun hexists => ?_⟩
    · have hempty := hall [] (hsub.subset (List.mem_singleton.mpr rfl))
      exact absurd hempty (by decide)
    · obtain ⟨step, hstep, hne⟩ := hexists rfl
      exact absurd (hall step hstep) hne
  · have hsteps : steps command = otherSteps current := by
      rw [steps, ← h]
      exact Splitting.split_intercalate_sublist separator_ne_nil hkept hsome
    rw [hsteps]
    refine ⟨fun _ _ => ?_, fun _ => hkept⟩
    obtain ⟨step, hstep⟩ := List.exists_mem_of_ne_nil _ hsome
    exact ⟨step, hkept.subset hstep, by simpa using (List.mem_filter.mp hstep).2⟩

theorem arguments_kept_iff {command current : JsString} (h : command <+: current) :
    arguments command <+: arguments current ↔
      (∀ c ∈ command.getLast?, c = 32) ∨ ∀ c ∈ (current.drop command.length).head?, c = 32 := by
  obtain ⟨rest, rfl⟩ := h
  rw [List.drop_left]
  exact Splitting.words_prefix_iff 32 command rest

theorem required_scripts_kept
    (h : validatePhase2RequiredScripts basePackage currentPackage = .ok ()) :
    RequiredScriptsKept basePackage currentPackage ↔
      ExtendsAtSeams basePackage currentPackage := by
  constructor
  · intro hkept
    refine ⟨fun name hname command current hruns hcurrent => ?_, fun current hruns hcurrent => ?_⟩
    · obtain ⟨current', hcurrent', hprefix⟩ := format_kept h hname hruns
      obtain ⟨current'', hcurrent'', harguments⟩ := hkept.format name hname command hruns
      obtain rfl := JsValue.string.inj (hcurrent.symm.trans hcurrent')
      obtain rfl := JsValue.string.inj (hcurrent.symm.trans hcurrent'')
      exact (arguments_kept_iff hprefix).mp harguments
    · obtain ⟨current', hcurrent', hjoined⟩ := quality_kept h hruns
      obtain ⟨current'', hcurrent'', hsteps⟩ := hkept.quality [] hruns
      obtain rfl := JsValue.string.inj (hcurrent.symm.trans hcurrent')
      obtain rfl := JsValue.string.inj (hcurrent.symm.trans hcurrent'')
      exact (steps_kept_iff hjoined).mp hsteps rfl
  · intro hseams
    refine ⟨fun name command hruns => ?_, fun command hruns => ?_, fun name hname command hruns => ?_,
      fun name command hruns => other_kept h hruns⟩
    · by_cases hquality : name = js "quality"
      · subst hquality
        obtain ⟨current, hcurrent, -⟩ := quality_kept h hruns
        simp [hcurrent]
      · by_cases hformat : name ∈ formatScripts
        · obtain ⟨current, hcurrent, -⟩ := format_kept h hformat hruns
          simp [hcurrent]
        · simp [other_kept h hruns hquality hformat]
    · obtain ⟨current, hcurrent, hjoined⟩ := quality_kept h hruns
      refine ⟨current, hcurrent, (steps_kept_iff hjoined).mpr ?_⟩
      rintro rfl
      exact hseams.quality current hruns hcurrent
    · obtain ⟨current, hcurrent, hprefix⟩ := format_kept h hname hruns
      exact ⟨current, hcurrent, (arguments_kept_iff hprefix).mpr
        (hseams.format name hname command current hruns hcurrent)⟩

end Acceptance

section Samples

def sampleBase : PackageManifest JsString :=
  ⟨some ⟨[(js "format", js "prettier --check .")], by decide⟩⟩

def sampleHead (command : String) : PackageManifest JsValue :=
  ⟨some ⟨[(js "format", .string (js command))], by simp⟩⟩

theorem sample_scripts_kept :
    RequiredScriptsKept sampleBase (sampleHead "prettier --check . src") := by
  have haccepted : validatePhase2RequiredScripts sampleBase (sampleHead "prettier --check . src") =
      .ok () := Except.toOption_eq_some.mp (by decide)
  have hseam : ((js "prettier --check . src").drop (js "prettier --check .").length).head? =
      some 32 := by decide
  refine (required_scripts_kept haccepted).mpr ⟨?_, ?_⟩
  · rintro name - command current ⟨scripts, hscripts, hmem⟩ hcurrent
    cases hscripts
    obtain ⟨rfl, rfl⟩ := Prod.mk.inj (List.mem_singleton.mp hmem)
    obtain rfl := JsValue.string.inj hcurrent
    refine .inr fun c hc => ?_
    rw [hseam] at hc
    exact (Option.some.inj hc).symm
  · rintro current ⟨scripts, hscripts, hmem⟩
    cases hscripts
    exact absurd (congrArg Prod.fst (List.mem_singleton.mp hmem)) (by decide)

theorem last_argument_extended :
    (validatePhase2RequiredScripts sampleBase (sampleHead "prettier --check .x")).toOption = some () ∧
      ¬ RequiredScriptsKept sampleBase (sampleHead "prettier --check .x") := by
  refine ⟨by decide, fun hkept => ?_⟩
  obtain ⟨current, hcurrent, harguments⟩ := hkept.format (js "format") (by decide)
    (js "prettier --check .") ⟨_, rfl, List.mem_singleton.mpr rfl⟩
  obtain rfl := JsValue.string.inj hcurrent
  exact absurd harguments (by decide)

end Samples

end Aseos.ScopePolicy
