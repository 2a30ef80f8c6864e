import Aseos.Isolation.Requirement

namespace Aseos.Isolation

abbrev NetInt := BitVec 32

abbrev NetLong := BitVec 64

-- What JavaScriptSerializer reads an integer literal as: the first of the two types that holds it.
-- A safe integer is written as its decimal digits, and Int64 holds every safe integer.
inductive NetNumber where
  | int (value : NetInt)
  | long (value : NetLong)

def NetNumber.read (n : ℤ) : NetNumber :=
  if -2147483648 ≤ n ∧ n ≤ 2147483647 then .int (BitVec.ofInt 32 n) else .long (BitVec.ofInt 64 n)

-- A value of another type is converted through its text, which Int32.Parse refuses when it is out
-- of range.
def NetNumber.toInt : NetNumber → Option NetInt
  | .int value => some value
  | .long value =>
      if -2147483648 ≤ value.toInt ∧ value.toInt ≤ 2147483647 then
        some (BitVec.ofInt 32 value.toInt)
      else none

def NetNumber.toLong : NetNumber → Option NetLong
  | .int value => some (value.signExtend 64)
  | .long value => some value

structure Limits where
  wallClockMs : NetInt
  processCpuTimeMs : NetInt
  memoryBytes : NetLong
  activeProcessLimit : NetInt
  stdoutBytes : NetInt
  stderrBytes : NetInt
  deriving DecidableEq

def deserializeLimits (limits : JsValue) : Option Limits := do
  let number := fun name => (safeInteger (limits.property (js name))).map NetNumber.read
  let wallClockMs ← (← number "maxWallClockMs").toInt
  let processCpuTimeMs ← (← number "maxCpuTimeMs").toInt
  let memoryBytes ← (← number "maxMemoryBytes").toLong
  let activeProcessLimit ← (← number "maxProcessCount").toInt
  let stdoutBytes ← (← number "maxStdoutBytes").toInt
  let stderrBytes ← (← number "maxStderrBytes").toInt
  return ⟨wallClockMs, processCpuTimeMs, memoryBytes, activeProcessLimit, stdoutBytes, stderrBytes⟩

inductive Architecture where
  | x86
  | x64
  deriving DecidableEq

-- The UIntPtr constructor refuses what the pointers of the process do not hold.
def toPointer (architecture : Architecture) (value : BitVec 64) : Option (BitVec 64) :=
  if architecture = .x86 ∧ 4294967295 < value.toNat then none else some value

structure JobLimits where
  activeProcessLimit : BitVec 32
  perProcessUserTimeLimit : NetLong
  processMemoryLimit : BitVec 64
  jobMemoryLimit : BitVec 64

def jobLimits (architecture : Architecture) (limits : Limits) : Option JobLimits := do
  let processMemoryLimit ← toPointer architecture limits.memoryBytes
  let jobMemoryLimit ← toPointer architecture limits.memoryBytes
  return {
    activeProcessLimit := limits.activeProcessLimit
    perProcessUserTimeLimit := limits.processCpuTimeMs.signExtend 64 * 10000#64
    processMemoryLimit := processMemoryLimit
    jobMemoryLimit := jobMemoryLimit }

-- The initial capacity of ReadBounded's buffer; MemoryStream refuses a negative one.
def bufferCapacity (maximumBytes : NetInt) : Option ℕ :=
  let capacity := if maximumBytes.sle 65536#32 then maximumBytes else 65536#32
  if capacity.toInt < 0 then none else some capacity.toNat

def remainingBytes (maximumBytes written : NetInt) : NetInt := maximumBytes - written

def wallClockReached (limits : Limits) (elapsedMilliseconds : NetLong) : Bool :=
  (limits.wallClockMs.signExtend 64).sle elapsedMilliseconds

def cpuTimeReached (limits : Limits) (cpuTimeMs : NetLong) : Bool :=
  (limits.processCpuTimeMs.signExtend 64).sle cpuTimeMs

def memoryReached (limits : Limits) (memoryPeakBytes : NetLong) : Bool :=
  limits.memoryBytes.sle memoryPeakBytes

def processCountExceeded (limits : Limits) (activeProcessCount : NetInt) : Bool :=
  limits.activeProcessLimit.slt activeProcessCount

structure BoundsStream (requested : ℤ) (maximumBytes : NetInt) : Prop where
  capacity : bufferCapacity maximumBytes = some (min requested 65536).toNat
  remaining : ∀ written : NetInt, 0 ≤ written.toInt → written.toInt ≤ requested →
    (remainingBytes maximumBytes written).toInt = requested - written.toInt

structure Enforces (r : RequestedLimits) (limits : Limits) (job : JobLimits) : Prop where
  wallClock : limits.wallClockMs.toInt = r.wallClock
  cpuTime : limits.processCpuTimeMs.toInt = r.cpuTime
  memory : limits.memoryBytes.toInt = r.memory
  processCount : limits.activeProcessLimit.toInt = r.processCount
  stdout : limits.stdoutBytes.toInt = r.stdout
  stderr : limits.stderrBytes.toInt = r.stderr
  jobProcessCount : (job.activeProcessLimit.toNat : ℤ) = r.processCount
  jobCpuTime : job.perProcessUserTimeLimit.toInt = r.cpuTime * 10000
  jobMemory : (job.processMemoryLimit.toNat : ℤ) = r.memory ∧
    (job.jobMemoryLimit.toNat : ℤ) = r.memory
  stdoutStream : BoundsStream r.stdout limits.stdoutBytes
  stderrStream : BoundsStream r.stderr limits.stderrBytes
  wallClockCheck : ∀ elapsed, wallClockReached limits elapsed = decide (r.wallClock ≤ elapsed.toInt)
  cpuTimeCheck : ∀ spent, cpuTimeReached limits spent = decide (r.cpuTime ≤ spent.toInt)
  memoryCheck : ∀ peak, memoryReached limits peak = decide (r.memory ≤ peak.toInt)
  processCountCheck : ∀ count,
    processCountExceeded limits count = decide (r.processCount < count.toInt)

def StartsWithin (architecture : Architecture) (budgets : JsValue) : Prop :=
  ∃ r limits job, AdmittedLimits budgets r ∧ deserializeLimits budgets = some limits ∧
    jobLimits architecture limits = some job ∧ Enforces r limits job

section Reading

theorem toInt_read {n : ℤ} (h : 0 ≤ n) (hsafe : n ≤ 9007199254740991) :
    (NetNumber.read n).toInt =
      if n ≤ 2147483647 then some (BitVec.ofInt 32 n) else none := by
  have hlow : -2147483648 ≤ n := by omega
  rw [NetNumber.read]
  by_cases hn : n ≤ 2147483647
  · rw [if_pos ⟨hlow, hn⟩, if_pos hn]
    rfl
  · have hvalue : (BitVec.ofInt 64 n).toInt = n := BitVec.toInt_ofInt_eq_self (by decide)
      (by omega) (by omega)
    rw [if_neg (by omega), if_neg hn, NetNumber.toInt, hvalue, if_neg (by omega)]

theorem toLong_read {n : ℤ} (h : 0 ≤ n) (hsafe : n ≤ 9007199254740991) :
    ∃ value, (NetNumber.read n).toLong = some value ∧ value.toInt = n := by
  rw [NetNumber.read]
  split
  · rename_i hn
    refine ⟨_, rfl, ?_⟩
    rw [BitVec.toInt_signExtend_of_le (by decide),
      BitVec.toInt_ofInt_eq_self (by decide) (by omega) (by omega)]
  · exact ⟨_, rfl, BitVec.toInt_ofInt_eq_self (by decide) (by omega) (by omega)⟩

theorem safeInteger_le {v : JsValue} {n : ℤ} (h : safeInteger v = some n) :
    n ≤ 9007199254740991 := by
  cases v with
  | number x =>
    cases x with
    | finite x =>
      rw [safeInteger] at h
      split at h
      · rename_i hsafe
        obtain rfl := Option.some.inj h
        rw [Double.isSafeInteger, Bool.and_eq_true, decide_eq_true_eq, maxSafeInteger] at hsafe
        exact (abs_le.mp hsafe.2).2
      · cases h
    | _ => cases h
  | _ => cases h

theorem ofInt_toInt {n : ℤ} (h : 0 ≤ n) (hn : n ≤ 2147483647) : (BitVec.ofInt 32 n).toInt = n :=
  BitVec.toInt_ofInt_eq_self (by decide) (by omega) (by omega)

end Reading

section Quantities

variable {n : ℤ}

theorem extended_toInt (h : 0 ≤ n) (hn : n ≤ 2147483647) :
    ((BitVec.ofInt 32 n).signExtend 64).toInt = n := by
  rw [BitVec.toInt_signExtend_of_le (by decide), ofInt_toInt h hn]

theorem toNat_of_toInt {w : ℕ} {x : BitVec w} (hx : x.toInt = n) (h : 0 ≤ n) :
    (x.toNat : ℤ) = n := by
  have hlt := x.isLt
  rw [BitVec.toInt_eq_toNat_cond] at hx
  split at hx <;> omega

theorem userTime_toInt (h : 0 ≤ n) (hn : n ≤ 2147483647) :
    ((BitVec.ofInt 32 n).signExtend 64 * 10000#64).toInt = n * 10000 := by
  rw [BitVec.toInt_mul, extended_toInt h hn, show (10000#64).toInt = 10000 by decide]
  exact Int.bmod_eq_of_le (by norm_num; omega) (by norm_num; omega)

theorem boundsStream (h : 0 ≤ n) (hn : n ≤ 2147483647) : BoundsStream n (BitVec.ofInt 32 n) := by
  have hvalue := ofInt_toInt h hn
  refine ⟨?_, fun written hwritten hle => ?_⟩
  · have hsle : (BitVec.ofInt 32 n).sle 65536#32 = decide (n ≤ 65536) := by
      rw [BitVec.sle_eq_decide, hvalue]
      rfl
    have hnat := toNat_of_toInt hvalue h
    simp only [bufferCapacity, hsle, decide_eq_true_eq]
    split
    · rw [hvalue, if_neg (by omega)]
      congr 1
      omega
    · rw [if_neg (by decide)]
      congr 1
      rw [show (65536#32).toNat = 65536 by decide]
      omega
  · rw [remainingBytes, BitVec.toInt_sub, hvalue]
    exact Int.bmod_eq_of_le (by norm_num; omega) (by norm_num; omega)

end Quantities

section Representable

variable {architecture : Architecture} {budgets : JsValue} {r : RequestedLimits}

def limitAtMost (budgets : JsValue) (name : String) (bound : ℤ) : Prop :=
  ∃ n, safeInteger (budgets.property (js name)) = some n ∧ n ≤ bound

structure FitsBridge (architecture : Architecture) (budgets : JsValue) : Prop where
  cpuTime : limitAtMost budgets "maxCpuTimeMs" 2147483647
  stdout : limitAtMost budgets "maxStdoutBytes" 2147483647
  stderr : limitAtMost budgets "maxStderrBytes" 2147483647
  memory : architecture = .x86 → limitAtMost budgets "maxMemoryBytes" 4294967295

theorem limitAtMost_iff {name : String} {n bound : ℤ}
    (h : safeInteger (budgets.property (js name)) = some n) :
    limitAtMost budgets name bound ↔ n ≤ bound := by
  simp [limitAtMost, h]

theorem deserializeLimits_eq (h : AdmittedLimits budgets r) {memory : NetLong}
    (hmemory : (NetNumber.read r.memory).toLong = some memory) :
    deserializeLimits budgets =
      if r.cpuTime ≤ 2147483647 ∧ r.stdout ≤ 2147483647 ∧ r.stderr ≤ 2147483647 then
        some ⟨BitVec.ofInt 32 r.wallClock, BitVec.ofInt 32 r.cpuTime, memory,
          BitVec.ofInt 32 r.processCount, BitVec.ofInt 32 r.stdout, BitVec.ofInt 32 r.stderr⟩
      else none := by
  obtain ⟨hwall, hwall'⟩ := h.wallClock_range
  obtain ⟨hcount, hcount'⟩ := h.processCount_range
  have hcpu₀ := h.cpuTime_pos
  simp only [deserializeLimits, h.wallClock, h.cpuTime, h.memory, h.processCount, h.stdout,
    h.stderr, Option.map_some, Option.bind_eq_bind, Option.bind_some, hmemory,
    toInt_read (show 0 ≤ r.wallClock by omega) (safeInteger_le h.wallClock),
    toInt_read (show 0 ≤ r.cpuTime by omega) (safeInteger_le h.cpuTime),
    toInt_read (show 0 ≤ r.processCount by omega) (safeInteger_le h.processCount),
    toInt_read h.stdout_nonneg (safeInteger_le h.stdout),
    toInt_read h.stderr_nonneg (safeInteger_le h.stderr),
    if_pos (show r.wallClock ≤ 2147483647 by omega),
    if_pos (show r.processCount ≤ 2147483647 by omega)]
  by_cases hcpu : r.cpuTime ≤ 2147483647
  · by_cases hout : r.stdout ≤ 2147483647
    · by_cases herr : r.stderr ≤ 2147483647 <;> simp [hcpu, hout, herr]
    · simp [hcpu, hout]
  · simp [hcpu]

theorem jobLimits_eq {limits : Limits} (hmemory : (limits.memoryBytes.toNat : ℤ) = r.memory) :
    jobLimits architecture limits =
      if architecture = .x86 ∧ 4294967295 < r.memory then none
      else some ⟨limits.activeProcessLimit, limits.processCpuTimeMs.signExtend 64 * 10000#64,
        limits.memoryBytes, limits.memoryBytes⟩ := by
  have hlt : 4294967295 < limits.memoryBytes.toNat ↔ 4294967295 < r.memory := by omega
  simp only [jobLimits, toPointer, hlt]
  split <;> rfl

theorem fitsBridge_iff (h : AdmittedLimits budgets r) :
    FitsBridge architecture budgets ↔
      (r.cpuTime ≤ 2147483647 ∧ r.stdout ≤ 2147483647 ∧ r.stderr ≤ 2147483647) ∧
        ¬ (architecture = .x86 ∧ 4294967295 < r.memory) := by
  constructor
  · intro hfits
    refine ⟨⟨(limitAtMost_iff h.cpuTime).mp hfits.cpuTime,
      (limitAtMost_iff h.stdout).mp hfits.stdout, (limitAtMost_iff h.stderr).mp hfits.stderr⟩, ?_⟩
    rintro ⟨hx86, hlarge⟩
    exact absurd ((limitAtMost_iff h.memory).mp (hfits.memory hx86)) (Int.not_le.mpr hlarge)
  · rintro ⟨⟨hcpu, hout, herr⟩, hmemory⟩
    refine ⟨(limitAtMost_iff h.cpuTime).mpr hcpu, (limitAtMost_iff h.stdout).mpr hout,
      (limitAtMost_iff h.stderr).mpr herr, fun hx86 => (limitAtMost_iff h.memory).mpr ?_⟩
    exact Int.not_lt.mp fun hlarge => hmemory ⟨hx86, hlarge⟩

theorem enforces (h : AdmittedLimits budgets r) (hcpu : r.cpuTime ≤ 2147483647)
    (hout : r.stdout ≤ 2147483647) (herr : r.stderr ≤ 2147483647) {memory : NetLong}
    (hmemory : memory.toInt = r.memory) :
    Enforces r
      ⟨BitVec.ofInt 32 r.wallClock, BitVec.ofInt 32 r.cpuTime, memory,
        BitVec.ofInt 32 r.processCount, BitVec.ofInt 32 r.stdout, BitVec.ofInt 32 r.stderr⟩
      ⟨BitVec.ofInt 32 r.processCount, (BitVec.ofInt 32 r.cpuTime).signExtend 64 * 10000#64,
        memory, memory⟩ := by
  obtain ⟨hwall, hwall'⟩ := h.wallClock_range
  obtain ⟨hcount, hcount'⟩ := h.processCount_range
  have hcpu₀ := h.cpuTime_pos
  have hmemory₀ := h.memory_least
  have hwallInt := ofInt_toInt (show 0 ≤ r.wallClock by omega) (by omega)
  have hcpuInt := ofInt_toInt (show 0 ≤ r.cpuTime by omega) hcpu
  have hcountInt := ofInt_toInt (show 0 ≤ r.processCount by omega) (by omega)
  have hmemoryNat := toNat_of_toInt hmemory (by omega)
  exact {
    wallClock := hwallInt
    cpuTime := hcpuInt
    memory := hmemory
    processCount := hcountInt
    stdout := ofInt_toInt h.stdout_nonneg hout
    stderr := ofInt_toInt h.stderr_nonneg herr
    jobProcessCount := toNat_of_toInt hcountInt (by omega)
    jobCpuTime := userTime_toInt (by omega) hcpu
    jobMemory := ⟨hmemoryNat, hmemoryNat⟩
    stdoutStream := boundsStream h.stdout_nonneg hout
    stderrStream := boundsStream h.stderr_nonneg herr
    wallClockCheck := fun elapsed => by
      rw [wallClockReached, BitVec.sle_eq_decide, extended_toInt (by omega) (by omega)]
    cpuTimeCheck := fun spent => by
      rw [cpuTimeReached, BitVec.sle_eq_decide, extended_toInt (by omega) hcpu]
    memoryCheck := fun peak => by rw [memoryReached, BitVec.sle_eq_decide, hmemory]
    processCountCheck := fun count => by
      rw [processCountExceeded, BitVec.slt_eq_decide, hcountInt] }

theorem startsWithin_iff (h : AdmittedLimits budgets r) :
    StartsWithin architecture budgets ↔ FitsBridge architecture budgets := by
  obtain ⟨memory, hread, hmemory⟩ :=
    toLong_read (Int.le_trans (by decide) h.memory_least) (safeInteger_le h.memory)
  have hdeserialize := deserializeLimits_eq h hread
  have hnat : (memory.toNat : ℤ) = r.memory :=
    toNat_of_toInt hmemory (Int.le_trans (by decide) h.memory_least)
  rw [fitsBridge_iff h]
  constructor
  · rintro ⟨r', limits, job, hr', hlimits, hjob, -⟩
    rw [hdeserialize] at hlimits
    split at hlimits
    · rename_i hints
      obtain rfl := Option.some.inj hlimits
      rw [jobLimits_eq (r := r) hnat] at hjob
      split at hjob
      · cases hjob
      · rename_i hpointer
        exact ⟨hints, hpointer⟩
    · cases hlimits
  · rintro ⟨hints, hpointer⟩
    rw [if_pos hints] at hdeserialize
    refine ⟨r, _, _, h, hdeserialize, (jobLimits_eq (r := r) hnat).trans (if_neg hpointer), ?_⟩
    exact enforces h hints.1 hints.2.1 hints.2.2 hmemory

end Representable

theorem admitted_limits_representable (architecture : Architecture) {runtime : AdapterRuntime}
    {request : JsValue} {tool : TrustedToolDescriptor}
    {prepared : Except RequestError CanonicalPaths} {paths : CanonicalPaths}
    (_hworker : isCanonicalRequirement request = true)
    (hadapter : validateRequest runtime (adapterRequest request) tool prepared = .ok paths) :
    StartsWithin architecture ((adapterRequest request).get (js "limits")) ↔
      FitsBridge architecture ((adapterRequest request).get (js "limits")) := by
  obtain ⟨r, hr⟩ := validateLimits_admitted (validateRequest_validated hadapter).limits
  exact startsWithin_iff hr

section Samples

def sampleId : JsString := js "01890000-0000-7000-8000-000000000001"

def sampleDigest : JsString := List.replicate 64 97

def numeralText : JsValue → Option JsString
  | .number (.finite x) => some (Decimal.digits x.value.num.toNat)
  | _ => none

def sampleAdapter : AdapterRuntime where
  isAbsolute path := (js "C:").isPrefixOf path
  normalize := id
  resolve directory path := directory ++ js "\\" ++ path
  relative _ path := path
  join directory path := directory ++ js "\\" ++ path
  basename path := (path.reverse.takeWhile (· ≠ 92)).reverse
  extname path := (path.reverse.takeWhile (· ≠ 46)).reverse
  toLowerCase := id
  isBytes _ := false
  coercedText := numeralText
  coercedLengthOutside _ _ v := if (numeralText v).isSome then some false else none
  foreignKeys _ := []
  foreignMember _ _ := .undefined

def sampleTool : TrustedToolDescriptor :=
  ⟨js "probe", js "1.0.0", js "C:\\probe.exe", sampleDigest⟩

def samplePaths : CanonicalPaths := ⟨js "C:\\probe.exe", js "C:\\staging"⟩

def sampleBudgets (maxStdoutBytes : JsNumber) : JsValue :=
  .record [(js "maxCpuTimeMs", .number (.ofInt 2000 (by decide))),
    (js "maxMemoryBytes", .number (.ofInt 67108864 (by decide))),
    (js "maxProcessCount", .number (.ofInt 4 (by decide))),
    (js "maxWallClockMs", .number (.ofInt 5000 (by decide))),
    (js "maxStdoutBytes", .number maxStdoutBytes),
    (js "maxStderrBytes", .number (.ofInt 65536 two_pow_sixteen_exact))]

def sampleContext : JsValue :=
  .record [(js "requirementId", .string sampleId), (js "taskId", .string sampleId),
    (js "executionId", .string sampleId),
    (js "evidenceRefs", .array [(.data, .record [(js "subjectType", .string (js "Task")),
      (js "subjectId", .string (js "task-1"))])] [])]

def sampleRequest (maxStdoutBytes : JsNumber) : JsValue :=
  .record [(js "toolRef", .string (js "probe")), (js "argv", .ofStrings [js "--version"]),
    (js "stagingRoot", .string (js "C:\\staging")),
    (js "isolationRequirement", .record [(js "schemaVersion", .string (js "1.0.0")),
      (js "requirementId", .string sampleId),
      (js "capabilityId", .string (js "windows-process-restricted")),
      (js "minimumIsolationLevel", .string (js "PROCESS_RESTRICTED")),
      (js "requiredProviderFeatures", .ofStrings [js "CPU_LIMIT"]),
      (js "downgradeAllowed", .bool false), (js "budgets", sampleBudgets maxStdoutBytes)]),
    (js "evidenceContext", sampleContext)]

theorem sample_limits_representable :
    StartsWithin .x64 ((adapterRequest (sampleRequest (.ofInt 65536 two_pow_sixteen_exact))).get
      (js "limits")) := by
  refine (@admitted_limits_representable .x64 sampleAdapter _ sampleTool (.ok samplePaths)
    samplePaths (by decide)
    (by decide)).mpr ⟨?_, ?_, ?_, fun h => nomatch h⟩
  · exact ⟨2000, by decide, by decide⟩
  · exact ⟨65536, by decide, by decide⟩
  · exact ⟨65536, by decide, by decide⟩

theorem two_gibibytes_of_output_unrepresentable :
    isCanonicalRequirement (sampleRequest (.ofInt 2147483648 (by decide))) = true ∧
      validateRequest sampleAdapter (adapterRequest (sampleRequest (.ofInt 2147483648 (by decide))))
        sampleTool (.ok samplePaths) = .ok samplePaths ∧
      ¬ StartsWithin .x64 ((adapterRequest (sampleRequest (.ofInt 2147483648 (by decide)))).get
        (js "limits")) := by
  refine ⟨by decide, by decide, ?_⟩
  rintro ⟨r, limits, job, -, hlimits, -⟩
  have hnone : deserializeLimits ((adapterRequest (sampleRequest
      (.ofInt 2147483648 (by decide)))).get (js "limits")) = none := by decide
  exact Option.some_ne_none limits (hlimits.symm.trans hnone)

end Samples

end Aseos.Isolation
