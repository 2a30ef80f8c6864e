import Aseos.Isolation.Cancellation

namespace Aseos.Isolation

-- What one `stream.Read` returns before the end of the file.
structure Delivery where
  bytes : List Utf8.Byte
  nonempty : bytes ≠ []
  fits : bytes.length ≤ 8192

def delivered (reads : List Delivery) : List Utf8.Byte := reads.flatMap Delivery.bytes

-- Where a reader stands in the loop of ReadBounded.
inductive ReaderPhase where
  | reading
  | writing (buffer : Delivery)
  | limiting
  | terminating
  | returned

structure Capture where
  pipe : List Delivery
  output : List Utf8.Byte := []
  terminationReason : ℤ
  terminations : ℕ := 0
  phase : ReaderPhase := .reading

-- The other threads may leave any value in the shared field at any time.
inductive CaptureEvent where
  | reader
  | others (terminationReason : ℤ)

def netMin (a b : NetInt) : NetInt := if a.sle b then a else b

section Steps

variable (maximumBytes : NetInt) (reasonCode : ℤ)

def write (s : Capture) (buffer : Delivery) : Capture :=
  let count : NetInt := BitVec.ofNat 32 buffer.bytes.length
  let remaining := remainingBytes maximumBytes (BitVec.ofNat 32 s.output.length)
  { s with
    output :=
      if (0#32).slt remaining then s.output ++ buffer.bytes.take (netMin remaining count).toNat
      else s.output
    phase := if remaining.slt count then .limiting else .reading }

def readerStep (s : Capture) : Capture :=
  match s.phase with
  | .reading =>
      match s.pipe with
      | [] => { s with phase := .returned }
      | buffer :: pipe => { s with pipe := pipe, phase := .writing buffer }
  | .writing buffer => write maximumBytes s buffer
  | .limiting =>
      { s with
        terminationReason := compareExchange s.terminationReason reasonCode
        phase := .terminating }
  | .terminating => { s with terminations := s.terminations + 1, phase := .returned }
  | .returned => s

def captureStep (s : Capture) : CaptureEvent → Capture
  | .reader => readerStep maximumBytes reasonCode s
  | .others terminationReason => { s with terminationReason := terminationReason }

end Steps

def runCapture (maximumBytes : NetInt) (reasonCode : ℤ) (events : List CaptureEvent)
    (s : Capture) : Capture :=
  events.foldl (captureStep maximumBytes reasonCode) s

def readerSteps (events : List CaptureEvent) : ℕ := events.countP fun e => e matches .reader

def Capture.start (reads : List Delivery) (terminationReason : ℤ) : Capture :=
  { pipe := reads, terminationReason := terminationReason }

section Writing

variable {maximumBytes : NetInt} {s : Capture} {buffer : Delivery}

theorem ofNat_toInt {n : ℕ} (h : n < 2147483648) : (BitVec.ofNat 32 n).toInt = n := by
  rw [BitVec.toInt_ofNat']
  exact Int.bmod_eq_of_le (by omega) (by omega)

theorem netMin_toNat {a b : NetInt} (ha : 0 ≤ a.toInt) (hb : 0 ≤ b.toInt) :
    (netMin a b).toNat = min a.toNat b.toNat := by
  have hanat := BitVec.toInt_eq_toNat_cond a
  have hbnat := BitVec.toInt_eq_toNat_cond b
  rw [netMin, BitVec.sle_eq_decide]
  by_cases hle : a.toInt ≤ b.toInt
  · rw [if_pos (by simpa using hle)]
    omega
  · rw [if_neg (by simpa using hle)]
    omega

theorem remainingBytes_toInt (hmaximum : 0 ≤ maximumBytes.toInt)
    (hlength : s.output.length ≤ maximumBytes.toNat) :
    (remainingBytes maximumBytes (BitVec.ofNat 32 s.output.length)).toInt =
      maximumBytes.toNat - s.output.length := by
  have hnat := BitVec.toInt_eq_toNat_cond maximumBytes
  have hbound := maximumBytes.isLt
  have hvalue : maximumBytes.toInt = maximumBytes.toNat := by omega
  have hwritten := @ofNat_toInt s.output.length (by omega)
  rw [remainingBytes, BitVec.toInt_sub, hwritten, hvalue]
  exact Int.bmod_eq_of_le (by norm_num; omega) (by norm_num; omega)

theorem write_eq (hmaximum : 0 ≤ maximumBytes.toInt)
    (hlength : s.output.length ≤ maximumBytes.toNat) :
    write maximumBytes s buffer =
      { s with
        output := (s.output ++ buffer.bytes).take maximumBytes.toNat
        phase :=
          if maximumBytes.toNat < (s.output ++ buffer.bytes).length then .limiting
          else .reading } := by
  have hfits := buffer.fits
  have hremaining := remainingBytes_toInt hmaximum hlength
  have hcount := @ofNat_toInt buffer.bytes.length (by omega)
  have hmin := @netMin_toNat (remainingBytes maximumBytes (BitVec.ofNat 32 s.output.length))
    (BitVec.ofNat 32 buffer.bytes.length) (by omega) (by omega)
  have hrnat := BitVec.toInt_eq_toNat_cond
    (remainingBytes maximumBytes (BitVec.ofNat 32 s.output.length))
  have hcnat := BitVec.toInt_eq_toNat_cond (BitVec.ofNat 32 buffer.bytes.length)
  have hzero : (0#32).toInt = 0 := rfl
  have houtput : (s.output ++ buffer.bytes).take maximumBytes.toNat =
      s.output ++ buffer.bytes.take (maximumBytes.toNat - s.output.length) := by
    rw [List.take_append, List.take_of_length_le hlength]
  rw [write, BitVec.slt_eq_decide, BitVec.slt_eq_decide, hremaining, hcount, hmin, hzero, houtput,
    List.length_append]
  congr 1
  · rcases Nat.eq_or_lt_of_le hlength with hfull | hroom
    · rw [if_neg (by simp [hfull]), hfull, Nat.sub_self, List.take_zero, List.append_nil]
    · rw [if_pos (by simpa using by omega)]
      congr 1
      rcases Nat.le_total (maximumBytes.toNat - s.output.length) buffer.bytes.length with hle | hle
      · congr 1
        omega
      · rw [List.take_of_length_le hle, List.take_of_length_le (by omega)]
  · simp only [decide_eq_true_eq]
    split <;> rename_i h <;> split <;> first | rfl | omega

end Writing

section Invariant

variable {maximumBytes : NetInt} {reasonCode : ℤ} {reads : List Delivery} {s t : Capture}

def Captured (stream : List Utf8.Byte) (maximum : ℕ) (s : Capture) : Prop :=
  match s.phase with
  | .reading =>
      s.output ++ delivered s.pipe = stream ∧ s.output.length ≤ maximum ∧ s.terminations = 0
  | .writing buffer =>
      s.output ++ (buffer.bytes ++ delivered s.pipe) = stream ∧ s.output.length ≤ maximum ∧
        s.terminations = 0
  | .limiting | .terminating =>
      s.output = stream.take maximum ∧ maximum < stream.length ∧ s.terminations = 0
  | .returned =>
      s.output = stream.take maximum ∧
        s.terminations = if maximum < stream.length then 1 else 0

theorem captured_start (reads : List Delivery) (reason : ℤ) (maximum : ℕ) :
    Captured (delivered reads) maximum (.start reads reason) := by
  simp [Captured, Capture.start]

theorem Captured.written {stream : List Utf8.Byte} {buffer : Delivery}
    (hmaximum : 0 ≤ maximumBytes.toInt) (hphase : s.phase = .writing buffer)
    (h : Captured stream maximumBytes.toNat s) :
    Captured stream maximumBytes.toNat (write maximumBytes s buffer) := by
  simp only [Captured, hphase] at h
  obtain ⟨hstream, hlength, hterminations⟩ := h
  rw [write_eq hmaximum hlength]
  rw [← List.append_assoc] at hstream
  by_cases hover : maximumBytes.toNat < (s.output ++ buffer.bytes).length
  · rw [if_pos hover]
    refine ⟨?_, ?_, hterminations⟩
    · rw [← hstream, List.take_append_of_le_length hover.le]
    · rw [← hstream, List.length_append]
      omega
  · rw [if_neg hover]
    have hfits : (s.output ++ buffer.bytes).length ≤ maximumBytes.toNat := by omega
    rw [List.take_of_length_le hfits]
    exact ⟨hstream, hfits, hterminations⟩

theorem Captured.reader {stream : List Utf8.Byte} (hmaximum : 0 ≤ maximumBytes.toInt)
    (h : Captured stream maximumBytes.toNat s) :
    Captured stream maximumBytes.toNat (readerStep maximumBytes reasonCode s) := by
  unfold readerStep
  cases hphase : s.phase with
  | reading =>
    simp only [Captured, hphase] at h
    obtain ⟨hstream, hlength, hterminations⟩ := h
    cases hpipe : s.pipe with
    | nil =>
      rw [hpipe, delivered, List.flatMap_nil, List.append_nil] at hstream
      subst hstream
      refine ⟨(List.take_of_length_le hlength).symm, ?_⟩
      rw [if_neg (by omega)]
      exact hterminations
    | cons buffer pipe =>
      rw [hpipe, delivered, List.flatMap_cons] at hstream
      exact ⟨hstream, hlength, hterminations⟩
  | writing buffer => exact h.written hmaximum hphase
  | limiting =>
    simp only [Captured, hphase] at h
    exact h
  | terminating =>
    simp only [Captured, hphase] at h
    refine ⟨h.1, ?_⟩
    rw [if_pos h.2.1, h.2.2]
  | returned => exact h

theorem Captured.step {stream : List Utf8.Byte} (hmaximum : 0 ≤ maximumBytes.toInt)
    (event : CaptureEvent) (h : Captured stream maximumBytes.toNat s) :
    Captured stream maximumBytes.toNat (captureStep maximumBytes reasonCode s event) := by
  cases event with
  | reader => exact h.reader hmaximum
  | others reason => exact h

theorem readerStep_reason (maximumBytes : NetInt) (reasonCode : ℤ) (s : Capture) :
    (readerStep maximumBytes reasonCode s).terminationReason = s.terminationReason ∨
      s.phase = .limiting ∧ s.terminationReason = 0 ∧
        (readerStep maximumBytes reasonCode s).terminationReason = reasonCode := by
  unfold readerStep
  cases hphase : s.phase with
  | reading => cases s.pipe <;> exact .inl rfl
  | limiting =>
    rcases eq_or_ne s.terminationReason 0 with hzero | hset
    · exact .inr ⟨rfl, hzero, by simp [compareExchange, hzero]⟩
    · exact .inl (by simp [compareExchange, hset])
  | writing | terminating | returned => exact .inl rfl

end Invariant

section Progress

variable {maximumBytes : NetInt} {reasonCode : ℤ} {s : Capture}

def Capture.work (s : Capture) : ℕ :=
  match s.phase with
  | .reading => 2 * s.pipe.length + 3
  | .writing _ => 2 * s.pipe.length + 4
  | .limiting => 2
  | .terminating => 1
  | .returned => 0

theorem readerStep_work (s : Capture) :
    (readerStep maximumBytes reasonCode s).work ≤ s.work - 1 := by
  unfold readerStep
  cases hphase : s.phase with
  | reading =>
    cases hpipe : s.pipe with
    | nil => simp [Capture.work]
    | cons buffer pipe =>
      simp only [Capture.work, hphase, hpipe, List.length_cons]
      omega
  | writing buffer =>
    simp only [write, Capture.work, hphase]
    by_cases hover : ((remainingBytes maximumBytes (BitVec.ofNat 32 s.output.length)).slt
        (BitVec.ofNat 32 buffer.bytes.length)) = true
    · simp only [if_pos hover]
      omega
    · simp only [if_neg hover]
      omega
  | limiting | terminating | returned => simp [Capture.work, hphase]

theorem runCapture_work (events : List CaptureEvent) (s : Capture) :
    (runCapture maximumBytes reasonCode events s).work ≤ s.work - readerSteps events := by
  induction events generalizing s with
  | nil => simp [runCapture, readerSteps]
  | cons event events ih =>
    cases event with
    | reader =>
      have hstep := @readerStep_work maximumBytes reasonCode s
      have hrest := ih (readerStep maximumBytes reasonCode s)
      have hcount : readerSteps (.reader :: events) = readerSteps events + 1 := by
        simp [readerSteps]
      rw [hcount]
      exact hrest.trans (by omega)
    | others reason =>
      have hcount : readerSteps (.others reason :: events) = readerSteps events := by
        simp [readerSteps]
      rw [hcount]
      exact ih { s with terminationReason := reason }

theorem returned_of_work (h : s.work = 0) : s.phase = .returned := by
  unfold Capture.work at h
  split at h
  · omega
  · omega
  · omega
  · omega
  · assumption

end Progress

section Capture

variable {maximumBytes : NetInt}

theorem Captured.run {reasonCode : ℤ} {stream : List Utf8.Byte} {s : Capture}
    (hmaximum : 0 ≤ maximumBytes.toInt) (h : Captured stream maximumBytes.toNat s)
    (events : List CaptureEvent) :
    Captured stream maximumBytes.toNat (runCapture maximumBytes reasonCode events s) := by
  induction events generalizing s with
  | nil => exact h
  | cons event events ih => exact ih (h.step hmaximum event)

theorem Captured.limited {stream : List Utf8.Byte} {maximum : ℕ} {s : Capture}
    (h : Captured stream maximum s) (hlimit : s.phase = .limiting ∨ 0 < s.terminations) :
    maximum < stream.length := by
  unfold Captured at h
  cases hphase : s.phase with
  | limiting | terminating =>
    simp only [hphase] at h
    exact h.2.1
  | returned =>
    simp only [hphase, reduceCtorEq, false_or] at h hlimit
    by_contra hover
    rw [if_neg hover] at h
    omega
  | reading | writing buffer =>
    simp only [hphase, reduceCtorEq, false_or] at h hlimit
    omega

theorem bounded_capture_exact (reasonCode : ℤ) (hmaximum : 0 ≤ maximumBytes.toInt)
    (reads : List Delivery) (reason : ℤ) (events : List CaptureEvent) :
    let stream := delivered reads
    let s := runCapture maximumBytes reasonCode events (.start reads reason)
    (s.phase = .returned →
      s.output = stream.take (min stream.length maximumBytes.toNat) ∧
        (s.terminations = 1 ↔ maximumBytes.toNat < stream.length) ∧
        (s.terminations = 0 ↔ stream.length ≤ maximumBytes.toNat)) ∧
      (s.phase = .limiting ∨ 0 < s.terminations → maximumBytes.toNat < stream.length) ∧
      (s.phase = .limiting → s.terminationReason = 0 →
        (readerStep maximumBytes reasonCode s).terminationReason = reasonCode) ∧
      (s.terminationReason ≠ 0 →
        (readerStep maximumBytes reasonCode s).terminationReason = s.terminationReason) ∧
      (2 * reads.length + 3 ≤ readerSteps events → s.phase = .returned) := by
  intro stream s
  have hcaptured : Captured stream maximumBytes.toNat s :=
    (captured_start reads reason maximumBytes.toNat).run hmaximum events
  refine ⟨fun hphase => ?_, fun hlimit => ?_, fun hphase hzero => ?_, fun hset => ?_,
    fun hsteps => ?_⟩
  · simp only [Captured, hphase] at hcaptured
    obtain ⟨houtput, hterminations⟩ := hcaptured
    refine ⟨?_, ?_, ?_⟩
    · rw [houtput, List.take_eq_take_min, Nat.min_comm]
    · rw [hterminations]
      split <;> simp_all
    · rw [hterminations]
      split <;> simp_all
  · exact hcaptured.limited hlimit
  · simp [readerStep, hphase, compareExchange, hzero]
  · rcases readerStep_reason maximumBytes reasonCode s with h | ⟨-, hzero, -⟩
    · exact h
    · exact absurd hzero hset
  · have hwork := @runCapture_work maximumBytes reasonCode events (.start reads reason)
    have hstart : (Capture.start reads reason).work = 2 * reads.length + 3 := rfl
    rw [hstart] at hwork
    exact returned_of_work (Nat.le_zero.mp (hwork.trans (by omega)))

def sampleDelivery : Delivery := ⟨[104, 105], by decide, by decide⟩

theorem sample_capture :
    let events : List CaptureEvent :=
      [.reader, .reader, .others 4, .reader, .reader, .reader]
    let s := runCapture 1#32 2 events (.start [sampleDelivery] 0)
    s.phase = .returned ∧ s.output = [104] ∧ s.terminations = 1 ∧ s.terminationReason = 4 := by
  have h := @bounded_capture_exact 1#32 2 (by decide) [sampleDelivery] 0
    [.reader, .reader, .others 4, .reader, .reader, .reader]
  have hreturned := h.2.2.2.2 (by decide)
  exact ⟨hreturned, (h.1 hreturned).1, (h.1 hreturned).2.1.mpr (by decide), rfl⟩

end Capture

end Aseos.Isolation
