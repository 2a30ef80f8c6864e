import Aseos.Contracts.DecimalRuntime
import Aseos.Platform.EventChunking
import Mathlib.Data.List.TakeWhile

namespace Aseos

namespace EventStream

open Utf8

section Uniformity

variable (runtime : JsonRuntime) (limit : JsNumber) (bytes : List Byte)

def Uniform : Prop :=
  ∀ chunks chunks' : List (List Byte), [] ∉ chunks → [] ∉ chunks' →
    chunks.flatten = bytes → chunks'.flatten = bytes →
    (streamEvents runtime limit chunks).1 = (streamEvents runtime limit chunks').1 ∧
      (streamEvents runtime limit chunks).2.isSome = (streamEvents runtime limit chunks').2.isSome

def bodyText : Text := withoutMark true (decodePrefix [] bytes).1

def FitsWhole : Prop :=
  ∃ held, (decodePrefix [] bytes).2 = some held ∧
    exceeds limit (size (bodyText bytes) + held.length) = false

def FitsTogether : Prop :=
  FitsWhole limit bytes ∧
    ((decodePrefix [] bytes).1.head? = some byteOrderMark → exceeds limit 2 = false)

structure FailsFirst : Prop where
  silent : ∀ frame ∈ (splitFrames (bodyText bytes)).1.takeWhile (sound runtime limit),
    itemOf runtime frame = none
  faulty : (∃ frame ∈ (splitFrames (bodyText bytes)).1, sound runtime limit frame = false) ∨
    (splitFrames (bodyText bytes)).2 ≠ [] ∨ (decodePrefix [] bytes).2 ≠ some [] ∨
    exceeds limit 0 = true

variable {runtime limit bytes}

theorem uniform_of_fits (h : FitsTogether limit bytes) : Uniform runtime limit bytes := by
  obtain ⟨⟨held, hheld, hfits⟩, hmark⟩ := h
  have hsettled {chunks : List (List Byte)} (hchunks : chunks.flatten = bytes) :
      streamEvents runtime limit chunks =
        settled runtime .initial (decodePrefix [] bytes).1 held := by
    subst hchunks
    exact streamFrom_steady ready_initial (decode_eq_some.mpr (Prod.ext rfl hheld))
      ⟨hfits, fun _ => hmark⟩
  intro chunks chunks' _ _ hchunks hchunks'
  rw [hsettled hchunks, hsettled hchunks']
  exact ⟨rfl, rfl⟩

theorem fails_of_failsFirst (h : FailsFirst runtime limit bytes) {chunks : List (List Byte)}
    (hchunks : chunks.flatten = bytes) (hne : chunks ≠ []) :
    (streamEvents runtime limit chunks).1 = [] ∧
      (streamEvents runtime limit chunks).2.isSome = true := by
  subst hchunks
  obtain ⟨processed, hstarts, hsound, hitems, hend⟩ :=
    streamFrom_processed ready_initial chunks
  have htake : processed <+:
      (splitFrames (bodyText chunks.flatten)).1.takeWhile (sound runtime limit) := by
    obtain ⟨others, hothers⟩ := hstarts
    change processed ++ others = (splitFrames (bodyText chunks.flatten)).1 at hothers
    rw [← hothers, List.takeWhile_append_of_pos hsound]
    exact List.prefix_append _ _
  constructor
  · rw [streamEvents, hitems, List.filterMap_eq_nil_iff]
    exact fun frame hframe => h.silent frame (htake.subset hframe)
  · rw [Option.isSome_iff_ne_none]
    intro hnone
    obtain ⟨hall, hrest, hheld, hzero⟩ := hend hnone
    rcases h.faulty with ⟨frame, hframe, hbad⟩ | hpending | hinvalid | hexceeds
    · exact absurd (hsound frame (hall ▸ hframe)) (by simp [hbad])
    · exact hpending hrest
    · exact hinvalid hheld
    · exact absurd (hzero hne) (by simp [hexceeds])

theorem uniform_of_failsFirst (h : FailsFirst runtime limit bytes) :
    Uniform runtime limit bytes := by
  intro chunks chunks' hne hne' hchunks hchunks'
  have hnil {chunks : List (List Byte)} (hne : [] ∉ chunks) (hchunks : chunks.flatten = []) :
      chunks = [] := by
    cases chunks with
    | nil => rfl
    | cons chunk chunks =>
      obtain ⟨rfl, -⟩ := List.append_eq_nil_iff.mp hchunks
      exact absurd List.mem_cons_self hne
  by_cases hbytes : bytes = []
  · subst hbytes
    rw [hnil hne hchunks, hnil hne' hchunks']
    exact ⟨rfl, rfl⟩
  · have hcut {chunks : List (List Byte)} (hchunks : chunks.flatten = bytes) : chunks ≠ [] := by
      rintro rfl
      exact hbytes hchunks.symm
    obtain ⟨hitems, herror⟩ := fails_of_failsFirst h hchunks (hcut hchunks)
    obtain ⟨hitems', herror'⟩ := fails_of_failsFirst h hchunks' (hcut hchunks')
    exact ⟨hitems.trans hitems'.symm, herror.trans herror'.symm⟩

theorem single_chunk_fails (h : ¬ FitsWhole limit bytes) :
    (streamEvents runtime limit [bytes]).1 = [] ∧
      (streamEvents runtime limit [bytes]).2.isSome = true := by
  rw [streamEvents, streamFrom, receive_eq ready_initial]
  cases hdecode : decode StreamState.initial.held bytes with
  | none => exact ⟨rfl, rfl⟩
  | some p =>
    obtain ⟨decoded, held⟩ := p
    have hstarts := decode_eq_some.mp hdecode
    have hexceeds : exceeds limit (size (pendingWith .initial decoded) + held.length) = true := by
      by_contra hfits
      refine h ⟨held, congrArg Prod.snd hstarts, ?_⟩
      rw [Bool.not_eq_true] at hfits
      have htext : bodyText bytes = pendingWith .initial decoded := by
        rw [bodyText, show decodePrefix [] bytes = (decoded, some held) from hstarts]
        rfl
      rw [htext]
      exact hfits
    simp only [hexceeds, if_true]
    exact ⟨trivial, rfl⟩

theorem exists_start (hzero : exceeds limit 0 = false) (text : Text) :
    ∃ s chunks, Fresh s ∧ [] ∉ chunks ∧
      chunks.flatten ++ encode (withoutMark true text) = encode text ∧
      (s.atStart = true → (withoutMark true text).head? ≠ some byteOrderMark) ∧
      ∀ others, streamEvents runtime limit (chunks ++ others) =
        streamFrom runtime limit s others := by
  by_cases hmark : text.head? = some byteOrderMark
  · cases text with
    | nil => cases hmark
    | cons c text =>
      obtain rfl := Option.some.inj hmark
      obtain ⟨t, ht, hstart, hrun⟩ := streamFrom_mark hzero
      have hbody : withoutMark true (byteOrderMark :: text) = text := by
        rw [withoutMark_cons, if_pos ⟨rfl, rfl⟩]
      refine ⟨t, [encode [byteOrderMark]], ht, ?_, ?_, by simp [hstart], hrun⟩
      · rw [List.mem_singleton]
        exact List.cons_ne_nil _ _ |>.symm
      · rw [hbody]
        rfl
  · have hbody : withoutMark true text = text := by
      rcases withoutMark_eq true text with heq | ⟨-, heq⟩
      · exact heq
      · rw [heq] at hmark
        exact absurd rfl hmark
    refine ⟨.initial, [], ⟨ready_initial, rfl, rfl⟩, by simp, by rw [hbody]; rfl, fun _ => ?_,
      fun others => rfl⟩
    rw [hbody]
    exact hmark

theorem encode_flatMap (frames : List Text) (f : Text → Text) :
    (frames.map fun frame => encode (f frame)).flatten = encode (frames.flatMap f) := by
  induction frames with
  | nil => rfl
  | cons frame frames ih =>
    rw [List.map_cons, List.flatten_cons, ih, List.flatMap_cons, encode_append]

theorem exists_framewise (hzero : exceeds limit 0 = false) :
    ∃ chunks t last, [] ∉ chunks ∧ chunks.flatten = bytes ∧ Fresh t ∧
      (streamEvents runtime limit chunks).1 =
        ((splitFrames (bodyText bytes)).1.takeWhile (sound runtime limit)).filterMap
          (itemOf runtime) ++ (streamFrom runtime limit t last).1 ∧
      (streamEvents runtime limit chunks).2 = (streamFrom runtime limit t last).2 ∧
      ((∀ frame ∈ (splitFrames (bodyText bytes)).1, sound runtime limit frame = true) →
        (splitFrames (bodyText bytes)).2 = [] → (decodePrefix [] bytes).2 = some [] →
        last = []) := by
  obtain ⟨tail, hbytes, htail⟩ := decodePrefix_eq [] bytes
  rw [List.nil_append] at hbytes
  obtain ⟨s, first, hs, hfirst, htext, hstart, hrun⟩ :=
    exists_start hzero (decodePrefix [] bytes).1
  change _ ++ encode (bodyText bytes) = _ at htext
  change s.atStart = true → (bodyText bytes).head? ≠ some byteOrderMark at hstart
  obtain ⟨hbody, hsplit⟩ := splitFrames_eq (s := bodyText bytes) rfl
  set frames := (splitFrames (bodyText bytes)).1
  set rest := (splitFrames (bodyText bytes)).2
  set front := frames.takeWhile (sound runtime limit) with hfront
  set others := frames.dropWhile (sound runtime limit) with hothers
  have hframes : frames = front ++ others := (List.takeWhile_append_dropWhile).symm
  have hfrontMem (frame) (hframe : frame ∈ front) : frame ∈ frames :=
    (List.takeWhile_prefix _).subset hframe
  obtain ⟨t, ht, hfrontRun⟩ := streamFrom_frames hs (fun frame hframe => hsplit frame (hfrontMem frame hframe))
    (fun frame hframe => List.mem_takeWhile_imp hframe) (by
      intro hatStart frame hframe
      have hhead := hstart hatStart
      rw [hbody, hframes] at hhead
      cases hcases : front with
      | nil => simp [hcases] at hframe
      | cons f front =>
        obtain rfl : f = frame := by simpa [hcases] using hframe
        rw [hcases] at hhead
        cases f with
        | nil => simp
        | cons c f => simpa using hhead)
  set remaining := encode (others.flatMap (· ++ ['\n', '\n']) ++ rest) ++ tail with hremaining
  have hflatten : first.flatten ++ ((front.map fun f => encode (f ++ ['\n', '\n'])).flatten ++
      remaining) = bytes := by
    rw [encode_flatMap front (· ++ ['\n', '\n']), hremaining, hbytes, ← htext, hbody, hframes,
      List.flatMap_append, encode_append, encode_append, encode_append]
    simp only [List.append_assoc]
  have hnonempty : ∀ f ∈ front, encode (f ++ ['\n', '\n']) ≠ [] := by
    intro f _ hnil
    have hlength := congrArg List.length hnil
    rw [encode_append, List.length_append] at hlength
    exact absurd hlength (by rw [show (encode ['\n', '\n']).length = 2 from rfl]; simp)
  refine ⟨first ++ (front.map (fun f => encode (f ++ ['\n', '\n'])) ++
    if remaining = [] then [] else [remaining]), t, if remaining = [] then [] else [remaining],
    ?_, ?_, ht, ?_, ?_, ?_⟩
  · simp only [List.mem_append, List.mem_map, not_or, not_exists, not_and]
    refine ⟨hfirst, fun f hf => hnonempty f hf, ?_⟩
    split_ifs with hempty
    · simp
    · rw [List.mem_singleton]
      exact fun h => hempty h.symm
  · rw [List.flatten_append, List.flatten_append]
    split_ifs with hempty
    · rw [hempty] at hflatten
      simpa using hflatten
    · simpa using hflatten
  · rw [hrun, hfrontRun]
  · rw [hrun, hfrontRun]
  · intro hall hrest hheld
    have hnone : others = [] := by
      rw [hothers, List.dropWhile_eq_nil_iff]
      exact hall
    rw [if_pos]
    rw [hremaining, hnone, hrest, htail [] hheld]
    rfl

theorem exceeds_two_of_sound {frame : Text} (h : sound runtime limit frame = true) :
    exceeds limit 2 = false := by
  rw [sound, Bool.and_eq_true, Bool.not_eq_true'] at h
  have hsize := size_nonneg frame
  exact fits_mono (by omega) h.1

theorem failsFirst_of_exceeds (hzero : exceeds limit 0 = true) :
    FailsFirst runtime limit bytes := by
  refine ⟨fun frame hframe => ?_, .inr (.inr (.inr hzero))⟩
  have htwo := exceeds_two_of_sound (List.mem_takeWhile_imp hframe)
  have hmono := exceeds_mono (show (0 : ℤ) ≤ 2 by decide) hzero
  rw [htwo] at hmono
  cases hmono

theorem mark_alone {held : List Byte} (hbody : bodyText bytes = [])
    (hheld : (decodePrefix [] bytes).2 = some held) (hnone : held = [])
    (hmark : (decodePrefix [] bytes).1.head? = some byteOrderMark) :
    bytes = [239, 187] ++ [191] := by
  obtain ⟨tail, hbytes, htail⟩ := decodePrefix_eq [] bytes
  rw [List.nil_append, htail held hheld, hnone, List.append_nil] at hbytes
  have htext : (decodePrefix [] bytes).1 = [byteOrderMark] := by
    rcases withoutMark_eq true (decodePrefix [] bytes).1 with heq | ⟨-, heq⟩
    · rw [← heq] at hmark
      change (bodyText bytes).head? = _ at hmark
      rw [hbody] at hmark
      cases hmark
    · change _ = byteOrderMark :: bodyText bytes at heq
      rw [heq, hbody]
  rw [hbytes, htext]
  rfl

theorem mark_cut_fails (h : exceeds limit 2 = true) :
    (streamEvents runtime limit [[239, 187], [191]]).2.isSome = true := by
  have hdecode : decode StreamState.initial.held [239, 187] = some ([], [239, 187]) := rfl
  have hsize : size (pendingWith .initial []) + ([239, 187] : List Byte).length = 2 := rfl
  rw [streamEvents, streamFrom, receive_eq ready_initial, hdecode]
  simp only [hsize, h, if_true]
  rfl

theorem uniform_iff_fits_or_fails :
    Uniform runtime limit bytes ↔ FitsTogether limit bytes ∨ FailsFirst runtime limit bytes := by
  refine ⟨fun huniform => ?_, fun h => h.elim uniform_of_fits uniform_of_failsFirst⟩
  by_contra hneither
  obtain ⟨hfits, hfails⟩ := not_or.mp hneither
  have hzero : exceeds limit 0 = false := by
    by_contra hzero
    exact hfails (failsFirst_of_exceeds (by simpa using hzero))
  obtain ⟨chunks, t, last, hne, hchunks, ht, hitems, herror, hlast⟩ :=
    exists_framewise hzero
  have hsingle (hbytes : bytes ≠ []) :=
    huniform chunks [bytes] hne (by simpa using hbytes.symm) hchunks (by simp)
  by_cases hsilent : ∀ frame ∈ (splitFrames (bodyText bytes)).1.takeWhile (sound runtime limit),
      itemOf runtime frame = none
  · have hsound : ∀ frame ∈ (splitFrames (bodyText bytes)).1, sound runtime limit frame = true := by
      by_contra hbad
      push Not at hbad
      obtain ⟨frame, hframe, hbad⟩ := hbad
      exact hfails ⟨hsilent, .inl ⟨frame, hframe, by simpa using hbad⟩⟩
    have hrest : (splitFrames (bodyText bytes)).2 = [] := by
      by_contra hrest
      exact hfails ⟨hsilent, .inr (.inl hrest)⟩
    have hheld : (decodePrefix [] bytes).2 = some [] := by
      by_contra hheld
      exact hfails ⟨hsilent, .inr (.inr (.inl hheld))⟩
    have hend : (streamEvents runtime limit chunks).2 = none := by
      rw [herror, hlast hsound hrest hheld, streamFrom, finish, ht.pending, ht.held_nil]
      rfl
    by_cases hwhole : FitsWhole limit bytes
    · have hmark : ¬ ((decodePrefix [] bytes).1.head? = some byteOrderMark →
          exceeds limit 2 = false) := fun hmark => hfits ⟨hwhole, hmark⟩
      rw [Classical.not_imp, Bool.not_eq_false] at hmark
      obtain ⟨hmark, htwo⟩ := hmark
      have hnone : (splitFrames (bodyText bytes)).1 = [] := by
        by_contra hne
        obtain ⟨frame, frames, hcons⟩ := List.exists_cons_of_ne_nil hne
        have hframe := exceeds_two_of_sound (hsound frame (hcons ▸ List.mem_cons_self))
        exact absurd htwo (by simp [hframe])
      have hbody : bodyText bytes = [] := by
        rw [(splitFrames_eq (s := bodyText bytes) rfl).1, hnone, hrest]
        rfl
      have hbytes := mark_alone hbody hheld rfl hmark
      obtain ⟨-, hsome⟩ := huniform chunks [[239, 187], [191]] hne (by simp) hchunks (by
        rw [hbytes]
        rfl)
      rw [hend, mark_cut_fails htwo] at hsome
      cases hsome
    · have hbytes : bytes ≠ [] := by
        rintro rfl
        exact hwhole ⟨[], rfl, hzero⟩
      obtain ⟨-, hsome⟩ := hsingle hbytes
      rw [hend, (single_chunk_fails hwhole).2] at hsome
      cases hsome
  · push Not at hsilent
    obtain ⟨frame, hframe, hitem⟩ := hsilent
    have htwo := exceeds_two_of_sound (List.mem_takeWhile_imp hframe)
    have hwhole : ¬ FitsWhole limit bytes := fun hwhole => hfits ⟨hwhole, fun _ => htwo⟩
    have hbytes : bytes ≠ [] := by
      rintro rfl
      exact absurd hframe List.not_mem_nil
    obtain ⟨hsame, -⟩ := hsingle hbytes
    rw [hitems, (single_chunk_fails hwhole).1] at hsame
    have hnil := List.filterMap_eq_nil_iff.mp (List.append_eq_nil_iff.mp hsame).1
    exact hitem (hnil frame hframe)

end Uniformity

section Samples

def heartbeatFrame : Text := ": heartbeat\n\n".toList

-- Two frames of 13 bytes each under a limit of 13 bytes, in two chunks and in one.
theorem heartbeats_depend_on_cut :
    ¬ Uniform sampleRuntime (.ofInt 13 (by decide))
      (encode heartbeatFrame ++ encode heartbeatFrame) := by
  intro huniform
  obtain ⟨-, hsome⟩ := huniform [encode heartbeatFrame, encode heartbeatFrame]
    [encode heartbeatFrame ++ encode heartbeatFrame] (by decide) (by decide) rfl rfl
  have hcut : (streamEvents sampleRuntime (.ofInt 13 (by decide))
      [encode heartbeatFrame, encode heartbeatFrame]).2 = none := by decide
  have hwhole : (streamEvents sampleRuntime (.ofInt 13 (by decide))
      [encode heartbeatFrame ++ encode heartbeatFrame]).2 = some .frameTooLarge := by
    decide
  rw [hcut, hwhole] at hsome
  cases hsome

end Samples

end EventStream

end Aseos
