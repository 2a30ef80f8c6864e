import Aseos.Platform.EventStream

namespace Aseos

namespace EventStream

open Utf8

section Splitting

theorem splitFrames_blank (s : Text) :
    splitFrames ('\n' :: '\n' :: s) = ([] :: (splitFrames s).1, (splitFrames s).2) :=
  splitFrames.eq_2 s

theorem splitFrames_none {c : Char} {s rest : Text}
    (hblank : ∀ t, c = '\n' → s = '\n' :: t → False) (h : splitFrames s = ([], rest)) :
    splitFrames (c :: s) = ([], c :: rest) := by
  rw [splitFrames.eq_3 c s hblank, h]

theorem splitFrames_some {c : Char} {s frame rest : Text} {frames : List Text}
    (hblank : ∀ t, c = '\n' → s = '\n' :: t → False)
    (h : splitFrames s = (frame :: frames, rest)) :
    splitFrames (c :: s) = ((c :: frame) :: frames, rest) := by
  rw [splitFrames.eq_3 c s hblank, h]

theorem splitFrames_rest_of_nil {s rest : Text} (h : splitFrames s = ([], rest)) : rest = s := by
  induction s using splitFrames.induct generalizing rest with
  | case1 => exact (Prod.mk.inj h).2.symm
  | case2 s ih => simp [splitFrames_blank] at h
  | case3 c s hblank rest' hsplit ih =>
    rw [splitFrames_none hblank hsplit] at h
    rw [← (Prod.mk.inj h).2, ih hsplit]
  | case4 c s hblank frame frames rest' hsplit ih =>
    rw [splitFrames_some hblank hsplit] at h
    cases h

theorem splitFrames_append (s t : Text) :
    splitFrames (s ++ t) =
      ((splitFrames s).1 ++ (splitFrames ((splitFrames s).2 ++ t)).1,
        (splitFrames ((splitFrames s).2 ++ t)).2) := by
  induction s using splitFrames.induct with
  | case1 => rfl
  | case2 s ih =>
    rw [List.cons_append, List.cons_append, splitFrames_blank, splitFrames_blank, ih]
    rfl
  | case3 c s hblank rest hsplit ih =>
    rw [splitFrames_none hblank hsplit, splitFrames_rest_of_nil hsplit]
    rfl
  | case4 c s hblank frame frames rest hsplit ih =>
    rw [hsplit] at ih
    rw [splitFrames_some hblank hsplit]
    refine splitFrames_some ?_ ih
    -- The text after `c` has a frame, so its first character is not one that was appended.
    rintro u rfl hu
    cases s with
    | nil => cases hsplit
    | cons d s => exact hblank s rfl (by rw [(List.cons.inj hu).1])

theorem splitFrames_rest (s : Text) : splitFrames (splitFrames s).2 = ([], (splitFrames s).2) := by
  have h := splitFrames_append s []
  simp only [List.append_nil] at h
  have hframes := congrArg Prod.fst h
  have hrest := congrArg Prod.snd h
  exact Prod.ext (List.self_eq_append_right.mp hframes) hrest.symm

theorem splitFrames_uncons {s frame rest : Text} {frames : List Text}
    (h : splitFrames s = (frame :: frames, rest)) :
    ∃ t, s = frame ++ '\n' :: '\n' :: t ∧ splitFrames t = (frames, rest) ∧
      splitFrames (frame ++ ['\n', '\n']) = ([frame], []) := by
  induction s using splitFrames.induct generalizing frame with
  | case1 => cases h
  | case2 s ih =>
    rw [splitFrames_blank] at h
    obtain ⟨hframes, hrest⟩ := Prod.mk.inj h
    obtain ⟨rfl, rfl⟩ := List.cons.inj hframes
    exact ⟨s, rfl, by rw [← hrest], rfl⟩
  | case3 c s hblank rest' hsplit ih =>
    rw [splitFrames_none hblank hsplit] at h
    cases h
  | case4 c s hblank first frames' rest' hsplit ih =>
    rw [splitFrames_some hblank hsplit] at h
    obtain ⟨hframes, rfl⟩ := Prod.mk.inj h
    obtain ⟨rfl, rfl⟩ := List.cons.inj hframes
    obtain ⟨t, rfl, ht, hframe⟩ := ih hsplit
    refine ⟨t, rfl, ht, splitFrames_some ?_ hframe⟩
    rintro u rfl hu
    cases first with
    | nil => exact hblank _ rfl rfl
    | cons d first => exact hblank _ rfl (by rw [List.cons_append, (List.cons.inj hu).1])

theorem splitFrames_eq {s rest : Text} {frames : List Text} (h : splitFrames s = (frames, rest)) :
    s = frames.flatMap (· ++ ['\n', '\n']) ++ rest ∧
      ∀ frame ∈ frames, splitFrames (frame ++ ['\n', '\n']) = ([frame], []) := by
  induction frames generalizing s with
  | nil => exact ⟨(splitFrames_rest_of_nil h).symm, by simp⟩
  | cons frame frames ih =>
    obtain ⟨t, rfl, ht, hframe⟩ := splitFrames_uncons h
    obtain ⟨heq, hall⟩ := ih ht
    refine ⟨?_, List.forall_mem_cons.mpr ⟨hframe, hall⟩⟩
    conv_lhs => rw [heq]
    simp

end Splitting

section Marks

theorem withoutMark_nil (atStart : Bool) : withoutMark atStart [] = [] := by
  cases atStart <;> rfl

theorem withoutMark_cons (atStart : Bool) (c : Char) (text : Text) :
    withoutMark atStart (c :: text) =
      if atStart = true ∧ c = byteOrderMark then text else c :: text := by
  cases atStart with
  | false => rfl
  | true => simp [withoutMark]

theorem withoutMark_append (atStart : Bool) (first second : Text) :
    withoutMark atStart (first ++ second) =
      withoutMark atStart first ++ withoutMark (atStart && first.isEmpty) second := by
  cases first with
  | nil => simp [withoutMark_nil]
  | cons c first =>
    have hsecond : withoutMark (atStart && (c :: first).isEmpty) second = second := by
      cases atStart <;> rfl
    rw [hsecond, List.cons_append, withoutMark_cons, withoutMark_cons]
    split <;> rfl

theorem withoutMark_eq (atStart : Bool) (text : Text) :
    withoutMark atStart text = text ∨
      atStart = true ∧ text = byteOrderMark :: withoutMark atStart text := by
  cases text with
  | nil => exact .inl (withoutMark_nil atStart)
  | cons c text =>
    rw [withoutMark_cons]
    split
    · rename_i h
      exact .inr ⟨h.1, by rw [h.2]⟩
    · exact .inl rfl

end Marks

section Limits

theorem exceeds_mono {limit : JsNumber} {m n : ℤ} (hmn : m ≤ n) (h : exceeds limit m = true) :
    exceeds limit n = true := by
  cases limit with
  | nan => exact h
  | infinity negative => exact h
  | finite x =>
    simp only [exceeds, decide_eq_true_eq] at h ⊢
    exact lt_of_lt_of_le h (by exact_mod_cast hmn)

theorem fits_mono {limit : JsNumber} {m n : ℤ} (hmn : m ≤ n) (h : exceeds limit n = false) :
    exceeds limit m = false := by
  rw [Bool.eq_false_iff] at h ⊢
  exact fun hm => h (exceeds_mono hmn hm)

end Limits

section Draining

variable {runtime : JsonRuntime}

theorem drainFrames_append (frames frames' : List Text) :
    drainFrames runtime (frames ++ frames') =
      match drainFrames runtime frames with
      | (items, some e) => (items, some e)
      | (items, none) =>
          (items ++ (drainFrames runtime frames').1, (drainFrames runtime frames').2) := by
  induction frames with
  | nil => rfl
  | cons frame frames ih =>
    rw [List.cons_append, drainFrames, drainFrames]
    cases frameItem runtime frame with
    | error e => rfl
    | ok item =>
      rw [ih]
      cases hrest : drainFrames runtime frames with
      | mk items failure => cases failure <;> simp

end Draining

section Receiving

variable {runtime : JsonRuntime} {limit : JsNumber}

def size (text : Text) : ℤ := (encode text).length

theorem size_append (text text' : Text) : size (text ++ text') = size text + size text' := by
  simp [size, encode_append]

theorem size_nonneg (text : Text) : 0 ≤ size text := Int.natCast_nonneg _

structure Ready (s : StreamState) : Prop where
  rest : splitFrames s.pending = ([], s.pending)
  undecoded : s.undecodedBytes = s.held.length
  held : s.held = [] ∨ examine s.held = .unfinished
  start : s.atStart = true → s.pending = []

theorem ready_initial : Ready .initial := ⟨rfl, rfl, .inl rfl, fun _ => rfl⟩

def pendingWith (s : StreamState) (text : Text) : Text := s.pending ++ withoutMark s.atStart text

def next (s : StreamState) (decoded : Text) (held : List Byte) : StreamState :=
  ⟨(splitFrames (pendingWith s decoded)).2, held, held.length, s.atStart && decoded.isEmpty⟩

theorem Ready.next {s : StreamState} (h : Ready s) {chunk held : List Byte} {decoded : Text}
    (hdecode : decode s.held chunk = some (decoded, held)) : Ready (next s decoded held) := by
  refine ⟨splitFrames_rest _, rfl, decode_held hdecode h.held, fun hstart => ?_⟩
  simp only [EventStream.next, Bool.and_eq_true, List.isEmpty_iff] at hstart
  obtain ⟨hstart, rfl⟩ := hstart
  simp [EventStream.next, pendingWith, withoutMark_nil, h.start hstart, splitFrames]

theorem receive_eq {s : StreamState} (h : Ready s) (chunk : List Byte) :
    receive runtime limit s chunk =
      match decode s.held chunk with
      | none => ([], .error .invalidUtf8)
      | some (decoded, held) =>
          if exceeds limit (size (pendingWith s decoded) + held.length) then
            ([], .error .frameTooLarge)
          else
            match drainFrames runtime (splitFrames (pendingWith s decoded)).1 with
            | (items, some e) => (items, .error e)
            | (items, none) => (items, .ok (next s decoded held)) := by
  unfold receive
  cases hdecode : decode s.held chunk with
  | none => rfl
  | some p =>
    obtain ⟨decoded, held⟩ := p
    have hlength := decode_length hdecode
    have hundecoded : s.undecodedBytes + (chunk.length - (encode decoded).length) =
        (held.length : ℤ) := by
      rw [h.undecoded]
      omega
    simp only [hundecoded]
    rfl

theorem splitFrames_next (s : StreamState) (decoded text : Text) (held : List Byte) :
    splitFrames (pendingWith s (decoded ++ text)) =
      ((splitFrames (pendingWith s decoded)).1 ++
          (splitFrames (pendingWith (next s decoded held) text)).1,
        (splitFrames (pendingWith (next s decoded held) text)).2) := by
  rw [pendingWith, withoutMark_append, ← List.append_assoc, splitFrames_append]
  rfl

theorem splitFrames_size {text : Text} {frames : List Text} {rest : Text}
    (h : splitFrames text = (frames, rest)) :
    (∀ frame ∈ frames, size frame + 2 ≤ size text) ∧ size rest ≤ size text := by
  induction frames generalizing text with
  | nil =>
    rw [splitFrames_rest_of_nil h]
    exact ⟨by simp, le_rfl⟩
  | cons frame frames ih =>
    obtain ⟨t, rfl, ht, -⟩ := splitFrames_uncons h
    obtain ⟨hframes, hrest⟩ := ih ht
    have hblank : size ('\n' :: '\n' :: t) = 2 + size t := by
      rw [show '\n' :: '\n' :: t = ['\n', '\n'] ++ t from rfl, size_append]
      rfl
    have hframe := size_nonneg frame
    have htail := size_nonneg t
    rw [size_append, hblank]
    refine ⟨List.forall_mem_cons.mpr ⟨by omega, fun f hf => ?_⟩, by omega⟩
    have hf := hframes f hf
    omega

end Receiving

section Processing

variable (runtime : JsonRuntime) (limit : JsNumber)

def sound (frame : Text) : Bool :=
  !exceeds limit (size frame + 2) && (frameItem runtime frame).isOk

def itemOf (frame : Text) : Option StreamItem :=
  match frameItem runtime frame with
  | .ok item => item
  | .error _ => none

variable {runtime limit}

theorem drainFrames_ok {frames : List Text}
    (h : ∀ frame ∈ frames, (frameItem runtime frame).isOk = true) :
    drainFrames runtime frames = (frames.filterMap (itemOf runtime), none) := by
  induction frames with
  | nil => rfl
  | cons frame frames ih =>
    obtain ⟨hframe, hframes⟩ := List.forall_mem_cons.mp h
    rw [drainFrames, ih hframes, List.filterMap_cons, itemOf]
    cases hitem : frameItem runtime frame with
    | error e =>
      rw [hitem] at hframe
      cases hframe
    | ok item => cases item <;> rfl

theorem drainFrames_prefix (frames : List Text) :
    ∃ processed, processed <+: frames ∧
      (∀ frame ∈ processed, (frameItem runtime frame).isOk = true) ∧
      (drainFrames runtime frames).1 = processed.filterMap (itemOf runtime) ∧
      ((drainFrames runtime frames).2 = none → processed = frames) := by
  induction frames with
  | nil => exact ⟨[], List.prefix_rfl, by simp, rfl, fun _ => rfl⟩
  | cons frame frames ih =>
    rw [drainFrames]
    cases hitem : frameItem runtime frame with
    | error e => exact ⟨[], List.nil_prefix, by simp, rfl, by simp⟩
    | ok item =>
      obtain ⟨processed, hstarts, hok, hitems, hall⟩ := ih
      refine ⟨frame :: processed, List.cons_prefix_cons.mpr ⟨rfl, hstarts⟩,
        List.forall_mem_cons.mpr ⟨by rw [hitem]; rfl, hok⟩, ?_, fun hnone => by rw [hall hnone]⟩
      rw [List.filterMap_cons, itemOf, hitem, hitems]
      cases item <;> rfl

theorem streamFrom_processed {s : StreamState} (h : Ready s) (chunks : List (List Byte)) :
    ∃ processed,
      processed <+: (splitFrames (pendingWith s (decodePrefix s.held chunks.flatten).1)).1 ∧
      (∀ frame ∈ processed, sound runtime limit frame = true) ∧
      (streamFrom runtime limit s chunks).1 = processed.filterMap (itemOf runtime) ∧
      ((streamFrom runtime limit s chunks).2 = none →
        processed = (splitFrames (pendingWith s (decodePrefix s.held chunks.flatten).1)).1 ∧
        (splitFrames (pendingWith s (decodePrefix s.held chunks.flatten).1)).2 = [] ∧
        (decodePrefix s.held chunks.flatten).2 = some [] ∧
        (chunks ≠ [] → exceeds limit 0 = false)) := by
  induction chunks generalizing s with
  | nil =>
    have hpending : pendingWith s [] = s.pending := by simp [pendingWith, withoutMark_nil]
    simp only [List.flatten_nil, decodePrefix, hpending, h.rest]
    refine ⟨[], List.prefix_rfl, by simp, rfl, fun hnone => ?_⟩
    simp only [streamFrom, finish] at hnone
    split_ifs at hnone with hheld hpending
    exact ⟨rfl, not_not.mp hpending, by rw [not_not.mp hheld], by simp⟩
  | cons chunk chunks ih =>
    rw [streamFrom, receive_eq h, List.flatten_cons]
    cases hdecode : decode s.held chunk with
    | none => exact ⟨[], List.nil_prefix, by simp, rfl, by simp⟩
    | some p =>
      obtain ⟨decoded, held⟩ := p
      simp only
      cases hfits : exceeds limit (size (pendingWith s decoded) + held.length) with
      | true => exact ⟨[], List.nil_prefix, by simp, rfl, by simp⟩
      | false =>
        simp only [Bool.false_eq_true, if_false]
        obtain ⟨hsizes, -⟩ := splitFrames_size rfl
        have hsize := size_nonneg (pendingWith s decoded)
        have hsound (frame) (hframe : frame ∈ (splitFrames (pendingWith s decoded)).1)
            (hok : (frameItem runtime frame).isOk = true) : sound runtime limit frame = true := by
          have hle := hsizes frame hframe
          rw [sound, hok, fits_mono (by omega) hfits]
          rfl
        obtain ⟨first, hstarts, hok, hitems, hall⟩ :=
          drainFrames_prefix (splitFrames (pendingWith s decoded)).1
        have hfirst (frame) (hframe : frame ∈ first) :=
          hsound frame (hstarts.subset hframe) (hok frame hframe)
        rw [decodePrefix_append hdecode, splitFrames_next s decoded _ held]
        cases hdrain : drainFrames runtime (splitFrames (pendingWith s decoded)).1 with
        | mk items failure =>
          rw [hdrain] at hitems hall
          cases failure with
          | some e =>
            exact ⟨first, hstarts.trans (List.prefix_append _ _), hfirst, hitems, by simp⟩
          | none =>
            have hfirstAll := hall rfl
            obtain ⟨processed, hprocessed, hsounds, hrest, hend⟩ := ih (h.next hdecode)
            refine ⟨first ++ processed, ?_, ?_, ?_, ?_⟩
            · rw [hfirstAll]
              exact (List.prefix_append_right_inj _).mpr hprocessed
            · exact fun frame hframe =>
                (List.mem_append.mp hframe).elim (hfirst frame) (hsounds frame)
            · simp only [hrest, List.filterMap_append]
              rw [← hitems]
            · intro hnone
              obtain ⟨hprocessed, hpending, hheld, -⟩ := hend hnone
              refine ⟨by rw [hprocessed, hfirstAll]; rfl, hpending, hheld, fun _ => ?_⟩
              exact fits_mono (by omega) hfits

structure Steady (limit : JsNumber) (s : StreamState) (text : Text) (held : List Byte) : Prop where
  fits : exceeds limit (size (pendingWith s text) + held.length) = false
  mark : s.atStart = true → text.head? = some byteOrderMark → exceeds limit 2 = false

theorem encode_mark (text : Text) : encode (byteOrderMark :: text) = 239 :: 187 :: 191 :: encode text :=
  rfl

theorem held_length_le {held rest held' : List Byte} {text : Text}
    (h : held = [] ∨ examine held = .unfinished)
    (hbytes : held ++ rest = encode (byteOrderMark :: text) ++ held') : held.length ≤ 2 := by
  rcases h with rfl | h
  · exact Nat.zero_le 2
  match held with
  | [] | [_] | [_, _] => simp
  | [a, b, c] =>
    rw [encode_mark] at hbytes
    obtain ⟨rfl, rfl, rfl, -⟩ : a = 239 ∧ b = 187 ∧ c = 191 ∧ rest = encode text ++ held' := by
      simpa using hbytes
    cases h
  | [a, b, c, d] =>
    rw [examine] at h
    split at h <;> cases h
  | a :: b :: c :: d :: e :: held => cases h

theorem Steady.chunk {s : StreamState} (h : Ready s) {chunk rest held held' : List Byte}
    {decoded text : Text} (hchunk : decode s.held chunk = some (decoded, held))
    (hrest : decode held rest = some (text, held'))
    (hsteady : Steady limit s (decoded ++ text) held') :
    exceeds limit (size (pendingWith s decoded) + held.length) = false ∧
      Steady limit (next s decoded held) text held' := by
  have hpending : pendingWith s (decoded ++ text) =
      pendingWith s decoded ++ withoutMark (s.atStart && decoded.isEmpty) text := by
    rw [pendingWith, withoutMark_append, ← List.append_assoc, pendingWith]
  have hsize := congrArg size hpending
  rw [size_append] at hsize
  have hlength := decode_length hrest
  have hfits := hsteady.fits
  constructor
  · rcases withoutMark_eq (s.atStart && decoded.isEmpty) text with hmark | ⟨hstart, hmark⟩
    · rw [hmark] at hsize
      refine fits_mono ?_ hfits
      rw [hsize, size]
      unfold size
      omega
    · rw [Bool.and_eq_true, List.isEmpty_iff] at hstart
      obtain ⟨hstart, rfl⟩ := hstart
      have hnone : pendingWith s [] = [] := by
        simp [pendingWith, withoutMark_nil, h.start hstart]
      have hbytes := decode_eq hrest
      rw [hmark] at hbytes
      have hheld := held_length_le (decode_held hchunk h.held) hbytes
      have htwo := hsteady.mark hstart (by rw [List.nil_append, hmark]; rfl)
      refine fits_mono ?_ htwo
      rw [hnone]
      change (0 : ℤ) + held.length ≤ 2
      omega
  · refine ⟨fits_mono ?_ hfits, fun hstart hhead => ?_⟩
    · obtain ⟨-, hrestSize⟩ := @splitFrames_size (pendingWith s decoded) _ _ rfl
      have hnext : size (pendingWith (next s decoded held) text) =
          size (splitFrames (pendingWith s decoded)).2 +
            size (withoutMark (s.atStart && decoded.isEmpty) text) := size_append _ _
      omega
    · simp only [next, Bool.and_eq_true, List.isEmpty_iff] at hstart
      obtain ⟨hstart, rfl⟩ := hstart
      exact hsteady.mark hstart hhead

theorem finish_eq {s t : StreamState} (hpending : s.pending = t.pending) (hheld : s.held = t.held) :
    finish s = finish t := by
  rw [finish, finish, hpending, hheld]

def settled (runtime : JsonRuntime) (s : StreamState) (text : Text) (held : List Byte) :
    List StreamItem × Option StreamError :=
  match drainFrames runtime (splitFrames (pendingWith s text)).1 with
  | (items, some e) => (items, some e)
  | (items, none) => (items, finish (next s text held))

def WithinLimit (limit : JsNumber) : StreamState → List (List Byte) → Prop
  | _, [] => True
  | s, chunk :: chunks =>
      match decode s.held chunk with
      | none => True
      | some (decoded, held) =>
          exceeds limit (size (pendingWith s decoded) + held.length) = false ∧
            WithinLimit limit (next s decoded held) chunks

theorem streamFrom_within {s : StreamState} (h : Ready s) {chunks : List (List Byte)} {text : Text}
    {held : List Byte} (hdecode : decode s.held chunks.flatten = some (text, held))
    (hwithin : WithinLimit limit s chunks) :
    streamFrom runtime limit s chunks = settled runtime s text held := by
  induction chunks generalizing s text with
  | nil =>
    obtain ⟨rfl, rfl⟩ := Prod.mk.inj (Option.some.inj hdecode)
    have hpending : pendingWith s [] = s.pending := by simp [pendingWith, withoutMark_nil]
    rw [settled, hpending, h.rest, streamFrom]
    exact congrArg (Prod.mk []) (finish_eq (by rw [next, hpending, h.rest]) rfl)
  | cons chunk chunks ih =>
    rw [List.flatten_cons, decode_append] at hdecode
    obtain ⟨⟨decoded, held₁⟩, hchunk, hdecode⟩ := Option.bind_eq_some_iff.mp hdecode
    obtain ⟨⟨text', held'⟩, hrest, hpair⟩ := Option.map_eq_some_iff.mp hdecode
    obtain ⟨rfl, rfl⟩ := Prod.mk.inj hpair
    rw [WithinLimit, hchunk] at hwithin
    obtain ⟨hfits, hnext⟩ := hwithin
    rw [streamFrom, receive_eq h, hchunk]
    simp only [hfits, Bool.false_eq_true, if_false]
    rw [settled, splitFrames_next s decoded text' held₁, drainFrames_append]
    cases hdrain : drainFrames runtime (splitFrames (pendingWith s decoded)).1 with
    | mk items failure =>
      cases failure with
      | some e => rfl
      | none =>
        simp only
        rw [ih (h.next hchunk) hrest hnext, settled]
        cases hdrain' : drainFrames runtime
            (splitFrames (pendingWith (next s decoded held₁) text')).1 with
        | mk items' failure' =>
          cases failure' with
          | some e => rfl
          | none =>
            refine congrArg (Prod.mk _) (finish_eq ?_ rfl)
            exact (congrArg Prod.snd (splitFrames_next s decoded text' held₁)).symm

theorem Steady.within {s : StreamState} (h : Ready s) {chunks : List (List Byte)} {text : Text}
    {held : List Byte} (hdecode : decode s.held chunks.flatten = some (text, held))
    (hsteady : Steady limit s text held) : WithinLimit limit s chunks := by
  induction chunks generalizing s text with
  | nil => exact trivial
  | cons chunk chunks ih =>
    rw [List.flatten_cons, decode_append] at hdecode
    obtain ⟨⟨decoded, held₁⟩, hchunk, hdecode⟩ := Option.bind_eq_some_iff.mp hdecode
    obtain ⟨⟨text', held'⟩, hrest, hpair⟩ := Option.map_eq_some_iff.mp hdecode
    obtain ⟨rfl, rfl⟩ := Prod.mk.inj hpair
    obtain ⟨hfits, hnext⟩ := hsteady.chunk h hchunk hrest
    rw [WithinLimit, hchunk]
    exact ⟨hfits, ih (h.next hchunk) hrest hnext⟩

theorem streamFrom_steady {s : StreamState} (h : Ready s) {chunks : List (List Byte)} {text : Text}
    {held : List Byte} (hdecode : decode s.held chunks.flatten = some (text, held))
    (hsteady : Steady limit s text held) :
    streamFrom runtime limit s chunks = settled runtime s text held :=
  streamFrom_within h hdecode (hsteady.within h hdecode)

end Processing

section Framewise

variable {runtime : JsonRuntime} {limit : JsNumber}

structure Fresh (s : StreamState) : Prop extends Ready s where
  pending : s.pending = []
  held_nil : s.held = []

theorem streamFrom_cons {s : StreamState} (h : Ready s) {chunk held : List Byte} {decoded : Text}
    {items : List StreamItem} (hdecode : decode s.held chunk = some (decoded, held))
    (hfits : exceeds limit (size (pendingWith s decoded) + held.length) = false)
    (hdrain : drainFrames runtime (splitFrames (pendingWith s decoded)).1 = (items, none))
    (chunks : List (List Byte)) :
    streamFrom runtime limit s (chunk :: chunks) =
      (items ++ (streamFrom runtime limit (next s decoded held) chunks).1,
        (streamFrom runtime limit (next s decoded held) chunks).2) := by
  rw [streamFrom, receive_eq h, hdecode]
  simp only [hfits, Bool.false_eq_true, if_false, hdrain]

theorem streamFrom_frame {s : StreamState} (h : Fresh s) {frame : Text}
    (hsplit : splitFrames (frame ++ ['\n', '\n']) = ([frame], []))
    (hsound : sound runtime limit frame = true)
    (hmark : s.atStart = true → frame.head? ≠ some byteOrderMark) :
    ∃ t, Fresh t ∧ t.atStart = false ∧ ∀ chunks,
      streamFrom runtime limit s (encode (frame ++ ['\n', '\n']) :: chunks) =
        ((itemOf runtime frame).toList ++ (streamFrom runtime limit t chunks).1,
          (streamFrom runtime limit t chunks).2) := by
  rw [sound, Bool.and_eq_true, Bool.not_eq_true'] at hsound
  obtain ⟨hfits, hok⟩ := hsound
  have hdecode : decode s.held (encode (frame ++ ['\n', '\n'])) =
      some (frame ++ ['\n', '\n'], []) := by
    rw [h.held_nil, decode_encode]
  have hpending : pendingWith s (frame ++ ['\n', '\n']) = frame ++ ['\n', '\n'] := by
    rw [pendingWith, h.pending, List.nil_append]
    rcases withoutMark_eq s.atStart (frame ++ ['\n', '\n']) with heq | ⟨hstart, heq⟩
    · exact heq
    · refine absurd ?_ (hmark hstart)
      cases frame with
      | nil => exact absurd (List.cons.inj heq).1 (by decide)
      | cons c frame => rw [List.head?_cons, (List.cons.inj heq).1]
  have hempty : (frame ++ ['\n', '\n']).isEmpty = false := by cases frame <;> rfl
  refine ⟨next s (frame ++ ['\n', '\n']) [], ⟨h.toReady.next hdecode, ?_, rfl⟩, ?_, fun chunks => ?_⟩
  · rw [next, hpending, hsplit]
  · rw [next, hempty, Bool.and_false]
  · have hsize : size (frame ++ ['\n', '\n']) + ([] : List Byte).length = size frame + 2 := by
      rw [size_append]
      exact add_zero _
    have hdrain : drainFrames runtime [frame] = ([frame].filterMap (itemOf runtime), none) :=
      drainFrames_ok (by simpa using hok)
    rw [streamFrom_cons h.toReady hdecode]
    · rw [hpending, hsize]
      exact hfits
    · rw [hpending, hsplit, hdrain, List.filterMap_cons]
      cases itemOf runtime frame <;> rfl

theorem streamFrom_frames {s : StreamState} (h : Fresh s) {frames : List Text}
    (hsplit : ∀ frame ∈ frames, splitFrames (frame ++ ['\n', '\n']) = ([frame], []))
    (hsound : ∀ frame ∈ frames, sound runtime limit frame = true)
    (hmark : s.atStart = true → ∀ frame ∈ frames.head?, frame.head? ≠ some byteOrderMark) :
    ∃ t, Fresh t ∧ ∀ chunks,
      streamFrom runtime limit s (frames.map (fun f => encode (f ++ ['\n', '\n'])) ++ chunks) =
        (frames.filterMap (itemOf runtime) ++ (streamFrom runtime limit t chunks).1,
          (streamFrom runtime limit t chunks).2) := by
  induction frames generalizing s with
  | nil => exact ⟨s, h, fun chunks => rfl⟩
  | cons frame frames ih =>
    obtain ⟨hframe, hframes⟩ := List.forall_mem_cons.mp hsplit
    obtain ⟨hsoundFrame, hsoundFrames⟩ := List.forall_mem_cons.mp hsound
    obtain ⟨t, ht, hstart, hrun⟩ :=
      streamFrom_frame h hframe hsoundFrame fun hs => hmark hs frame rfl
    obtain ⟨u, hu, hrest⟩ := ih ht hframes hsoundFrames (by simp [hstart])
    refine ⟨u, hu, fun chunks => ?_⟩
    rw [List.map_cons, List.cons_append, hrun, hrest, List.filterMap_cons]
    cases itemOf runtime frame <;> simp

theorem streamFrom_mark (hzero : exceeds limit 0 = false) :
    ∃ t, Fresh t ∧ t.atStart = false ∧ ∀ chunks,
      streamFrom runtime limit .initial (encode [byteOrderMark] :: chunks) =
        streamFrom runtime limit t chunks := by
  have hdecode : decode [] (encode [byteOrderMark]) = some ([byteOrderMark], []) :=
    decode_encode _
  have hpending : pendingWith .initial [byteOrderMark] = [] := rfl
  refine ⟨next .initial [byteOrderMark] [], ⟨ready_initial.next hdecode, rfl, rfl⟩, rfl,
    fun chunks => ?_⟩
  rw [streamFrom_cons ready_initial hdecode hzero rfl]
  rfl

end Framewise

end EventStream

end Aseos
