import Mathlib.Data.Fin.Basic
import Mathlib.Algebra.GroupWithZero.Nat
import Mathlib.Tactic.Common

namespace Aseos.Utf8

abbrev Byte := Fin 256

instance bytes_neZero : NeZero (256 : ℕ) := ⟨by decide⟩

def byte (n : ℕ) : Byte := Fin.ofNat 256 n

def encodeChar (c : Char) : List Byte :=
  if c.toNat < 128 then [byte c.toNat]
  else if c.toNat < 2048 then [byte (192 + c.toNat / 64), byte (128 + c.toNat % 64)]
  else if c.toNat < 65536 then
    [byte (224 + c.toNat / 4096), byte (128 + c.toNat / 64 % 64), byte (128 + c.toNat % 64)]
  else
    [byte (240 + c.toNat / 262144), byte (128 + c.toNat / 4096 % 64), byte (128 + c.toNat / 64 % 64),
      byte (128 + c.toNat % 64)]

def encode (text : List Char) : List Byte := text.flatMap encodeChar

def isTail (b : Byte) : Bool := 128 ≤ b.val && b.val ≤ 191

-- The first byte bounds the second one: no longer form than needed, no surrogate, nothing above
-- the last code point.
def isSecond (a b : Byte) : Bool :=
  (if a.val = 224 then 160 else if a.val = 240 then 144 else 128) ≤ b.val &&
    b.val ≤ (if a.val = 237 then 159 else if a.val = 244 then 143 else 191)

inductive Progress where
  | complete (c : Char)
  | unfinished
  | invalid

def examine : List Byte → Progress
  | [a] =>
      if a.val < 128 then .complete (Char.ofNat a.val)
      else if 194 ≤ a.val ∧ a.val ≤ 244 then .unfinished
      else .invalid
  | [a, b] =>
      if 194 ≤ a.val ∧ a.val ≤ 244 ∧ isSecond a b then
        if a.val < 224 then .complete (Char.ofNat ((a.val - 192) * 64 + (b.val - 128)))
        else .unfinished
      else .invalid
  | [a, b, c] =>
      if 224 ≤ a.val ∧ a.val ≤ 244 ∧ isSecond a b ∧ isTail c then
        if a.val < 240 then
          .complete (Char.ofNat ((a.val - 224) * 4096 + (b.val - 128) * 64 + (c.val - 128)))
        else .unfinished
      else .invalid
  | [a, b, c, d] =>
      if 240 ≤ a.val ∧ a.val ≤ 244 ∧ isSecond a b ∧ isTail c ∧ isTail d then
        .complete (Char.ofNat ((a.val - 240) * 262144 + (b.val - 128) * 4096 + (c.val - 128) * 64 +
          (d.val - 128)))
      else .invalid
  | _ => .invalid

-- The characters of `bytes` after the held bytes of an unfinished one, and the bytes then held.
def decode : List Byte → List Byte → Option (List Char × List Byte)
  | held, [] => some ([], held)
  | held, b :: bytes =>
      match examine (held ++ [b]) with
      | .complete c => (decode [] bytes).map fun p => (c :: p.1, p.2)
      | .unfinished => decode (held ++ [b]) bytes
      | .invalid => none

-- The same up to the first invalid byte, after which nothing is held.
def decodePrefix : List Byte → List Byte → List Char × Option (List Byte)
  | held, [] => ([], some held)
  | held, b :: bytes =>
      match examine (held ++ [b]) with
      | .complete c => (c :: (decodePrefix [] bytes).1, (decodePrefix [] bytes).2)
      | .unfinished => decodePrefix (held ++ [b]) bytes
      | .invalid => ([], none)

theorem toNat_ofNat {n : ℕ} (h : n < 55296 ∨ 57343 < n ∧ n < 1114112) : (Char.ofNat n).toNat = n := by
  rw [Char.ofNat, dif_pos h]
  rfl

theorem byte_val {n : ℕ} (h : n < 256) : (byte n).val = n := Nat.mod_eq_of_lt h

theorem byte_eq {n : ℕ} {b : Byte} (h : n = b.val) : byte n = b := by
  subst h
  exact Fin.ext (byte_val b.isLt)

theorem encode_examine {bytes : List Byte} {c : Char} (h : examine bytes = .complete c) :
    encodeChar c = bytes := by
  unfold examine at h
  split at h
  · rename_i a
    split at h
    · rename_i ha
      obtain rfl := Progress.complete.inj h
      have hn := toNat_ofNat (n := a.val) (.inl (by omega))
      rw [encodeChar, hn, if_pos ha, byte_eq rfl]
    · split at h <;> cases h
  · rename_i a b
    split at h
    · rename_i hab
      simp only [isSecond, Bool.and_eq_true, decide_eq_true_eq] at hab
      split at h
      · rename_i ha
        obtain rfl := Progress.complete.inj h
        have hb : 128 ≤ b.val ∧ b.val ≤ 191 := by
          obtain ⟨-, -, hlow, hhigh⟩ := hab
          split_ifs at hlow hhigh <;> omega
        have hn := toNat_ofNat (n := (a.val - 192) * 64 + (b.val - 128)) (.inl (by omega))
        rw [encodeChar, hn, if_neg (by omega), if_pos (by omega), byte_eq (b := a) (by omega),
          byte_eq (b := b) (by omega)]
      · cases h
    · cases h
  · rename_i a b c
    split at h
    · rename_i habc
      simp only [isSecond, isTail, Bool.and_eq_true, decide_eq_true_eq] at habc
      split at h
      · rename_i ha
        obtain rfl := Progress.complete.inj h
        obtain ⟨hlead, -, ⟨hlow, hhigh⟩, hc⟩ := habc
        have hb : 128 ≤ b.val ∧ b.val ≤ 191 ∧ (a.val = 224 → 160 ≤ b.val) ∧
            (a.val = 237 → b.val ≤ 159) := by
          split_ifs at hlow hhigh <;> omega
        have hn := toNat_ofNat
          (n := (a.val - 224) * 4096 + (b.val - 128) * 64 + (c.val - 128)) (by omega)
        rw [encodeChar, hn, if_neg (by omega), if_neg (by omega), if_pos (by omega),
          byte_eq (b := a) (by omega), byte_eq (b := b) (by omega), byte_eq (b := c) (by omega)]
      · cases h
    · cases h
  · rename_i a b c d
    split at h
    · rename_i habcd
      simp only [isSecond, isTail, Bool.and_eq_true, decide_eq_true_eq] at habcd
      obtain rfl := Progress.complete.inj h
      obtain ⟨hlead, hlast, ⟨hlow, hhigh⟩, hc, hd⟩ := habcd
      have hb : 128 ≤ b.val ∧ b.val ≤ 191 ∧ (a.val = 240 → 144 ≤ b.val) ∧
          (a.val = 244 → b.val ≤ 143) := by
        split_ifs at hlow hhigh <;> omega
      have hn := toNat_ofNat (n := (a.val - 240) * 262144 + (b.val - 128) * 4096 +
        (c.val - 128) * 64 + (d.val - 128)) (by omega)
      rw [encodeChar, hn, if_neg (by omega), if_neg (by omega), if_neg (by omega),
        byte_eq (b := a) (by omega), byte_eq (b := b) (by omega), byte_eq (b := c) (by omega),
        byte_eq (b := d) (by omega)]
    · cases h
  · cases h

theorem decode_append (held first second : List Byte) :
    decode held (first ++ second) =
      (decode held first).bind fun p => (decode p.2 second).map fun q => (p.1 ++ q.1, q.2) := by
  induction first generalizing held with
  | nil =>
    rw [List.nil_append, decode, Option.bind_some]
    simp
  | cons b bytes ih =>
    rw [List.cons_append, decode, decode]
    cases examine (held ++ [b]) with
    | complete c =>
      rw [ih]
      cases decode [] bytes with
      | none => rfl
      | some p => simp [Option.map_map, Function.comp_def]
    | unfinished => exact ih _
    | invalid => rfl

theorem decode_eq {held bytes held' : List Byte} {text : List Char}
    (h : decode held bytes = some (text, held')) : held ++ bytes = encode text ++ held' := by
  induction bytes generalizing held text with
  | nil =>
    obtain ⟨rfl, rfl⟩ := Prod.mk.inj (Option.some.inj h)
    simp [encode]
  | cons b bytes ih =>
    rw [decode] at h
    cases hexamine : examine (held ++ [b]) with
    | complete c =>
      rw [hexamine] at h
      obtain ⟨⟨rest, _⟩, hrest, hpair⟩ := Option.map_eq_some_iff.mp h
      obtain ⟨rfl, rfl⟩ := Prod.mk.inj hpair
      have htail := ih hrest
      rw [List.nil_append] at htail
      rw [encode, List.flatMap_cons, encode_examine hexamine, htail, encode]
      simp
    | unfinished =>
      rw [hexamine] at h
      rw [← ih h]
      simp
    | invalid =>
      rw [hexamine] at h
      cases h

theorem decode_length {held bytes held' : List Byte} {text : List Char}
    (h : decode held bytes = some (text, held')) :
    held.length + bytes.length = (encode text).length + held'.length := by
  simpa using congrArg List.length (decode_eq h)

theorem decode_eq_some {held bytes held' : List Byte} {text : List Char} :
    decode held bytes = some (text, held') ↔ decodePrefix held bytes = (text, some held') := by
  induction bytes generalizing held text with
  | nil => simp [decode, decodePrefix]
  | cons b bytes ih =>
    rw [decode, decodePrefix]
    cases examine (held ++ [b]) with
    | complete c =>
      simp only [Option.map_eq_some_iff, Prod.mk.injEq]
      constructor
      · rintro ⟨⟨rest, _⟩, hrest, rfl, rfl⟩
        rw [ih.mp hrest]
        exact ⟨rfl, rfl⟩
      · rintro ⟨rfl, hheld⟩
        exact ⟨_, ih.mpr (Prod.ext rfl hheld), rfl, rfl⟩
    | unfinished => exact ih
    | invalid => simp

theorem decodePrefix_append {held first held' : List Byte} {text : List Char}
    (h : decode held first = some (text, held')) (second : List Byte) :
    decodePrefix held (first ++ second) =
      (text ++ (decodePrefix held' second).1, (decodePrefix held' second).2) := by
  induction first generalizing held text with
  | nil =>
    obtain ⟨rfl, rfl⟩ := Prod.mk.inj (Option.some.inj h)
    rfl
  | cons b bytes ih =>
    rw [decode] at h
    rw [List.cons_append, decodePrefix]
    cases hexamine : examine (held ++ [b]) with
    | complete c =>
      rw [hexamine] at h
      obtain ⟨⟨rest, _⟩, hrest, hpair⟩ := Option.map_eq_some_iff.mp h
      obtain ⟨rfl, rfl⟩ := Prod.mk.inj hpair
      simp only [ih hrest, List.cons_append]
    | unfinished =>
      rw [hexamine] at h
      exact ih h
    | invalid =>
      rw [hexamine] at h
      cases h

theorem decodePrefix_eq (held bytes : List Byte) :
    ∃ tail, held ++ bytes = encode (decodePrefix held bytes).1 ++ tail ∧
      ∀ held', (decodePrefix held bytes).2 = some held' → tail = held' := by
  induction bytes generalizing held with
  | nil => exact ⟨held, by simp [decodePrefix, encode], fun _ h => Option.some.inj h⟩
  | cons b bytes ih =>
    rw [decodePrefix]
    cases hexamine : examine (held ++ [b]) with
    | complete c =>
      obtain ⟨tail, heq, htail⟩ := ih []
      rw [List.nil_append] at heq
      refine ⟨tail, ?_, htail⟩
      rw [encode, List.flatMap_cons, encode_examine hexamine, ← encode, List.append_assoc, ← heq]
      simp
    | unfinished =>
      obtain ⟨tail, heq, htail⟩ := ih (held ++ [b])
      exact ⟨tail, by rw [← heq]; simp, htail⟩
    | invalid => exact ⟨held ++ b :: bytes, by simp [encode], fun _ h => by cases h⟩

theorem decode_held {held bytes held' : List Byte} {text : List Char}
    (h : decode held bytes = some (text, held')) (hheld : held = [] ∨ examine held = .unfinished) :
    held' = [] ∨ examine held' = .unfinished := by
  induction bytes generalizing held text with
  | nil =>
    obtain ⟨rfl, rfl⟩ := Prod.mk.inj (Option.some.inj h)
    exact hheld
  | cons b bytes ih =>
    rw [decode] at h
    cases hexamine : examine (held ++ [b]) with
    | complete c =>
      rw [hexamine] at h
      obtain ⟨⟨rest, _⟩, hrest, hpair⟩ := Option.map_eq_some_iff.mp h
      obtain ⟨rfl, rfl⟩ := Prod.mk.inj hpair
      exact ih hrest (.inl rfl)
    | unfinished =>
      rw [hexamine] at h
      exact ih h (.inr hexamine)
    | invalid =>
      rw [hexamine] at h
      cases h

theorem encode_append (text text' : List Char) :
    encode (text ++ text') = encode text ++ encode text' := List.flatMap_append

theorem decode_unfinished {held : List Byte} {b : Byte} (h : examine (held ++ [b]) = .unfinished)
    (bytes : List Byte) : decode held (b :: bytes) = decode (held ++ [b]) bytes := by
  rw [decode, h]

theorem decode_complete {held : List Byte} {b : Byte} {c : Char}
    (h : examine (held ++ [b]) = .complete c) (bytes : List Byte) :
    decode held (b :: bytes) = (decode [] bytes).map fun p => (c :: p.1, p.2) := by
  rw [decode, h]

theorem isTail_byte {n : ℕ} (h : n < 64) : isTail (byte (128 + n)) = true := by
  simp only [isTail, byte_val (show 128 + n < 256 by omega), Bool.and_eq_true, decide_eq_true_eq]
  omega

theorem isSecond_byte {m n : ℕ} (hm : m < 256) (hn : n < 64) (h224 : m = 224 → 32 ≤ n)
    (h237 : m = 237 → n < 32) (h240 : m = 240 → 16 ≤ n) (h244 : m = 244 → n < 16) :
    isSecond (byte m) (byte (128 + n)) = true := by
  simp only [isSecond, byte_val hm, byte_val (show 128 + n < 256 by omega), Bool.and_eq_true,
    decide_eq_true_eq]
  split_ifs <;> omega

theorem decode_encodeChar (c : Char) (rest : List Byte) :
    decode [] (encodeChar c ++ rest) = (decode [] rest).map fun p => (c :: p.1, p.2) := by
  have hrange : c.toNat < 55296 ∨ 57343 < c.toNat ∧ c.toNat < 1114112 := c.valid
  have hback {n : ℕ} (hn : n = c.toNat) : Progress.complete (Char.ofNat n) = .complete c := by
    rw [hn, Char.ofNat_toNat]
  have hlead {a : ℕ} (ha : 194 ≤ a ∧ a ≤ 244) : examine [byte a] = .unfinished := by
    rw [examine, byte_val (by omega), if_neg (by omega), if_pos ha]
  unfold encodeChar
  split
  · refine decode_complete ?_ rest
    rw [List.nil_append, examine, byte_val (by omega), if_pos ‹_›]
    exact hback rfl
  split
  · have hfirst : examine ([] ++ [byte (192 + c.toNat / 64)]) = .unfinished :=
      hlead (by omega)
    rw [List.cons_append, List.singleton_append, decode_unfinished hfirst]
    refine decode_complete ?_ rest
    have hsecond := isSecond_byte (m := 192 + c.toNat / 64) (n := c.toNat % 64) (by omega) (by omega)
      (by omega) (by omega) (by omega) (by omega)
    rw [List.nil_append, List.singleton_append, examine, byte_val (by omega), byte_val (by omega),
      if_pos ⟨by omega, by omega, hsecond⟩, if_pos (by omega)]
    exact hback (by omega)
  split
  · have hfirst : examine ([] ++ [byte (224 + c.toNat / 4096)]) = .unfinished :=
      hlead (by omega)
    have hsecond := isSecond_byte (m := 224 + c.toNat / 4096) (n := c.toNat / 64 % 64) (by omega)
      (by omega) (by omega) (by omega) (by omega) (by omega)
    have htwo : examine ([byte (224 + c.toNat / 4096)] ++ [byte (128 + c.toNat / 64 % 64)]) =
        .unfinished := by
      rw [List.singleton_append, examine, byte_val (by omega),
        if_pos ⟨by omega, by omega, hsecond⟩, if_neg (by omega)]
    rw [List.cons_append, List.cons_append, List.singleton_append, decode_unfinished hfirst,
      List.nil_append, decode_unfinished htwo]
    refine decode_complete ?_ rest
    rw [List.singleton_append, List.cons_append, List.singleton_append, examine,
      byte_val (by omega), byte_val (by omega), byte_val (by omega),
      if_pos ⟨by omega, by omega, hsecond, isTail_byte (by omega)⟩, if_pos (by omega)]
    exact hback (by omega)
  · have hfirst : examine ([] ++ [byte (240 + c.toNat / 262144)]) = .unfinished :=
      hlead (by omega)
    have hsecond := isSecond_byte (m := 240 + c.toNat / 262144) (n := c.toNat / 4096 % 64) (by omega)
      (by omega) (by omega) (by omega) (by omega) (by omega)
    have htwo : examine ([byte (240 + c.toNat / 262144)] ++ [byte (128 + c.toNat / 4096 % 64)]) =
        .unfinished := by
      rw [List.singleton_append, examine, byte_val (by omega),
        if_pos ⟨by omega, by omega, hsecond⟩, if_neg (by omega)]
    have hthird := isTail_byte (n := c.toNat / 64 % 64) (by omega)
    have hthree : examine ([byte (240 + c.toNat / 262144), byte (128 + c.toNat / 4096 % 64)] ++
        [byte (128 + c.toNat / 64 % 64)]) = .unfinished := by
      rw [List.cons_append, List.singleton_append, examine, byte_val (by omega),
        if_pos ⟨by omega, by omega, hsecond, hthird⟩, if_neg (by omega)]
    rw [List.cons_append, List.cons_append, List.cons_append, List.singleton_append,
      decode_unfinished hfirst, List.nil_append, decode_unfinished htwo, List.singleton_append,
      decode_unfinished hthree]
    refine decode_complete ?_ rest
    rw [List.cons_append, List.singleton_append, List.cons_append, List.cons_append,
      List.singleton_append, examine, byte_val (by omega), byte_val (by omega),
      byte_val (by omega), byte_val (by omega),
      if_pos ⟨by omega, by omega, hsecond, hthird, isTail_byte (by omega)⟩]
    exact hback (by omega)

theorem decode_encode (text : List Char) : decode [] (encode text) = some (text, []) := by
  induction text with
  | nil => rfl
  | cons c text ih =>
    rw [encode, List.flatMap_cons, decode_encodeChar]
    exact congrArg (Option.map _) ih

end Aseos.Utf8
