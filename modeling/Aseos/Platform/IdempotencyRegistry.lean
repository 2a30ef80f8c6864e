import Aseos.Js.Number
import Aseos.Js.Text
import Aseos.Library.RecentLog

namespace Aseos.Idempotency

open RecentLog

inductive IdempotencyLookup where
  | miss
  | replay (resultIdentity : JsString)
  | conflict
  deriving DecidableEq

structure IdempotencyEntry where
  payloadHash : JsString
  resultIdentity : JsString
  expiresAt : ℤ
  deriving DecidableEq

-- What the constructor accepts: positive safe integers.
structure RegistryLimits where
  capacity : ℕ
  ttlMs : ℕ
  capacity_pos : 0 < capacity
  ttlMs_pos : 0 < ttlMs

def createLimits (capacity ttlMs : JsNumber) : Option RegistryLimits :=
  match capacity, ttlMs with
  | .finite c, .finite t =>
      if h : (c.isSafeInteger = true ∧ 1 ≤ c.value.num) ∧ t.isSafeInteger = true ∧
          1 ≤ t.value.num then
        some ⟨c.value.num.toNat, t.value.num.toNat, by omega, by omega⟩
      else none
  | _, _ => none

-- A `Map`: the entries in the order of their insertion, one a key.
abbrev Entries := List (JsString × IdempotencyEntry)

section Registry

variable (limits : RegistryLimits)

def prune (now : ℤ) (entries : Entries) : Entries :=
  entries.filter fun e => ¬ e.2.expiresAt ≤ now

def lookup (key payloadHash : JsString) (now : ℤ) (entries : Entries) :
    IdempotencyLookup × Entries :=
  let entries := prune now entries
  match LastWriter.lookup Prod.fst entries key with
  | none => (.miss, entries)
  | some (_, entry) =>
      if entry.payloadHash ≠ payloadHash then (.conflict, entries)
      else (.replay entry.resultIdentity, entries)

-- The loop that deletes the oldest entries.
def evict (capacity : ℕ) : Entries → Entries
  | [] => []
  | e :: entries =>
      if capacity ≤ (e :: entries).length then evict capacity entries else e :: entries

-- `false` for the exception IDEMPOTENCY_PAYLOAD_CONFLICT.
def record (key payloadHash resultIdentity : JsString) (now : ℤ) (entries : Entries) :
    Bool × Entries :=
  match lookup key payloadHash now (prune now entries) with
  | (.conflict, entries) => (false, entries)
  | (.replay _, entries) => (true, entries)
  | (.miss, entries) =>
      (true, LastWriter.upsert Prod.fst (evict limits.capacity entries)
        (key, ⟨payloadHash, resultIdentity, now + limits.ttlMs⟩))

inductive Call where
  | size
  | lookup (key payloadHash : JsString)
  | record (key payloadHash resultIdentity : JsString)

inductive Answer where
  | size (n : ℕ)
  | found (lookup : IdempotencyLookup)
  | recorded (accepted : Bool)
  deriving DecidableEq

def call (now : ℤ) (entries : Entries) : Call → Answer × Entries
  | .size => (.size (prune now entries).length, prune now entries)
  | .lookup key payloadHash => (lookup key payloadHash now entries).map .found id
  | .record key payloadHash resultIdentity =>
      (record limits key payloadHash resultIdentity now entries).map .recorded id

def run (entries : Entries) : List (ℤ × Call) → List Answer × Entries
  | [] => ([], entries)
  | (now, c) :: calls =>
      let (answer, entries) := call limits now entries c
      (run entries calls).map (answer :: ·) id

end Registry

section Log

variable (limits : RegistryLimits)

-- What the registry is for: the insertions so far, each a payload hash and a result identity,
-- with nothing ever removed.
abbrev Log := List (Insertion JsString (JsString × JsString))

def findIn (now : ℤ) (log : Log) (key : JsString) :
    Option (Insertion JsString (JsString × JsString)) :=
  find limits.capacity limits.ttlMs now log key

def lookupIn (key payloadHash : JsString) (now : ℤ) (log : Log) : IdempotencyLookup :=
  match findIn limits now log key with
  | none => .miss
  | some i => if i.value.1 = payloadHash then .replay i.value.2 else .conflict

def callIn (now : ℤ) (log : Log) : Call → Answer × Log
  | .size =>
      (.size ((log.map (·.key)).dedup.filter fun key => (findIn limits now log key).isSome).length,
        log)
  | .lookup key payloadHash => (.found (lookupIn limits key payloadHash now log), log)
  | .record key payloadHash resultIdentity =>
      match lookupIn limits key payloadHash now log with
      | .conflict => (.recorded false, log)
      | .replay _ => (.recorded true, log)
      | .miss => (.recorded true, log ++ [⟨key, (payloadHash, resultIdentity), now⟩])

def runIn (log : Log) : List (ℤ × Call) → List Answer × Log
  | [] => ([], log)
  | (now, c) :: calls =>
      let (answer, log) := callIn limits now log c
      (runIn log calls).map (answer :: ·) id

end Log

section Refinement

variable {limits : RegistryLimits}

variable (limits) in
def entryOf (i : Insertion JsString (JsString × JsString)) : JsString × IdempotencyEntry :=
  (i.key, ⟨i.value.1, i.value.2, i.time + limits.ttlMs⟩)

structure Holds (limits : RegistryLimits) (now : ℤ) (entries : Entries) (log : Log) : Prop where
  entries : entries = (held limits.capacity limits.ttlMs now log).map (entryOf limits)
  grown : Grown limits.capacity limits.ttlMs log
  past : ∀ i ∈ log, i.time ≤ now

variable {now later : ℤ} {entries : Entries} {log : Log} {key : JsString}

theorem Holds.pruned (h : Holds limits now entries log) (hle : now ≤ later) :
    Holds limits later (prune later entries) log := by
  refine ⟨?_, h.grown, fun i hi => (h.past i hi).trans hle⟩
  rw [h.entries, prune, List.filter_map, ← held_held hle]
  congr 1
  refine List.filter_congr fun i _ => ?_
  rw [Function.comp_apply, decide_eq_decide]
  exact not_le

theorem prune_prune (now : ℤ) (entries : Entries) :
    prune now (prune now entries) = prune now entries := by
  simp [prune, List.filter_filter]

theorem Holds.get (h : Holds limits now entries log) (key : JsString) :
    LastWriter.lookup Prod.fst entries key =
      (findIn limits now log key).map (entryOf limits) := by
  rw [findIn, ← h.grown.lookup_held limits.capacity_pos h.past, LastWriter.lookup,
    LastWriter.lookup, h.entries, List.find?_map]
  rfl

theorem Holds.lookup_eq (h : Holds limits now entries log) (payloadHash : JsString)
    (hpruned : prune now entries = entries) :
    lookup key payloadHash now entries = (lookupIn limits key payloadHash now log, entries) := by
  rw [lookup, lookupIn, hpruned, h.get]
  cases findIn limits now log key with
  | none => rfl
  | some i =>
    simp only [Option.map_some, entryOf]
    by_cases hhash : i.value.1 = payloadHash
    · rw [if_neg (not_not.mpr hhash), if_pos hhash]
    · rw [if_pos hhash, if_neg hhash]

theorem evict_eq_drop (entries : Entries) :
    evict limits.capacity entries = entries.drop (entries.length + 1 - limits.capacity) := by
  induction entries with
  | nil => simp [evict]
  | cons e entries ih =>
    rw [evict, List.length_cons]
    split
    · rename_i hfull
      rw [ih, show entries.length + 1 + 1 - limits.capacity =
        entries.length + 1 - limits.capacity + 1 by omega, List.drop_succ_cons]
    · rename_i hroom
      rw [Nat.sub_eq_zero_of_le (by omega), List.drop_zero]

theorem Holds.insert (h : Holds limits now entries log) (payloadHash resultIdentity : JsString)
    (hmiss : findIn limits now log key = none) :
    Holds limits now
      (LastWriter.upsert Prod.fst (evict limits.capacity entries)
        (key, ⟨payloadHash, resultIdentity, now + limits.ttlMs⟩))
      (log ++ [⟨key, (payloadHash, resultIdentity), now⟩]) := by
  have hnew : key ∉ entries.map Prod.fst := by
    intro hmem
    obtain ⟨e, he, hkey⟩ := List.mem_map.mp hmem
    have hnone := h.get key
    rw [hmiss, Option.map_none] at hnone
    exact List.find?_eq_none.mp hnone e he (decide_eq_true hkey)
  have hkeys : (held limits.capacity limits.ttlMs now log).map (·.key) =
      entries.map Prod.fst := by
    rw [h.entries, List.map_map]
    rfl
  have hgrown : Grown limits.capacity limits.ttlMs
      (log ++ [⟨key, (payloadHash, resultIdentity), now⟩]) := by
    refine h.grown.snoc h.past ?_
    rw [hkeys]
    exact hnew
  refine ⟨?_, hgrown, fun i hi => ?_⟩
  · have hevicted : evict limits.capacity entries =
        entries.drop (entries.length + 1 - limits.capacity) :=
      evict_eq_drop entries
    have hupsert : (evict limits.capacity entries).any (fun e => e.1 = key) = false := by
      rw [hevicted, List.any_eq_false]
      intro e he hkey
      refine hnew (List.mem_map.mpr ⟨e, List.mem_of_mem_drop he, of_decide_eq_true hkey⟩)
    have hheld := h.grown.held_snoc limits.capacity_pos (by exact_mod_cast limits.ttlMs_pos)
      ⟨key, (payloadHash, resultIdentity), now⟩
    rw [hheld, List.map_append, List.map_drop, ← h.entries, LastWriter.upsert, if_neg]
    · rw [hevicted, h.entries, List.length_map]
      rfl
    · rw [hupsert]
      exact Bool.false_ne_true
  · obtain hi | hi := List.mem_append.mp hi
    · exact h.past i hi
    · exact (congrArg Insertion.time (List.mem_singleton.mp hi)).le

theorem Holds.length_le (h : Holds limits now entries log) :
    entries.length ≤ limits.capacity := by
  rw [h.entries, List.length_map]
  exact length_held now log

theorem Holds.size (h : Holds limits now entries log) :
    ((log.map (·.key)).dedup.filter fun key => (findIn limits now log key).isSome).length =
      entries.length := by
  have hkeys : (held limits.capacity limits.ttlMs now log).map (·.key) =
      entries.map Prod.fst := by
    rw [h.entries, List.map_map]
    rfl
  have hperm : ((log.map (·.key)).dedup.filter fun key =>
      (findIn limits now log key).isSome).Perm (entries.map Prod.fst) := by
    refine (List.perm_ext_iff_of_nodup ((List.nodup_dedup _).filter _) ?_).mpr fun key => ?_
    · rw [← hkeys]
      exact h.grown.nodup_held limits.capacity_pos h.past
    · have hfound : (findIn limits now log key).isSome = true ↔ key ∈ entries.map Prod.fst := by
        have hget := congrArg Option.isSome (h.get key)
        rw [Option.isSome_map] at hget
        rw [← hget, LastWriter.lookup, List.find?_isSome, List.mem_map]
        simp
      rw [List.mem_filter, List.mem_dedup, hfound, and_iff_right_iff_imp, ← hkeys]
      intro hmem
      exact (((List.filter_sublist).trans (List.drop_sublist _ _)).map _).subset hmem
  rw [hperm.length_eq, List.length_map]

theorem Holds.call (h : Holds limits now entries log) (hle : now ≤ later) (c : Call) :
    (call limits later entries c).1 = (callIn limits later log c).1 ∧
      Holds limits later (call limits later entries c).2 (callIn limits later log c).2 := by
  have hpruned := h.pruned hle
  have hlookup (key payloadHash : JsString) :
      lookup key payloadHash later entries =
        (lookupIn limits key payloadHash later log, prune later entries) := by
    rw [← hpruned.lookup_eq payloadHash (prune_prune later entries), lookup, lookup,
      prune_prune]
  cases c with
  | size => exact ⟨congrArg Answer.size hpruned.size.symm, hpruned⟩
  | lookup key payloadHash =>
    rw [Idempotency.call, hlookup]
    exact ⟨rfl, hpruned⟩
  | record key payloadHash resultIdentity =>
    rw [Idempotency.call, callIn, record,
      hpruned.lookup_eq payloadHash (prune_prune later entries)]
    cases hanswer : lookupIn limits key payloadHash later log with
    | miss =>
      refine ⟨rfl, hpruned.insert payloadHash resultIdentity ?_⟩
      rw [lookupIn] at hanswer
      split at hanswer
      · assumption
      · split at hanswer <;> cases hanswer
    | replay identity => exact ⟨rfl, hpruned⟩
    | conflict => exact ⟨rfl, hpruned⟩

theorem Holds.run {calls : List (ℤ × Call)} (h : Holds limits now entries log)
    (hclock : (now :: calls.map Prod.fst).Pairwise (· ≤ ·)) :
    (run limits entries calls).1 = (runIn limits log calls).1 ∧
      ∃ last, Holds limits last (run limits entries calls).2 (runIn limits log calls).2 := by
  induction calls generalizing now entries log with
  | nil => exact ⟨rfl, now, h⟩
  | cons c calls ih =>
    obtain ⟨reading, c⟩ := c
    rw [List.map_cons, List.pairwise_cons] at hclock
    obtain ⟨hanswer, hholds⟩ := h.call (hclock.1 reading List.mem_cons_self) c
    obtain ⟨hanswers, last, hlast⟩ := ih hholds hclock.2
    refine ⟨?_, last, hlast⟩
    rw [Idempotency.run, runIn]
    exact congrArg₂ List.cons hanswer hanswers

theorem registry_refines_log (limits : RegistryLimits) (calls : List (ℤ × Call))
    (hclock : (calls.map Prod.fst).Pairwise (· ≤ ·)) :
    (run limits [] calls).1 = (runIn limits [] calls).1 ∧
      (run limits [] calls).2.length ≤ limits.capacity := by
  cases calls with
  | nil => exact ⟨rfl, Nat.zero_le _⟩
  | cons c calls =>
    have hstart : Holds limits c.1 [] [] :=
      ⟨by simp [held, recent], .nil, fun _ hi => absurd hi List.not_mem_nil⟩
    have hreadings : (c.1 :: (c :: calls).map Prod.fst).Pairwise (· ≤ ·) := by
      refine List.pairwise_cons.mpr ⟨fun t ht => ?_, hclock⟩
      obtain rfl | ht := List.mem_cons.mp ht
      · exact le_rfl
      · exact (List.pairwise_cons.mp hclock).1 t ht
    obtain ⟨hanswers, last, hlast⟩ := hstart.run hreadings
    exact ⟨hanswers, hlast.length_le⟩

def sampleCalls : List (ℤ × Call) :=
  [(1000, .record (js "key-1") (js "hash-a") (js "result-a")),
    (1001, .lookup (js "key-1") (js "hash-b")),
    (1001, .record (js "key-2") (js "hash-b") (js "result-b")),
    (1002, .record (js "key-3") (js "hash-c") (js "result-c")),
    (1003, .lookup (js "key-1") (js "hash-a")), (1003, .lookup (js "key-3") (js "hash-c")),
    (1102, .size)]

theorem sample_answers :
    (run ⟨2, 100, by decide, by decide⟩ [] sampleCalls).1 =
      [.recorded true, .found .conflict, .recorded true, .recorded true, .found .miss,
        .found (.replay (js "result-c")), .size 0] := by
  rw [(registry_refines_log ⟨2, 100, by decide, by decide⟩ sampleCalls (by decide)).1]
  decide

end Refinement

end Aseos.Idempotency
