import Aseos.Persistence.Client
import Mathlib.Data.List.Nodup
import Mathlib.Data.List.Perm.Basic
import Mathlib.Tactic.Common

namespace Aseos.Persistence

theorem perm_cons_filter_of_find {l : List (ℕ × Call)} {id : ℕ} {entry : ℕ × Call}
    (hnodup : (l.map Prod.fst).Nodup)
    (hfind : l.find? (fun entry => entry.1 == id) = some entry) :
    l.Perm (entry :: l.filter (fun entry => entry.1 != id)) := by
  induction l with
  | nil => simp at hfind
  | cons head tail ih =>
    simp only [List.map_cons, List.nodup_cons] at hnodup
    by_cases hhead : head.1 = id
    · obtain rfl : head = entry := by simpa [List.find?_cons, hhead] using hfind
      have hrest : tail.filter (fun entry => entry.1 != id) = tail := by
        rw [List.filter_eq_self]
        intro other hother
        have hne : other.1 ≠ id := by
          rintro rfl
          exact hnodup.1 (hhead ▸ List.mem_map_of_mem hother)
        simpa using hne
      simp [hhead, hrest]
    · have htail : tail.find? (fun entry => entry.1 == id) = some entry := by
        simpa [List.find?_cons, hhead] using hfind
      have hperm := (ih hnodup.2 htail).cons head
      simpa [hhead] using hperm.trans (List.Perm.swap entry head _)

namespace Client

structure Valid (maxQueueDepth calls : ℕ) (c : Client) : Prop where
  depth : c.maxQueueDepth = maxQueueDepth
  bounded : c.pending.length ≤ maxQueueDepth
  posted_lt : ∀ entry ∈ c.posted, entry.1 < c.nextRequestId
  posted_nodup : (c.posted.map Prod.fst).Nodup
  pending_nodup : (c.pending.map Prod.fst).Nodup
  pending_posted : ∀ entry ∈ c.pending, entry ∈ c.posted
  replies : ∀ call id failure, (call, Settlement.reply id failure) ∈ c.settled →
    (id, call) ∈ c.posted
  partition : (c.waiting.map Call.number ++ c.pending.map (fun entry => entry.2.number) ++
    c.settled.map (fun entry => entry.1.number)).Perm (List.range calls)

variable {maxQueueDepth calls : ℕ} {c : Client}

theorem Valid.create (maxQueueDepth : ℕ) : Valid maxQueueDepth 0 (create maxQueueDepth) := by
  constructor <;> simp [Client.create]

theorem Valid.settled_nodup (h : Valid maxQueueDepth calls c) :
    (c.settled.map Prod.fst).Nodup := by
  have hnumbers : (c.settled.map (fun entry => entry.1.number)).Nodup :=
    (h.partition.nodup_iff.mpr List.nodup_range).of_append_right
  refine List.Nodup.of_map Call.number ?_
  simpa [List.map_map, Function.comp_def] using hnumbers

theorem Valid.setReady (h : Valid maxQueueDepth calls c) (ready : Ready) :
    Valid maxQueueDepth calls { c with ready := ready } :=
  ⟨h.depth, h.bounded, h.posted_lt, h.posted_nodup, h.pending_nodup, h.pending_posted,
    h.replies, h.partition⟩

theorem Valid.setClosed (h : Valid maxQueueDepth calls c) (closed : Bool) :
    Valid maxQueueDepth calls { c with closed := closed } :=
  ⟨h.depth, h.bounded, h.posted_lt, h.posted_nodup, h.pending_nodup, h.pending_posted,
    h.replies, h.partition⟩

theorem Valid.submit (h : Valid maxQueueDepth calls c) (kind : WorkerRequestKind) :
    Valid maxQueueDepth (calls + 1) { c with waiting := c.waiting ++ [⟨calls, kind⟩] } := by
  refine ⟨h.depth, h.bounded, h.posted_lt, h.posted_nodup, h.pending_nodup, h.pending_posted,
    h.replies, ?_⟩
  have hperm := h.partition.append_right [calls]
  rw [← List.range_succ] at hperm
  refine List.Perm.trans ?_ hperm
  simp only [List.map_append, List.map_cons, List.map_nil, List.append_assoc]
  refine List.Perm.append_left _ ?_
  exact List.perm_append_comm.trans (by simp)

theorem erase_numbers {waiting : List Call} {call : Call} (h : call ∈ waiting) :
    (waiting.map Call.number).Perm (call.number :: (waiting.erase call).map Call.number) := by
  simpa using (List.perm_cons_erase h).map Call.number

theorem Valid.refuse (h : Valid maxQueueDepth calls c) {call : Call} (hcall : call ∈ c.waiting)
    (code : PersistenceErrorCode) :
    Valid maxQueueDepth calls
      ({ c with waiting := c.waiting.erase call }.settle call (.error code)) := by
  refine ⟨h.depth, h.bounded, h.posted_lt, h.posted_nodup, h.pending_nodup, h.pending_posted,
    ?_, ?_⟩
  · intro other id failure hmem
    simp only [settle, List.mem_append, List.mem_singleton, Prod.mk.injEq, reduceCtorEq,
      and_false, or_false] at hmem
    exact h.replies other id failure hmem
  · refine List.Perm.trans ?_ h.partition
    simp only [settle, List.map_append, List.map_cons, List.map_nil]
    have hmove := (erase_numbers hcall).append_right
      (c.pending.map (fun entry => entry.2.number) ++ c.settled.map (fun entry => entry.1.number))
    rw [List.append_assoc (c.waiting.map Call.number)]
    refine List.Perm.trans ?_ hmove.symm
    rw [← List.append_assoc, ← List.append_assoc]
    exact List.perm_append_singleton _ _

theorem Valid.enqueue (h : Valid maxQueueDepth calls c) {call : Call} (hcall : call ∈ c.waiting)
    (hroom : c.pending.length < maxQueueDepth) :
    Valid maxQueueDepth calls ({ c with waiting := c.waiting.erase call }.enqueue call) := by
  have hfresh : ∀ entry ∈ c.posted, entry.1 ≠ c.nextRequestId :=
    fun entry hentry => Nat.ne_of_lt (h.posted_lt entry hentry)
  refine ⟨h.depth, ?_, ?_, ?_, ?_, ?_, ?_, ?_⟩
  · simpa [Client.enqueue] using Nat.succ_le_of_lt hroom
  · intro entry hentry
    simp only [Client.enqueue, List.mem_append, List.mem_singleton] at hentry ⊢
    rcases hentry with hentry | rfl
    · exact Nat.lt_succ_of_lt (h.posted_lt entry hentry)
    · exact Nat.lt_succ_self _
  · simp only [Client.enqueue, List.map_append, List.map_cons, List.map_nil]
    refine List.nodup_append.mpr ⟨h.posted_nodup, by simp, ?_⟩
    simpa using fun id call hentry => hfresh (id, call) hentry
  · simp only [Client.enqueue, List.map_append, List.map_cons, List.map_nil]
    refine List.nodup_append.mpr ⟨h.pending_nodup, by simp, ?_⟩
    simpa using fun id call hentry => hfresh (id, call) (h.pending_posted _ hentry)
  · intro entry hentry
    simp only [Client.enqueue, List.mem_append, List.mem_singleton] at hentry ⊢
    exact hentry.imp_left (h.pending_posted entry)
  · intro other id failure hmem
    exact List.mem_append_left _ (h.replies other id failure hmem)
  · refine List.Perm.trans ?_ h.partition
    simp only [Client.enqueue, List.map_append, List.map_cons, List.map_nil]
    refine List.Perm.append_right _ ?_
    have hmove := (erase_numbers hcall).append_right (c.pending.map (fun entry => entry.2.number))
    refine List.Perm.trans ?_ hmove.symm
    rw [← List.append_assoc]
    exact List.perm_append_singleton _ _

theorem Valid.request (h : Valid maxQueueDepth calls c) {call : Call}
    (hcall : call ∈ c.waiting) : Valid maxQueueDepth calls (c.request call).1 := by
  unfold Client.request
  simp only
  split
  · exact h.refuse hcall .closed
  · split
    · exact h.refuse hcall .queueFull
    · rename_i _ hroom
      exact h.enqueue hcall (by simpa [h.depth] using hroom)

theorem onReply_of_pending {id : ℕ} {entry : ℕ × Call}
    (hfind : c.pending.find? (fun entry => entry.1 == id) = some entry)
    (failure : Option PersistenceErrorCode) :
    c.onReply id failure =
      { c with
        pending := c.pending.filter (fun entry => entry.1 != id)
        settled := c.settled ++ [(entry.2, .reply id failure)] } := by
  simp [onReply, hfind, settle]

theorem onReply_of_unknown {id : ℕ}
    (hfind : c.pending.find? (fun entry => entry.1 == id) = none)
    (failure : Option PersistenceErrorCode) : c.onReply id failure = c := by
  simp [onReply, hfind]

theorem Valid.onReply (h : Valid maxQueueDepth calls c) (id : ℕ)
    (failure : Option PersistenceErrorCode) :
    Valid maxQueueDepth calls (c.onReply id failure) := by
  cases hfind : c.pending.find? (fun entry => entry.1 == id) with
  | none => rwa [onReply_of_unknown hfind]
  | some entry =>
    rw [onReply_of_pending hfind]
    have hid : entry.1 = id := by simpa using List.find?_some hfind
    have hperm := perm_cons_filter_of_find h.pending_nodup hfind
    refine ⟨h.depth, ?_, h.posted_lt, h.posted_nodup, ?_, ?_, ?_, ?_⟩
    · exact Nat.le_trans (List.length_filter_le _ _) h.bounded
    · exact h.pending_nodup.sublist (List.filter_sublist.map Prod.fst)
    · exact fun other hother => h.pending_posted other (List.mem_of_mem_filter hother)
    · intro call other failure' hmem
      rcases List.mem_append.mp hmem with hmem | hmem
      · exact h.replies call other failure' hmem
      · simp only [List.mem_singleton, Prod.mk.injEq, Settlement.reply.injEq] at hmem
        obtain ⟨rfl, rfl, rfl⟩ := hmem
        rw [← hid]
        exact h.pending_posted entry (List.mem_of_find?_eq_some hfind)
    · refine List.Perm.trans ?_ h.partition
      have hnumbers := hperm.map (fun entry => entry.2.number)
      simp only [List.map_cons] at hnumbers
      simp only [List.map_append, List.map_cons, List.map_nil, List.append_assoc]
      refine List.Perm.append_left _ ?_
      refine List.Perm.trans ?_ (hnumbers.append_right _).symm
      rw [← List.append_assoc]
      exact List.perm_append_singleton _ _

theorem Valid.failPending (h : Valid maxQueueDepth calls c) (code : PersistenceErrorCode) :
    Valid maxQueueDepth calls (c.failPending code) := by
  refine ⟨h.depth, Nat.zero_le _, h.posted_lt, h.posted_nodup, List.nodup_nil, ?_, ?_, ?_⟩
  · simp [Client.failPending]
  · intro call id failure hmem
    simp only [Client.failPending, List.mem_append, List.mem_map, Prod.mk.injEq, reduceCtorEq,
      and_false, exists_false, or_false] at hmem
    exact h.replies call id failure hmem
  · refine List.Perm.trans ?_ h.partition
    simp only [Client.failPending, List.map_append, List.map_map, Function.comp_def,
      List.map_nil, List.append_nil, List.append_assoc]
    exact List.Perm.append_left _ List.perm_append_comm

theorem Valid.rejectReady (h : Valid maxQueueDepth calls c) (code : PersistenceErrorCode) :
    Valid maxQueueDepth calls (c.rejectReady code) := by
  unfold Client.rejectReady
  split
  · exact h.setReady _
  · exact h

theorem Valid.onMessage (h : Valid maxQueueDepth calls c) (message : WorkerMessage) :
    Valid maxQueueDepth calls (c.onMessage message) := by
  cases message with
  | reply id failure => exact h.onReply id failure
  | ready failure =>
    simp only [Client.onMessage]
    split
    · exact h.setReady _
    · exact h.setReady _
    · exact h

theorem Valid.onExit (h : Valid maxQueueDepth calls c) (code : Int) :
    Valid maxQueueDepth calls (c.onExit code) := by
  unfold Client.onExit
  split
  · exact h
  · exact (h.rejectReady _).failPending _

theorem Valid.terminateForQualification (h : Valid maxQueueDepth calls c) :
    Valid maxQueueDepth calls c.terminateForQualification := by
  unfold Client.terminateForQualification
  split
  · exact h
  · exact (h.setClosed true).failPending _

@[simp] theorem pending_failPending (code : PersistenceErrorCode) :
    (c.failPending code).pending = [] := rfl

@[simp] theorem pending_rejectReady (code : PersistenceErrorCode) :
    (c.rejectReady code).pending = c.pending := by
  unfold Client.rejectReady
  split <;> rfl

theorem pending_onMessage (h : c.pending = []) (message : WorkerMessage) :
    (c.onMessage message).pending = [] := by
  cases message with
  | reply id failure =>
    have hfind : c.pending.find? (fun entry => entry.1 == id) = none := by simp [h]
    simp [Client.onMessage, onReply_of_unknown hfind, h]
  | ready failure =>
    simp only [Client.onMessage]
    split <;> exact h

theorem request_of_closed (h : c.closed = true) (call : Call) :
    c.request call =
      ({ c with waiting := c.waiting.erase call }.settle call (.error .closed), []) := by
  simp [Client.request, h]

theorem request_of_open (h : c.closed = false) (hpending : c.pending = [])
    (hdepth : 0 < c.maxQueueDepth) (call : Call) :
    (c.request call).1.pending = [(c.nextRequestId, call)] := by
  have hroom : ¬ c.maxQueueDepth = 0 := Nat.ne_of_gt hdepth
  simp [Client.request, h, hpending, hroom, Client.enqueue]

end Client

namespace Connection

variable {maxQueueDepth : ℕ} {s t : Connection} {e : Event}

def Invariant (maxQueueDepth : ℕ) (s : Connection) : Prop :=
  s.client.Valid maxQueueDepth s.calls

theorem Invariant.start (maxQueueDepth : ℕ) : Invariant maxQueueDepth (start maxQueueDepth) :=
  Client.Valid.create maxQueueDepth

theorem step_resume {call : Call} (h : Step s (.resume call) t) :
    call ∈ s.client.waiting ∧ t = { s with
      client := (s.client.request call).1
      inbox := s.inbox ++ (s.client.request call).2 } := by
  simp only [Step, step] at h
  split at h
  · rename_i hguard
    exact ⟨hguard.1, (Option.some.inj h).symm⟩
  · cases h

theorem step_deliver (h : Step s .deliver t) :
    ∃ message rest, s.outbox = message :: rest ∧
      t = { s with client := s.client.onMessage message, outbox := rest } := by
  simp only [Step, step] at h
  split at h
  · rename_i message rest houtbox
    exact ⟨message, rest, houtbox, (Option.some.inj h).symm⟩
  · cases h

theorem step_exitEvent {code : Int} (h : Step s (.exitEvent code) t) :
    s.exitProcessed = false ∧
      t = { s with client := s.client.onExit code, exitProcessed := true } := by
  simp only [Step, step] at h
  split at h
  · rename_i hguard
    exact ⟨hguard.2, (Option.some.inj h).symm⟩
  · cases h

theorem step_other (h : Step s e t) (hresume : ∀ call, e ≠ .resume call) (hdeliver : e ≠ .deliver)
    (hexit : ∀ code, e ≠ .exitEvent code) :
    t.exitProcessed = s.exitProcessed ∧
      ((∃ kind, t.calls = s.calls + 1 ∧
          t.client = { s.client with waiting := s.client.waiting ++ [⟨s.calls, kind⟩] }) ∨
        t.calls = s.calls ∧ (t.client = s.client ∨ t.client = { s.client with closed := true } ∨
          t.client = s.client.terminateForQualification ∨ t.client = s.client.onError)) := by
  cases e with
  | resume call => exact absurd rfl (hresume call)
  | deliver => exact absurd rfl hdeliver
  | exitEvent code => exact absurd rfl (hexit code)
  | submit kind =>
    simp only [Step, step] at h
    split at h
    · cases h
      exact ⟨rfl, .inl ⟨kind, rfl, rfl⟩⟩
    · cases h
  | finishClose call =>
    simp only [Step, step] at h
    split at h
    · cases h
      exact ⟨rfl, .inr ⟨rfl, .inr (.inl rfl)⟩⟩
    · cases h
  | terminate =>
    simp only [Step, step] at h
    split at h
    · cases h
      exact ⟨rfl, .inr ⟨rfl, .inr (.inr (.inl rfl))⟩⟩
    · cases h
  | workerError =>
    simp only [Step, step] at h
    split at h
    · cases h
    · cases h
      exact ⟨rfl, .inr ⟨rfl, .inr (.inr (.inr rfl))⟩⟩
  | workerReady failure | serve failure | workerExit =>
    simp only [Step, step] at h
    split at h <;> cases h
    exact ⟨rfl, .inr ⟨rfl, .inl rfl⟩⟩

theorem Invariant.step (hs : Step s e t) (h : Invariant maxQueueDepth s) :
    Invariant maxQueueDepth t := by
  have hother : (∀ call, e ≠ .resume call) → e ≠ .deliver → (∀ code, e ≠ .exitEvent code) →
      Invariant maxQueueDepth t := by
    intro hresume hdeliver hexit
    obtain ⟨-, ⟨kind, hcalls, hclient⟩ | ⟨hcalls, hclient⟩⟩ := step_other hs hresume hdeliver hexit
    · rw [Invariant, hcalls, hclient]
      exact Client.Valid.submit h kind
    · rw [Invariant, hcalls]
      rcases hclient with hclient | hclient | hclient | hclient <;> rw [hclient]
      · exact h
      · exact Client.Valid.setClosed h true
      · exact Client.Valid.terminateForQualification h
      · exact (Client.Valid.rejectReady h _).failPending _
  cases e with
  | resume call =>
    obtain ⟨hcall, rfl⟩ := step_resume hs
    exact Client.Valid.request h hcall
  | deliver =>
    obtain ⟨message, rest, -, rfl⟩ := step_deliver hs
    exact Client.Valid.onMessage h message
  | exitEvent code =>
    obtain ⟨-, rfl⟩ := step_exitEvent hs
    exact Client.Valid.onExit h code
  | _ => exact hother (by simp) (by simp) (by simp)

theorem Reachable.invariant (h : Reachable maxQueueDepth s) : Invariant maxQueueDepth s := by
  refine TransitionSystem.Reachable.invariant ?_ ?_ h
  · rintro _ rfl
    exact Invariant.start maxQueueDepth
  · exact fun _ _ _ hs => Invariant.step hs

theorem GuardedReachable.reachable (h : GuardedReachable maxQueueDepth s) :
    Reachable maxQueueDepth s := by
  obtain ⟨s₀, labels, h₀, hrun⟩ := h
  refine ⟨s₀, labels, h₀, ?_⟩
  clear h₀
  induction hrun with
  | nil => exact .nil _
  | snoc _ hlast ih => exact ih.snoc hlast.2

def Drained (s : Connection) : Prop := s.exitProcessed = true → s.client.pending = []

theorem Drained.step (hguard : Guarded s e) (hs : Step s e t) (h : Drained s) : Drained t := by
  have hother : (∀ call, e ≠ .resume call) → e ≠ .deliver → (∀ code, e ≠ .exitEvent code) →
      Drained t := by
    intro hresume hdeliver hexit hprocessed
    obtain ⟨hflag, hclient⟩ := step_other hs hresume hdeliver hexit
    have hpending := h (hflag ▸ hprocessed)
    rcases hclient with ⟨kind, -, hclient⟩ | ⟨-, hclient⟩
    · rw [hclient]
      exact hpending
    · rcases hclient with hclient | hclient | hclient | hclient <;> rw [hclient]
      · exact hpending
      · exact hpending
      · unfold Client.terminateForQualification
        split
        · exact hpending
        · rfl
      · rfl
  cases e with
  | resume call =>
    obtain ⟨-, rfl⟩ := step_resume hs
    intro hprocessed
    show (s.client.request call).1.pending = []
    rw [Client.request_of_closed (hguard hprocessed)]
    exact h hprocessed
  | deliver =>
    obtain ⟨message, rest, -, rfl⟩ := step_deliver hs
    exact fun hprocessed => Client.pending_onMessage (h hprocessed) message
  | exitEvent code =>
    obtain ⟨-, rfl⟩ := step_exitEvent hs
    intro _
    show (s.client.onExit code).pending = []
    unfold Client.onExit
    split
    · rename_i hearly
      exact hguard hearly.1 hearly.2
    · rfl
  | _ => exact hother (by simp) (by simp) (by simp)

theorem GuardedReachable.drained (h : GuardedReachable maxQueueDepth s) : Drained s := by
  refine TransitionSystem.Reachable.invariant ?_ ?_ h
  · rintro _ rfl hprocessed
    cases hprocessed
  · exact fun _ _ _ hs => Drained.step hs.1 hs.2

theorem not_drained_of_not_guarded (hdepth : 0 < maxQueueDepth) (h : Invariant maxQueueDepth s)
    (hdrained : Drained s) (hguard : ¬ Guarded s e) (hs : Step s e t) : ¬ Drained t := by
  cases e with
  | resume call =>
    simp only [Guarded, Classical.not_imp, Bool.not_eq_true] at hguard
    obtain ⟨-, rfl⟩ := step_resume hs
    intro hafter
    have hpending := hafter hguard.1
    rw [Client.request_of_open hguard.2 (hdrained hguard.1) (h.depth ▸ hdepth)] at hpending
    cases hpending
  | exitEvent code =>
    simp only [Guarded, Classical.not_imp] at hguard
    obtain ⟨hclosed, hcode, hpending⟩ := hguard
    obtain ⟨-, rfl⟩ := step_exitEvent hs
    intro hafter
    apply hpending
    simpa [Client.onExit, hclosed, hcode] using hafter rfl
  | _ => exact absurd trivial hguard

def EveryReplySettlesItsRequest (s : Connection) : Prop :=
  ∀ id failure rest t, s.outbox = .reply id failure :: rest → Step s .deliver t →
    (∀ call, (id, call) ∈ s.client.pending →
      t.client.settled = s.client.settled ++ [(call, .reply id failure)] ∧
      ∀ entry, entry ∈ t.client.pending ↔ entry ∈ s.client.pending ∧ entry.1 ≠ id) ∧
    ((∀ call, (id, call) ∉ s.client.pending) → t.client = s.client)

theorem Invariant.reply_settles (h : Invariant maxQueueDepth s) :
    EveryReplySettlesItsRequest s := by
  intro id failure rest t houtbox hs
  obtain ⟨message, rest', houtbox', rfl⟩ := step_deliver hs
  obtain ⟨rfl, rfl⟩ : message = .reply id failure ∧ rest' = rest := by
    rw [houtbox'] at houtbox
    exact List.cons.inj houtbox
  refine ⟨?_, ?_⟩
  · intro call hmem
    cases hfind : s.client.pending.find? (fun entry => entry.1 == id) with
    | none => simpa using List.find?_eq_none.mp hfind (id, call) hmem
    | some entry =>
      have hentry : entry = (id, call) := by
        refine List.inj_on_of_nodup_map h.pending_nodup (List.mem_of_find?_eq_some hfind) hmem ?_
        simpa using List.find?_some hfind
      subst hentry
      simp only [Client.onMessage, Client.onReply_of_pending hfind]
      exact ⟨trivial, fun entry => by simp [List.mem_filter]⟩
  · intro hnone
    have hfind : s.client.pending.find? (fun entry => entry.1 == id) = none := by
      rw [List.find?_eq_none]
      rintro ⟨other, call⟩ hmem
      have hne : other ≠ id := by
        rintro rfl
        exact hnone call hmem
      simpa using hne
    exact Client.onReply_of_unknown hfind failure

theorem outstanding_rejected {code : Int} (hguard : Guarded s (.exitEvent code))
    (hs : Step s (.exitEvent code) t) :
    ∀ entry ∈ s.client.pending, (entry.2, .error .workerExited) ∈ t.client.settled := by
  obtain ⟨-, rfl⟩ := step_exitEvent hs
  intro entry hentry
  have hlate : ¬ (s.client.closed = true ∧ code = 0) := by
    rintro ⟨hclosed, hcode⟩
    simp [hguard hclosed hcode] at hentry
  simp only [Client.onExit, hlate, if_false]
  exact List.mem_append_right _ (List.mem_map.mpr ⟨entry, by simpa using hentry, rfl⟩)

theorem late_request_rejected {call : Call} (hguard : Guarded s (.resume call))
    (hs : Step s (.resume call) t) (hexit : s.exitProcessed = true) :
    (call, .error .closed) ∈ t.client.settled ∧ t.client.posted = s.client.posted := by
  obtain ⟨-, rfl⟩ := step_resume hs
  simp [Client.request_of_closed (hguard hexit), Client.settle]

theorem pending_requests_settled (hdepth : 0 < maxQueueDepth) :
    (∀ s, Reachable maxQueueDepth s →
      s.client.pending.length ≤ maxQueueDepth ∧ (s.client.settled.map Prod.fst).Nodup ∧
      (∀ call id failure, (call, .reply id failure) ∈ s.client.settled →
        (id, call) ∈ s.client.posted) ∧ EveryReplySettlesItsRequest s) ∧
    (∀ s, GuardedReachable maxQueueDepth s → Drained s ∧
      (∀ code t, Guarded s (.exitEvent code) → Step s (.exitEvent code) t →
        ∀ entry ∈ s.client.pending, (entry.2, .error .workerExited) ∈ t.client.settled) ∧
      ∀ call t, Guarded s (.resume call) → Step s (.resume call) t → s.exitProcessed = true →
        (call, .error .closed) ∈ t.client.settled ∧ t.client.posted = s.client.posted) ∧
    ∀ s e t, GuardedReachable maxQueueDepth s → Step s e t → (Drained t ↔ Guarded s e) := by
  refine ⟨?_, ?_, ?_⟩
  · intro s h
    have hinv := h.invariant
    exact ⟨hinv.bounded, hinv.settled_nodup, hinv.replies, hinv.reply_settles⟩
  · intro s h
    exact ⟨h.drained, fun _ _ => outstanding_rejected, fun _ _ => late_request_rejected⟩
  · intro s e t h hs
    refine ⟨?_, fun hguard => h.drained.step hguard hs⟩
    intro hdrained
    by_contra hguard
    exact not_drained_of_not_guarded hdepth h.reachable.invariant h.drained hguard hs hdrained

theorem pending_at_crash : ∃ s t, GuardedReachable 128 s ∧
    s.client.pending = [(1, ⟨0, .health⟩)] ∧ Step s (.exitEvent 1) t ∧ t.exitProcessed = true := by
  have hnext {s t : Connection} (e : Event) (h : GuardedReachable 128 s) (hguard : Guarded s e)
      (hs : s.step e = some t) : GuardedReachable 128 t := h.tail ⟨hguard, hs⟩
  have hstart : GuardedReachable 128 (start 128) := .refl rfl
  have hopen := hnext .deliver (hnext (.workerReady none) hstart trivial rfl) trivial rfl
  have hposted := hnext (.resume ⟨0, .health⟩) (hnext (.submit .health) hopen trivial rfl)
    (fun hexit => by cases hexit) rfl
  exact ⟨_, _, hnext .workerExit hposted trivial rfl, rfl, rfl, rfl⟩

theorem pending_requests_settled_default : ∃ s t, GuardedReachable 128 s ∧
    s.client.pending = [(1, ⟨0, .health⟩)] ∧ Step s (.exitEvent 1) t ∧
    (⟨0, .health⟩, .error .workerExited) ∈ t.client.settled ∧ t.client.pending = [] := by
  obtain ⟨s, t, hreach, hpending, hexit, hprocessed⟩ := pending_at_crash
  have hguard : Guarded s (.exitEvent 1) := by simp [Guarded]
  have hsettled := (pending_requests_settled (by decide : 0 < 128)).2.1
  have hrejected := (hsettled s hreach).2.1 1 t hguard hexit (1, ⟨0, .health⟩)
    (hpending ▸ List.mem_singleton_self _)
  exact ⟨s, t, hreach, hpending, hexit, hrejected,
    (hsettled t (hreach.tail ⟨hguard, hexit⟩)).1 hprocessed⟩

def requestAfterCrash : List Event :=
  [.workerReady none, .deliver, .workerExit, .exitEvent 1, .submit .health, .resume ⟨0, .health⟩]

def requestBehindClose : List Event :=
  [.workerReady none, .deliver, .submit .close, .submit .recover, .resume ⟨0, .close⟩,
    .resume ⟨1, .recover⟩, .serve none, .deliver, .finishClose ⟨0, .close⟩, .workerExit,
    .exitEvent 0]

theorem pending_requests_left_hanging :
    (∃ s, TransitionSystem.Run Step (start 128) requestAfterCrash s ∧ ¬ Drained s) ∧
    ∃ s, TransitionSystem.Run Step (start 128) requestBehindClose s ∧ ¬ Drained s := by
  refine ⟨⟨_, TransitionSystem.run_of_replay rfl, ?_⟩, _, TransitionSystem.run_of_replay rfl, ?_⟩
  · intro h
    cases h rfl
  · intro h
    cases h rfl

end Connection

end Aseos.Persistence
