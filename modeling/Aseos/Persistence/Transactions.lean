import Aseos.Persistence.TransactionFlags

namespace Aseos.Persistence

open Execution

def Session.calm (s : Session) : Session := { s with faults := .none }

def Unaffected {α : Type} (x : Sql α) : Prop :=
  ∀ s a t, x s = (.ok a, t) → x s.calm = (.ok a, t.calm)

section Unaffected

variable {α β : Type} {kept : Tables → β}

theorem Sql.guarded_eq_ok {fault : Option Fault} {run : Sql α} {s t : Session} {a : α} :
    Sql.guarded fault run s = (.ok a, t) ↔
      s.connection.opened = true ∧ fault = none ∧ run s = (.ok a, t) := by
  cases hopen : s.connection.opened with
  | false => simp [Sql.guarded_closed hopen]
  | true =>
    rw [Sql.guarded_open hopen]
    cases fault <;> simp

theorem Sql.apply_unaffected (run : Tables → Except Failure (α × Tables)) :
    Unaffected (Sql.apply run) := by
  intro s a t h
  have hcalm : s.calm.connection = s.connection := rfl
  unfold Sql.apply at h ⊢
  rw [hcalm]
  split at h
  · rename_i hrun
    obtain ⟨hb, rfl⟩ := Prod.mk.inj h
    obtain rfl := Except.ok.inj hb
    rfl
  · cases h

theorem Sql.statement_unaffected (run : Tables → Except Failure (α × Tables)) :
    Unaffected (Sql.statement run) := by
  intro s a t h
  obtain ⟨hopen, -, hok⟩ := Sql.guarded_eq_ok.mp h
  exact Sql.guarded_eq_ok.mpr ⟨hopen, rfl, Sql.apply_unaffected run s.advance _ _ hok⟩

theorem Statements.unaffected {x : Sql α} (h : Statements kept x) : Unaffected x := by
  induction h with
  | pure a =>
    intro s b t h
    obtain ⟨hb, rfl⟩ := Prod.mk.inj h
    exact Prod.ext hb rfl
  | lift x =>
    intro s a t h
    obtain ⟨hx, rfl⟩ := Prod.mk.inj h
    exact Prod.ext hx rfl
  | throw e =>
    intro s a t h
    cases h
  | statement => exact Sql.statement_unaffected _
  | bind _ _ ihx ihf =>
    intro s b u h
    obtain ⟨a, t, ha, hb⟩ := bind_eq_ok.mp h
    exact bind_eq_ok.mpr ⟨a, t.calm, ihx _ _ _ ha, ihf a _ _ _ hb⟩

def working (c : Database) (tables : Tables) : Session :=
  ⟨{ c with transaction := some tables }, .none⟩

theorem working_inj {c : Database} {tables tables' : Tables}
    (h : Persistence.working c tables = Persistence.working c tables') : tables = tables' :=
  Option.some.inj (congrArg (fun s => s.connection.transaction) h)

theorem Statements.working {x : Sql α} (hx : Statements kept x) {c : Database} {tables : Tables}
    {a : α} {s : Session} (h : x (working c tables) = (.ok a, s)) :
    ∃ tables', s = working c tables' := by
  have hstart : Inside c .none (Persistence.working c tables) := ⟨tables, at_start _ _⟩
  obtain ⟨tables', hat⟩ := (hx.contained c .none).ok hstart h
  refine ⟨tables', ?_⟩
  have hnone : s.faults.statements = [] :=
    List.eq_nil_iff_forall_not_mem.mpr fun fault hfault => nomatch hat.statements fault hfault
  have hfaults : s.faults = .none := by
    have hrest : s.faults.rest = Faults.none := hat.rest
    rw [← hrest, Faults.rest, ← hnone]
  exact congrArg₂ Session.mk hat.connection hfaults

theorem Statements.keeps {x : Sql α} (hx : Statements kept x) {c : Database}
    {tables tables' : Tables} {a : α} (h : x (Persistence.working c tables) = (.ok a, Persistence.working c tables')) :
    kept tables' = kept tables := by
  induction hx generalizing tables tables' with
  | pure b => rw [(working_inj (Prod.mk.inj h).2)]
  | lift x => rw [(working_inj (Prod.mk.inj h).2)]
  | throw e => cases h
  | statement hrun =>
    obtain ⟨-, -, happly⟩ := Sql.guarded_eq_ok.mp h
    unfold Sql.apply at happly
    split at happly
    · rename_i hok
      have htables := working_inj (Prod.mk.inj happly).2
      rw [← htables]
      exact hrun _ _ _ hok
    · cases happly
  | bind hx hf ihx ihf =>
    obtain ⟨b, s, hfirst, hrest⟩ := bind_eq_ok.mp h
    obtain ⟨between, rfl⟩ := hx.working hfirst
    exact (ihf b hrest).trans (ihx hfirst)

theorem Sql.guarded_internal {fault : Option Fault} {run : Sql α} {s t : Session}
    {code : PersistenceErrorCode} {message : String}
    (h : Sql.guarded fault run s = (.error (.internal code message), t)) :
    Failure.internal code message = Sql.unavailable ∧ s.connection.opened = false ∨
      s.connection.opened = true ∧ fault = none ∧ run s = (.error (.internal code message), t) := by
  cases hopen : s.connection.opened with
  | false =>
    rw [Sql.guarded_closed hopen] at h
    exact .inl ⟨(Except.error.inj (Prod.mk.inj h).1).symm, rfl⟩
  | true =>
    rw [Sql.guarded_open hopen] at h
    cases fault with
    | some fault => cases h
    | none => exact .inr ⟨rfl, rfl, h⟩

theorem Statements.internal {x : Sql α} (hx : Statements kept x) {code : PersistenceErrorCode}
    {message : String} {s t : Session} (h : x s = (.error (.internal code message), t)) :
    ∃ t', x s.calm = (.error (.internal code message), t') := by
  induction hx generalizing s t with
  | pure a => cases h
  | lift x =>
    obtain ⟨hx, rfl⟩ := Prod.mk.inj h
    exact ⟨s.calm, Prod.ext hx rfl⟩
  | throw e =>
    obtain rfl := Except.error.inj (Prod.mk.inj h).1
    exact ⟨s.calm, rfl⟩
  | @statement _ run _ =>
    obtain ⟨hunavailable, hclosed⟩ | ⟨hopen, -, happly⟩ := Sql.guarded_internal h
    · rw [hunavailable]
      exact ⟨_, Sql.guarded_closed (s := s.calm.advance) hclosed⟩
    · refine ⟨s.calm.advance, ?_⟩
      rw [Sql.statement, Sql.guarded_open (s := s.calm.advance) hopen]
      unfold Sql.apply at happly
      split at happly
      · cases happly
      · rename_i hrun
        obtain rfl := Except.error.inj (Prod.mk.inj happly).1
        exact Sql.apply_error (s := s.calm.advance) hrun
  | bind hx hf ihx ihf =>
    obtain hfirst | ⟨a, u, hfirst, hrest⟩ := bind_eq_error.mp h
    · obtain ⟨t', hcalm⟩ := ihx hfirst
      exact ⟨t', bind_of_error hcalm⟩
    · obtain ⟨t', hcalm⟩ := ihf a hrest
      exact ⟨t', (bind_of_ok (hx.unaffected _ _ _ hfirst)).trans hcalm⟩

end Unaffected

section Evaluation

variable {α : Type} {c : Database} {tables : Tables}

theorem query_working (hopen : c.opened = true) (run : Tables → α) :
    Sql.query run (working c tables) = (.ok (run tables), working c tables) := by
  rw [Sql.query, Sql.statement, Sql.guarded_open hopen]
  rfl

theorem insert_working (hopen : c.opened = true) {run : Tables → Except Failure Tables}
    {tables' : Tables} (h : run tables = .ok tables') :
    Sql.insert run (working c tables) = (.ok (), working c tables') := by
  rw [Sql.insert, Sql.statement, Sql.guarded_open hopen]
  exact Sql.apply_ok (s := working c tables) (by
    change (run tables).map ((), ·) = .ok ((), tables')
    rw [h]
    rfl)

theorem insert_refused (hopen : c.opened = true) {run : Tables → Except Failure Tables}
    {e : Failure} (h : run tables = .error e) :
    Sql.insert run (working c tables) = (.error e, working c tables) := by
  rw [Sql.insert, Sql.statement, Sql.guarded_open hopen]
  exact Sql.apply_error (s := working c tables) (by
    change (run tables).map ((), ·) = .error e
    rw [h]
    rfl)

end Evaluation

section Transactions

variable {α : Type} {c : Database} {faults : Faults}

structure Database.Free (c : Database) : Prop where
  opened : c.opened = true
  transaction : c.transaction = none
  unlocked : c.lockedElsewhere = false

theorem db_eq_ok {s t : Session} :
    Sql.db s = (.ok (), t) ↔ s.connection.opened = true ∧ t = s := by
  cases hopen : s.connection.opened with
  | true => simp [Sql.db_open hopen, eq_comm]
  | false => simp [Sql.db_closed hopen]

theorem begin_eq_ok {s t : Session} :
    Sql.beginImmediate s = (.ok (), t) ↔
      s.connection.Free ∧ s.faults.beginImmediate = none ∧
        t = s.inTransaction (some s.connection.committed) := by
  unfold Sql.beginImmediate
  rw [Sql.guarded_eq_ok]
  unfold Sql.enter
  constructor
  · rintro ⟨hopen, hfault, h⟩
    split at h
    · cases h
    rename_i hnone
    split at h
    · cases h
    rename_i hfree
    refine ⟨⟨hopen, ?_, by simpa using hfree⟩, hfault, (Prod.mk.inj h).2.symm⟩
    rwa [Option.not_isSome_iff_eq_none] at hnone
  · rintro ⟨⟨hopen, hnone, hfree⟩, hfault, rfl⟩
    refine ⟨hopen, hfault, ?_⟩
    rw [hnone, hfree, if_neg (by simp), if_neg (by simp)]

theorem commit_eq_ok {s t : Session} :
    Sql.commit s = (.ok (), t) ↔
      s.connection.opened = true ∧ s.faults.commit = none ∧
        ∃ tables, s.connection.transaction = some tables ∧
          t = ⟨{ s.connection with committed := tables, transaction := none }, s.faults⟩ := by
  unfold Sql.commit
  rw [Sql.guarded_eq_ok]
  unfold Sql.publish
  refine and_congr_right fun _ => and_congr_right fun _ => ?_
  cases s.connection.transaction with
  | some tables =>
    constructor
    · intro h
      exact ⟨tables, rfl, (Prod.mk.inj h).2.symm⟩
    · rintro ⟨_, htables, rfl⟩
      obtain rfl := Option.some.inj htables
      rfl
  | none =>
    refine ⟨nofun, ?_⟩
    rintro ⟨_, htables, -⟩
    cases htables

theorem rollback_throws (e : Failure) (s : Session) (b : α) (t : Session) :
    (do
      let _ ← attempt Sql.rollback
      throw e : Sql α) s ≠ (.ok b, t) := by
  intro h
  obtain ⟨_, u, -, hthrow⟩ := bind_eq_ok.mp h
  cases hthrow

theorem runTransaction_eq_ok {β : Type} {kept : Tables → β} {action : Sql α}
    (hstatements : Statements kept action) {s : Session} {a : α}
    (h : Sql.runTransaction action ⟨c, faults⟩ = (.ok a, s)) :
    c.Free ∧ ∃ tables, action (working c c.committed) = (.ok a, working c tables) ∧
      s.connection = { c with committed := tables, transaction := none } := by
  obtain ⟨_, t, hdb, h⟩ := bind_eq_ok.mp h
  obtain ⟨_, u, hbegin, h⟩ := bind_eq_ok.mp h
  obtain ⟨-, rfl⟩ := db_eq_ok.mp hdb
  obtain ⟨hfree, -, rfl⟩ := begin_eq_ok.mp hbegin
  have hbody := recover_eq_ok rollback_throws h
  obtain ⟨b, v, haction, hbody⟩ := bind_eq_ok.mp hbody
  obtain ⟨_, w, hcommit, hreturn⟩ := bind_eq_ok.mp hbody
  obtain ⟨hb, rfl⟩ := Prod.mk.inj hreturn
  obtain rfl := Except.ok.inj hb
  have hcalm := hstatements.unaffected _ _ _ haction
  obtain ⟨tables, hworking⟩ := hstatements.working hcalm
  have hconnection : v.connection = { c with transaction := some tables } :=
    congrArg Session.connection hworking
  obtain ⟨-, -, tables', htransaction, rfl⟩ := commit_eq_ok.mp hcommit
  rw [hconnection] at htransaction ⊢
  obtain rfl := Option.some.inj htransaction
  refine ⟨hfree, tables, ?_, rfl⟩
  rw [← hworking]
  exact hcalm

theorem runTransaction_begun (hfree : c.Free) (action : Sql α) :
    Sql.runTransaction action ⟨c, .none⟩ =
      Execution.recover (do
        let result ← action
        Sql.commit
        return result : Sql α) (fun error => do
          let _ ← attempt Sql.rollback
          throw error) (working c c.committed) := by
  unfold Sql.runTransaction
  rw [bind_of_ok (Sql.db_open hfree.opened), bind_of_ok (begin_eq_ok.mpr ⟨hfree, rfl, rfl⟩)]
  rfl

theorem runTransaction_ok (hfree : c.Free) {action : Sql α} {a : α} {tables : Tables}
    (h : action (working c c.committed) = (.ok a, working c tables)) :
    Sql.runTransaction action ⟨c, .none⟩ =
      (.ok a, ⟨{ c with committed := tables, transaction := none }, .none⟩) := by
  rw [runTransaction_begun hfree]
  refine recover_of_ok ?_
  rw [bind_of_ok h, bind_of_ok (commit_eq_ok.mpr ⟨hfree.opened, rfl, tables, rfl, rfl⟩)]
  rfl

theorem runTransaction_error (hfree : c.Free) {action : Sql α} {e : Failure} {tables : Tables}
    (h : action (working c c.committed) = (.error e, working c tables)) :
    Sql.runTransaction action ⟨c, .none⟩ = (.error e, ⟨c, .none⟩) := by
  have hrollback : attempt Sql.rollback (working c tables) = (.ok true, ⟨c, .none⟩) := by
    have hdiscard : Sql.rollback (working c tables) = (.ok (), ⟨c, .none⟩) := by
      refine Sql.guarded_eq_ok.mpr ⟨hfree.opened, rfl, ?_⟩
      have hsame : ({ c with transaction := none } : Database) = c := by rw [← hfree.transaction]
      change (Except.ok (), (⟨{ c with transaction := none }, .none⟩ : Session)) = _
      rw [hsame]
    rw [attempt, hdiscard]
  rw [runTransaction_begun hfree, recover_of_error (bind_of_error h), bind_of_ok hrollback]
  rfl

theorem runTransaction_internal {β : Type} {kept : Tables → β} {action : Sql α}
    (hstatements : Statements kept action) {code : PersistenceErrorCode} {message : String}
    {s : Session}
    (h : Sql.runTransaction action ⟨c, faults⟩ = (.error (.internal code message), s))
    (hcode : Failure.internal code message ≠ Sql.unavailable) :
    c.opened = true ∧
      ∃ t, action (working c c.committed) = (.error (.internal code message), t) := by
  obtain hdb | ⟨_, u, hdb, h⟩ := bind_eq_error.mp h
  · cases hopen : c.opened with
    | true => cases (Sql.db_open (s := ⟨c, faults⟩) hopen).symm.trans hdb
    | false =>
      have hclosed := (Sql.db_closed (s := ⟨c, faults⟩) hopen).symm.trans hdb
      exact absurd (Except.error.inj (Prod.mk.inj hclosed).1).symm hcode
  obtain ⟨-, rfl⟩ := db_eq_ok.mp hdb
  obtain hbegin | ⟨_, v, hbegin, h⟩ := bind_eq_error.mp h
  · obtain ⟨hunavailable, -⟩ | ⟨-, -, henter⟩ := Sql.guarded_internal hbegin
    · exact absurd hunavailable hcode
    · unfold Sql.enter at henter
      split at henter
      · cases henter
      split at henter
      · cases henter
      · cases henter
  obtain ⟨hfree, -, rfl⟩ := begin_eq_ok.mp hbegin
  obtain ⟨e, w, hbody, hhandler⟩ := recover_eq_error h
  have hthrown : e = .internal code message := by
    obtain hattempt | ⟨_, x, -, hthrow⟩ := bind_eq_error.mp hhandler
    · exact absurd hattempt attempt_ne_error
    · exact Except.error.inj (Prod.mk.inj hthrow).1
  subst hthrown
  refine ⟨hfree.opened, ?_⟩
  obtain haction | ⟨a, x, haction, hbody⟩ := bind_eq_error.mp hbody
  · exact hstatements.internal haction
  obtain hcommit | ⟨_, y, -, hreturn⟩ := bind_eq_error.mp hbody
  · obtain ⟨hunavailable, -⟩ | ⟨-, -, hpublish⟩ := Sql.guarded_internal hcommit
    · exact absurd hunavailable hcode
    · unfold Sql.publish at hpublish
      split at hpublish
      · cases hpublish
      · cases hpublish
  · cases hreturn

end Transactions

section Committed

variable {α β : Type}

def Steady (x : Sql α) : Prop := ∀ s, (x s).2.connection.committed = s.connection.committed

theorem Steady.eq {x : Sql α} (hx : Steady x) {s t : Session} {result : Except Failure α}
    (h : x s = (result, t)) : t.connection.committed = s.connection.committed := by
  rw [← hx s, h]

theorem Database.afterFault_committed (c : Database) (fault : Fault) :
    (c.afterFault fault).committed = c.committed := by
  unfold Database.afterFault
  split
  · rfl
  · rfl

theorem Steady.bind {x : Sql α} {f : α → Sql β} (hx : Steady x) (hf : ∀ a, Steady (f a)) :
    Steady (x >>= f) := by
  intro s
  have hfirst := hx s
  cases hresult : x s with
  | mk result t =>
    rw [hresult] at hfirst
    cases result with
    | ok a =>
      rw [bind_of_ok hresult]
      exact (hf a t).trans hfirst
    | error e =>
      rw [bind_of_error hresult]
      exact hfirst

theorem Steady.attempt {x : Sql α} (hx : Steady x) : Steady (Execution.attempt x) := by
  intro s
  have hfirst := hx s
  unfold Execution.attempt
  cases hresult : x s with
  | mk result t =>
    rw [hresult] at hfirst
    cases result with
    | ok a => exact hfirst
    | error e => exact hfirst

theorem Steady.ite {p : Prop} [Decidable p] {x y : Sql α} (hx : Steady x) (hy : Steady y) :
    Steady (if p then x else y) := by
  split
  · exact hx
  · exact hy

theorem Sql.guarded_steady {select : Faults → Option Fault} {run : Sql α} (hrun : Steady run) :
    Steady fun s => Sql.guarded (select s.faults) run s := by
  intro s
  dsimp only
  cases hopen : s.connection.opened with
  | false => rw [Sql.guarded_closed hopen]
  | true =>
    rw [Sql.guarded_open hopen]
    cases select s.faults with
    | some fault => exact s.connection.afterFault_committed fault
    | none => exact hrun s

theorem Sql.statement_steady {run : Tables → Except Failure (α × Tables)}
    (hrun : ∀ tables a tables', run tables = .ok (a, tables') → tables' = tables) :
    Steady (Sql.statement run) := by
  have happly : Steady (Sql.apply run) := by
    intro s
    unfold Sql.apply
    split
    · rename_i hok
      have hsame := hrun _ _ _ hok
      subst hsame
      change (s.connection.written s.connection.tables).committed = _
      rw [Database.written_tables]
    · rfl
  intro s
  exact @Sql.guarded_steady _ (fun _ => s.faults.statements.head?.join) _ happly s.advance

theorem Reading.steady {x : Sql α} (h : Reading x) : Steady x := by
  induction h with
  | pure a => exact fun _ => rfl
  | lift x => exact fun _ => rfl
  | throw e => exact fun _ => rfl
  | connection => exact fun _ => rfl
  | db =>
    intro s
    unfold Sql.db
    split
    · rfl
    · rfl
  | statement hrun => exact Sql.statement_steady hrun
  | bind _ _ ihx ihf => exact ihx.bind ihf
  | attempt _ ih => exact ih.attempt

theorem begin_steady : Steady Sql.beginImmediate := by
  refine Sql.guarded_steady fun s => ?_
  unfold Sql.enter
  split
  · rfl
  split
  · rfl
  · rfl

theorem rollback_steady : Steady Sql.rollback := by
  refine Sql.guarded_steady fun s => ?_
  unfold Sql.discard
  split
  · rfl
  · rfl

theorem walCheckpoint_steady : Steady Sql.walCheckpoint := by
  refine Sql.guarded_steady fun s => ?_
  unfold Sql.truncateLog
  split
  · rfl
  · rfl

theorem close_steady : Steady Sql.close :=
  Sql.guarded_steady fun _ => rfl

theorem commit_error {s t : Session} {e : Failure} (h : Sql.commit s = (.error e, t)) :
    t.connection.committed = s.connection.committed := by
  unfold Sql.commit at h
  cases hopen : s.connection.opened with
  | false =>
    rw [Sql.guarded_closed hopen] at h
    rw [← (Prod.mk.inj h).2]
  | true =>
    rw [Sql.guarded_open hopen] at h
    cases hfault : s.faults.commit with
    | some fault =>
      rw [hfault] at h
      rw [← (Prod.mk.inj h).2]
      exact s.connection.afterFault_committed fault
    | none =>
      rw [hfault] at h
      dsimp only at h
      unfold Sql.publish at h
      split at h
      · cases h
      · rw [← (Prod.mk.inj h).2]

theorem Statements.held {kept : Tables → β} {x : Sql α} (h : Statements kept x) {s : Session}
    {tables : Tables}
    (htransaction : s.connection.transaction = some tables) {result : Except Failure α}
    {t : Session} (hx : x s = (result, t)) :
    t.connection.committed = s.connection.committed := by
  have hstart : Inside s.connection s.faults s :=
    ⟨tables, by rw [← htransaction], rfl, fun _ hfault => hfault⟩
  have hpost := h.contained s.connection s.faults s hstart
  rw [hx] at hpost
  cases result with
  | ok a =>
    obtain ⟨_, hat⟩ := hpost
    rw [hat.connection]
  | error e =>
    obtain ⟨_, hat⟩ := hpost
    rw [hat.connection]

theorem rollbackHandler_steady (e : Failure) :
    Steady (do
      let _ ← attempt Sql.rollback
      throw e : Sql α) :=
  rollback_steady.attempt.bind fun _ _ => rfl

theorem runTransaction_failed {kept : Tables → β} {action : Sql α} (h : Statements kept action)
    {s t : Session}
    {e : Failure} (hfails : Sql.runTransaction action s = (.error e, t)) :
    t.connection.committed = s.connection.committed := by
  obtain hdb | ⟨_, u, hdb, hfails⟩ := bind_eq_error.mp hfails
  · exact Reading.db.steady.eq hdb
  obtain hbegin | ⟨_, v, hbegin, hfails⟩ := bind_eq_error.mp hfails
  · exact (begin_steady.eq hbegin).trans (Reading.db.steady.eq hdb)
  obtain ⟨e', w, hbody, hhandler⟩ := recover_eq_error hfails
  have hbegun := (begin_steady.eq hbegin).trans (Reading.db.steady.eq hdb)
  have htransaction : v.connection.transaction = some u.connection.committed := by
    rw [(begin_eq_ok.mp hbegin).2.2]
    rfl
  refine ((rollbackHandler_steady e').eq hhandler).trans (Eq.trans ?_ hbegun)
  obtain haction | ⟨a, x, haction, hbody⟩ := bind_eq_error.mp hbody
  · exact h.held htransaction haction
  obtain hcommit | ⟨_, y, -, hreturn⟩ := bind_eq_error.mp hbody
  · exact (commit_error hcommit).trans (h.held htransaction haction)
  · cases hreturn

end Committed

section Qualification

variable (runtime : JsonRuntime)

theorem armCrashTransaction_steady (event : JsValue) :
    Steady (armCrashTransaction runtime event) := by
  intro s
  have hinsert (t u : Session) (result : Except Failure Unit)
      (hbegin : Sql.beginImmediate s = (.ok (), t))
      (h : insertEvent runtime event .armCrash t = (result, u)) :
      u.connection.committed = s.connection.committed := by
    have htransaction : t.connection.transaction = some s.connection.committed := by
      rw [(begin_eq_ok.mp hbegin).2.2]
      rfl
    exact ((insertEvent_statements runtime event _).held htransaction h).trans
      (begin_steady.eq hbegin)
  cases hresult : armCrashTransaction runtime event s with
  | mk result t =>
    cases result with
    | ok a =>
      have hbody := recover_eq_ok rollback_throws hresult
      obtain ⟨_, u, hbegin, hbody⟩ := bind_eq_ok.mp hbody
      obtain ⟨_, v, hevent, hbody⟩ := bind_eq_ok.mp hbody
      obtain ⟨_, w, hflag, hreturn⟩ := bind_eq_ok.mp hbody
      obtain rfl := (Prod.mk.inj hreturn).2
      obtain rfl := (Prod.mk.inj hflag).2
      exact hinsert u v _ hbegin hevent
    | error e =>
      obtain ⟨e', u, hbody, hhandler⟩ := recover_eq_error hresult
      refine ((rollbackHandler_steady e').eq hhandler).trans ?_
      obtain hbegin | ⟨_, v, hbegin, hbody⟩ := bind_eq_error.mp hbody
      · exact begin_steady.eq hbegin
      obtain hevent | ⟨_, w, hevent, hbody⟩ := bind_eq_error.mp hbody
      · exact hinsert v u _ hbegin hevent
      · cases hbody

theorem holdLock_steady : Steady holdLock := by
  refine Reading.connection.steady.bind fun c => .ite (fun _ => rfl) ?_
  exact begin_steady.bind fun _ => .bind (fun _ => rfl) fun _ _ => rfl

theorem releaseLock_steady : Steady releaseLock := by
  refine Reading.connection.steady.bind fun c => .ite ?_ fun _ => rfl
  exact rollback_steady.bind fun _ => .bind (fun _ => rfl) fun _ _ => rfl

theorem closeDatabase_steady : Steady closeDatabase := by
  have hend : Steady endQualification := Reading.connection.steady.bind fun c =>
    .ite (rollback_steady.attempt.bind fun _ _ => rfl) fun _ => rfl
  exact hend.bind fun _ => walCheckpoint_steady.bind fun _ => close_steady.bind fun _ _ => rfl

end Qualification

end Aseos.Persistence
