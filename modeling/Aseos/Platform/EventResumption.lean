import Aseos.Contracts.DecimalRuntime
import Aseos.Platform.EventServer

namespace Aseos

namespace EventStream

open TransitionSystem

section Connections

variable {host : Host} {limits : EventLimits}

structure Tallied (host : Host) (limits : EventLimits) (c : EventConnection) : Prop where
  counted : c.bufferedBytes = c.unflushedBytes host
  bounded : c.bufferedBytes ≤ limits.sseMaxBufferedBytes

structure Extends (frames : List SseFrame) (c d : EventConnection) : Prop where
  lastEventId : d.lastEventId = c.lastEventId
  retained : d.retained = c.retained
  publishedBefore : d.publishedBefore = c.publishedBefore
  received : d.active = true → c.active = true ∧
    d.received = c.received ++ frames.filter fun frame => !isHeartbeat frame

theorem Extends.refl (c : EventConnection) : Extends [] c c :=
  ⟨rfl, rfl, rfl, fun h => ⟨h, (List.append_nil _).symm⟩⟩

theorem Extends.trans {c d e : EventConnection} {frames frames' : List SseFrame}
    (h : Extends frames c d) (h' : Extends frames' d e) : Extends (frames ++ frames') c e := by
  refine ⟨h'.lastEventId.trans h.lastEventId, h'.retained.trans h.retained,
    h'.publishedBefore.trans h.publishedBefore, fun he => ?_⟩
  obtain ⟨hd, hreceived'⟩ := h'.received he
  obtain ⟨hc, hreceived⟩ := h.received hd
  exact ⟨hc, by rw [hreceived', hreceived, List.filter_append, List.append_assoc]⟩

theorem Extends.close (c : EventConnection) (frames : List SseFrame) :
    Extends frames c (closeEventConnection c) := ⟨rfl, rfl, rfl, by simp [closeEventConnection]⟩

theorem Tallied.close {c : EventConnection} (h : Tallied host limits c) :
    Tallied host limits (closeEventConnection c) := ⟨h.counted, h.bounded⟩

theorem unflushedBytes_append (c : EventConnection) (frame : SseFrame) (bytes : ℕ) :
    EventConnection.unflushedBytes host
        { c with bufferedBytes := bytes, writes := c.writes ++ [⟨frame, false⟩] } =
      c.unflushedBytes host + (frame.bytes host).length := by
  simp [EventConnection.unflushedBytes, List.filter_append, Write.size]

theorem writeSseFrame_cases {c : EventConnection} (h : Tallied host limits c) (frame : SseFrame) :
    writeSseFrame host limits c frame = (c, false) ∨
      ∃ d, writeSseFrame host limits c frame = (d, true) ∧ Tallied host limits d ∧
        Extends [frame] c d := by
  simp only [writeSseFrame]
  split
  · exact .inl rfl
  · rename_i hfits
    rw [not_lt] at hfits
    refine .inr ⟨_, Prod.ext rfl (by simp [hfits]), ⟨?_, hfits⟩, rfl, rfl, rfl, fun hc => ⟨hc, ?_⟩⟩
    · rw [unflushedBytes_append, h.counted]
    · simp [EventConnection.received, List.filter_append]

theorem writeOrClose_spec {c : EventConnection} (h : Tallied host limits c) (frame : SseFrame) :
    Tallied host limits (writeOrClose host limits c frame) ∧
      Extends [frame] c (writeOrClose host limits c frame) := by
  rw [writeOrClose]
  rcases writeSseFrame_cases h frame with hwrite | ⟨d, hwrite, htallied, hextends⟩
  · rw [hwrite]
    exact ⟨h.close, .close c _⟩
  · rw [hwrite]
    exact ⟨htallied, hextends⟩

theorem replayNotifications_spec {c : EventConnection} (h : Tallied host limits c)
    {notifications : List ControlNotification} (hwritable : ∀ n ∈ notifications, n.writable = true) :
    Tallied host limits (replayNotifications host limits c notifications) ∧
      Extends (notifications.map .notification) c
        (replayNotifications host limits c notifications) := by
  induction notifications generalizing c with
  | nil => exact ⟨h, .refl c⟩
  | cons n rest ih =>
    obtain ⟨hn, hrest⟩ := List.forall_mem_cons.mp hwritable
    rw [replayNotifications, if_pos hn]
    rcases writeSseFrame_cases h (.notification n) with hwrite | ⟨d, hwrite, htallied, hextends⟩
    · rw [hwrite]
      exact ⟨h.close, .close c _⟩
    · rw [hwrite]
      obtain ⟨htallied', hextends'⟩ := ih htallied hrest
      exact ⟨htallied', hextends.trans hextends'⟩

theorem findIdx?_split {notifications : List ControlNotification} {id : JsString} {index : ℕ}
    (h : notifications.findIdx? (fun n => n.notificationId = id) = some index) :
    ∃ before n, notifications = before ++ n :: notifications.drop (index + 1) ∧
      n.notificationId = id := by
  obtain ⟨hlt, hid, -⟩ := List.findIdx?_eq_some_iff_getElem.mp h
  refine ⟨notifications.take index, notifications[index], ?_, of_decide_eq_true hid⟩
  rw [List.getElem_cons_drop, List.take_append_drop]

theorem resumeConnection_spec {c : EventConnection} (h : Tallied host limits c)
    {notifications : List ControlNotification} (hwritable : ∀ n ∈ notifications, n.writable = true)
    (lastId : Option JsString) :
    Tallied host limits (resumeConnection host limits c notifications lastId) ∧
      ∃ first, Resumed lastId notifications first ∧
        Extends first c (resumeConnection host limits c notifications lastId) := by
  cases lastId with
  | none => exact ⟨h, [], .live notifications, .refl c⟩
  | some lastId =>
    rw [resumeConnection]
    split
    · rename_i hsome
      have hne : notifications ≠ [] := List.length_pos_iff.mp hsome
      cases hfind : notifications.findIdx? (fun n => n.notificationId = lastId) with
      | none =>
        obtain ⟨htallied, hextends⟩ := writeOrClose_spec h .gap
        refine ⟨htallied, [.gap], .gap hne ?_, hextends⟩
        simpa using List.findIdx?_eq_none_iff.mp hfind
      | some index =>
        obtain ⟨before, n, hsplit, rfl⟩ := findIdx?_split hfind
        obtain ⟨htallied, hextends⟩ := replayNotifications_spec h fun n hn =>
          hwritable n (List.mem_of_mem_drop hn)
        refine ⟨htallied, _, ?_, hextends⟩
        have hreplay := Resumed.replay before n (notifications.drop (index + 1))
        rwa [← hsplit] at hreplay
    · rename_i hnone
      obtain rfl : notifications = [] := by simpa using hnone
      exact ⟨h, [], .unretained lastId, .refl c⟩

theorem sum_unflushed_set {writes : List Write} {write : ℕ} {w : Write}
    (h : writes[write]? = some w) (hpending : w.flushed = false) :
    (((writes.set write { w with flushed := true }).filter fun w => !w.flushed).map
        (Write.size host)).sum + w.size host =
      ((writes.filter fun w => !w.flushed).map (Write.size host)).sum := by
  induction writes generalizing write with
  | nil => cases h
  | cons v writes ih =>
    cases write with
    | zero =>
      obtain rfl : v = w := by simpa using h
      simp [hpending, Nat.add_comm]
    | succ write =>
      have hrest := ih (by simpa using h)
      rw [List.set_cons_succ, List.filter_cons, List.filter_cons]
      split
      · rw [List.map_cons, List.map_cons, List.sum_cons, List.sum_cons]
        omega
      · exact hrest

theorem flushWrite_spec {c : EventConnection} (h : Tallied host limits c) (write : ℕ) :
    Tallied host limits (flushWrite host c write) ∧ Extends [] c (flushWrite host c write) := by
  rw [flushWrite]
  split
  · rename_i w hw
    split
    · exact ⟨h, .refl c⟩
    · rename_i hpending
      rw [Bool.not_eq_true] at hpending
      have hsum := @sum_unflushed_set host _ _ _ hw hpending
      have hcounted : c.bufferedBytes =
          ((c.writes.filter fun w => !w.flushed).map (Write.size host)).sum := h.counted
      have hbounded := h.bounded
      refine ⟨⟨?_, ?_⟩, rfl, rfl, rfl, fun hc => ⟨hc, ?_⟩⟩
      · rw [EventConnection.unflushedBytes]
        simp only
        omega
      · simp only
        omega
      · have hframes : (c.writes.set write { w with flushed := true }).map Write.frame =
            c.writes.map Write.frame := by
          obtain ⟨hlt, hw⟩ := List.getElem?_eq_some_iff.mp hw
          have hlt' : write < (c.writes.map Write.frame).length := by simpa using hlt
          have hframe : w.frame = (c.writes.map Write.frame)[write] := by rw [List.getElem_map, hw]
          rw [List.map_set, hframe, List.set_getElem_self]
        simp [EventConnection.received, hframes]
  · exact ⟨h, .refl c⟩

end Connections

section Runs

variable {host : Host} {limits : EventLimits}

def Following (published : List ControlNotification) (c : EventConnection) : Prop :=
  ∃ first, Resumed c.lastEventId c.retained first ∧
    c.received = first ++ (published.drop c.publishedBefore).map .notification

structure Served (host : Host) (limits : EventLimits) (published : List ControlNotification)
    (c : EventConnection) : Prop where
  tallied : Tallied host limits c
  following : c.active = true → Following published c
  before : c.publishedBefore ≤ published.length
  retained : c.retained <:+ published.take c.publishedBefore

theorem shiftTo_spec (capacity : ℕ) (notifications : List ControlNotification) :
    shiftTo capacity notifications <:+ notifications ∧
      (shiftTo capacity notifications).length ≤ capacity := by
  induction notifications with
  | nil => exact ⟨List.suffix_rfl, Nat.zero_le _⟩
  | cons n rest ih =>
    rw [shiftTo]
    split
    · exact ⟨ih.1.trans (List.suffix_cons n rest), ih.2⟩
    · rename_i hfits
      exact ⟨List.suffix_rfl, not_lt.mp hfits⟩

theorem Resumed.filter {lastId : Option JsString} {retained : List ControlNotification}
    {first : List SseFrame} (h : Resumed lastId retained first) :
    first.filter (fun frame => !isHeartbeat frame) = first := by
  cases h with
  | replay before n after =>
    rw [List.filter_eq_self]
    intro frame hframe
    obtain ⟨m, -, rfl⟩ := List.mem_map.mp hframe
    rfl
  | _ => rfl

theorem filterMap_notifications (notifications : List ControlNotification) :
    (notifications.map SseFrame.notification).filterMap notificationOf = notifications := by
  rw [List.filterMap_map]
  exact List.filterMap_some

theorem Resumed.sublist {lastId : Option JsString} {retained : List ControlNotification}
    {first : List SseFrame} (h : Resumed lastId retained first) :
    (first.filterMap notificationOf).Sublist retained := by
  cases h with
  | replay before n after =>
    rw [filterMap_notifications]
    exact ((List.sublist_cons_self n after).trans (List.sublist_append_right before _))
  | _ => exact List.nil_sublist _

structure ServerInvariant (host : Host) (limits : EventLimits) (s : ServerState) : Prop where
  served : ∀ c ∈ s.connections, Served host limits s.published c
  retained : s.notifications <:+ s.published
  retention : s.notifications.length ≤ limits.sseRetentionCapacity
  capacity : s.eventConnections.length ≤ limits.sseConnectionCapacity
  writable : ∀ n ∈ s.notifications, n.writable = true

theorem Served.extends {published : List ControlNotification} {c d : EventConnection}
    (h : Served host limits published c) (htallied : Tallied host limits d)
    {frames : List SseFrame} (hextends : Extends frames c d)
    (hframes : frames.filter (fun frame => !isHeartbeat frame) = []) :
    Served host limits published d := by
  refine ⟨htallied, fun hactive => ?_, ?_, ?_⟩
  · obtain ⟨hc, hreceived⟩ := hextends.received hactive
    obtain ⟨first, hfirst, hframes'⟩ := h.following hc
    refine ⟨first, ?_, ?_⟩
    · rw [hextends.lastEventId, hextends.retained]
      exact hfirst
    · rw [hreceived, hframes, List.append_nil, hframes', hextends.publishedBefore]
  · rw [hextends.publishedBefore]
    exact h.before
  · rw [hextends.retained, hextends.publishedBefore]
    exact h.retained

theorem Served.publish {published : List ControlNotification} {c : EventConnection}
    (h : Served host limits published c) {n : ControlNotification} (hn : n.writable = true) :
    Served host limits (published ++ [n])
      (if n.writable && c.active then writeOrClose host limits c (.notification n) else c) := by
  rw [hn, Bool.true_and]
  have hbefore : c.publishedBefore ≤ (published ++ [n]).length := by
    rw [List.length_append]
    exact h.before.trans (Nat.le_add_right _ _)
  have htake : (published ++ [n]).take c.publishedBefore = published.take c.publishedBefore :=
    List.take_append_of_le_length h.before
  cases hactive : c.active with
  | false =>
    rw [if_neg Bool.false_ne_true]
    refine ⟨h.tallied, fun hc => ?_, hbefore, htake ▸ h.retained⟩
    rw [hactive] at hc
    cases hc
  | true =>
    rw [if_pos rfl]
    obtain ⟨htallied, hextends⟩ := writeOrClose_spec h.tallied (.notification n)
    refine ⟨htallied, fun hd => ?_, ?_, ?_⟩
    · obtain ⟨-, hreceived⟩ := hextends.received hd
      obtain ⟨first, hfirst, hframes⟩ := h.following hactive
      refine ⟨first, ?_, ?_⟩
      · rw [hextends.lastEventId, hextends.retained]
        exact hfirst
      · rw [hreceived, hframes, hextends.publishedBefore,
          List.drop_append_of_le_length h.before, List.map_append, List.append_assoc]
        rfl
    · rw [hextends.publishedBefore]
      exact hbefore
    · rw [hextends.retained, hextends.publishedBefore, htake]
      exact h.retained

theorem mem_modify {connections : List EventConnection} {connection : ℕ}
    {f : EventConnection → EventConnection} {d : EventConnection}
    (h : d ∈ connections.modify connection f) :
    d ∈ connections ∨ ∃ c ∈ connections, d = f c := by
  induction connections generalizing connection with
  | nil => simp at h
  | cons c connections ih =>
    cases connection with
    | zero =>
      rw [List.modify_zero_cons] at h
      rcases List.mem_cons.mp h with rfl | h
      · exact .inr ⟨c, List.mem_cons_self, rfl⟩
      · exact .inl (List.mem_cons_of_mem _ h)
    | succ connection =>
      rw [List.modify_succ_cons] at h
      rcases List.mem_cons.mp h with rfl | h
      · exact .inl List.mem_cons_self
      · rcases ih h with h | ⟨e, he, rfl⟩
        · exact .inl (List.mem_cons_of_mem _ h)
        · exact .inr ⟨e, List.mem_cons_of_mem _ he, rfl⟩

theorem active_modify_le {f : EventConnection → EventConnection}
    (hf : ∀ c, (f c).active = true → c.active = true) (connections : List EventConnection)
    (connection : ℕ) :
    ((connections.modify connection f).filter EventConnection.active).length ≤
      (connections.filter EventConnection.active).length := by
  simp only [← List.countP_eq_length_filter]
  induction connections generalizing connection with
  | nil => simp
  | cons c connections ih =>
    cases connection with
    | zero =>
      rw [List.modify_zero_cons, List.countP_cons, List.countP_cons]
      have hc := hf c
      split_ifs with hnew hold
      · exact le_rfl
      · exact absurd (hc hnew) hold
      · exact Nat.le_succ _
      · exact le_rfl
    | succ connection =>
      rw [List.modify_succ_cons, List.countP_cons, List.countP_cons]
      exact Nat.add_le_add_right (ih connection) _

theorem active_map_le {f : EventConnection → EventConnection}
    (hf : ∀ c, (f c).active = true → c.active = true) (connections : List EventConnection) :
    ((connections.map f).filter EventConnection.active).length ≤
      (connections.filter EventConnection.active).length := by
  simp only [← List.countP_eq_length_filter, List.countP_map]
  exact List.countP_mono_left fun c _ hc => hf c hc

theorem initial_invariant : ServerInvariant host limits .initial :=
  ⟨by simp [ServerState.initial], List.suffix_rfl, Nat.zero_le _, Nat.zero_le _,
    by simp [ServerState.initial]⟩

theorem published_writable {stopRequested : Bool} {candidate : JsValue} {id date : JsString}
    {n : ControlNotification} (h : publishNotification stopRequested candidate id date = .ok n)
    (hwritable : propsSerializable (candidate.property (js "subjectRef")).spread = true) :
    n.writable = true := by
  rw [publishNotification] at h
  split at h
  · cases h
  · split at h
    · rename_i hsubject _ _
      split at h
      · obtain rfl := Except.ok.inj h
        rw [hsubject] at hwritable
        exact hwritable
      · cases h
    · cases h

theorem broadcast_invariant {s : ServerState} (h : ServerInvariant host limits s)
    {n : ControlNotification} (hn : n.writable = true) :
    ServerInvariant host limits (broadcast host limits s n) := by
  obtain ⟨hsuffix, hlength⟩ := shiftTo_spec limits.sseRetentionCapacity (s.notifications ++ [n])
  refine ⟨fun d hd => ?_, hsuffix.trans ?_, hlength, (active_map_le ?_ _).trans h.capacity,
    fun m hm => ?_⟩
  · obtain ⟨c, hc, rfl⟩ := List.mem_map.mp hd
    exact (h.served c hc).publish hn
  · obtain ⟨evicted, hevicted⟩ := h.retained
    exact ⟨evicted, by rw [← List.append_assoc, hevicted]; rfl⟩
  · intro c hactive
    cases hc : c.active with
    | true => rfl
    | false =>
      rw [hc, Bool.and_false, if_neg Bool.false_ne_true, hc] at hactive
      cases hactive
  · rcases List.mem_append.mp (hsuffix.subset hm) with hm | hm
    · exact h.writable m hm
    · rwa [List.mem_singleton.mp hm]

theorem serveEvents_invariant {s : ServerState} (h : ServerInvariant host limits s)
    (lastId : Option JsString) (writable : ℕ → Bool) :
    ServerInvariant host limits (serveEvents host limits s lastId writable) := by
  simp only [serveEvents]
  split
  · exact h
  · rename_i hfree
    rw [not_le] at hfree
    obtain ⟨htallied, first, hfirst, hextends⟩ := resumeConnection_spec
      (c := ⟨0, writable, [], true, lastId, s.notifications, s.published.length⟩)
      ⟨rfl, Nat.zero_le _⟩ h.writable lastId
    refine ⟨fun d hd => ?_, h.retained, h.retention, ?_, h.writable⟩
    · rcases List.mem_append.mp hd with hd | hd
      · exact h.served d hd
      · obtain rfl := List.mem_singleton.mp hd
        refine ⟨htallied, fun hactive => ?_, ?_, ?_⟩
        · obtain ⟨-, hreceived⟩ := hextends.received hactive
          refine ⟨first, ?_, ?_⟩
          · rw [hextends.lastEventId, hextends.retained]
            exact hfirst
          · rw [hreceived, hextends.publishedBefore, hfirst.filter, List.drop_length]
            exact (List.append_nil first).symm
        · rw [hextends.publishedBefore]
        · rw [hextends.retained, hextends.publishedBefore, List.take_length]
          exact h.retained
    · rw [ServerState.eventConnections, List.filter_append, List.length_append]
      have hone := List.length_filter_le EventConnection.active [resumeConnection host limits
        ⟨0, writable, [], true, lastId, s.notifications, s.published.length⟩ s.notifications lastId]
      rw [List.length_singleton] at hone
      change s.eventConnections.length + _ ≤ _
      omega

theorem modify_invariant {s : ServerState} (h : ServerInvariant host limits s) (connection : ℕ)
    {f : EventConnection → EventConnection}
    (hf : ∀ c, Tallied host limits c → Tallied host limits (f c) ∧ ∃ frames, Extends frames c (f c) ∧
      frames.filter (fun frame => !isHeartbeat frame) = [])
    (hactive : ∀ c, (f c).active = true → c.active = true) :
    ServerInvariant host limits
      { s with connections := s.connections.modify connection f } := by
  refine ⟨fun d hd => ?_, h.retained, h.retention,
    (active_modify_le hactive _ _).trans h.capacity, h.writable⟩
  rcases mem_modify hd with hd | ⟨c, hc, rfl⟩
  · exact h.served d hd
  · obtain ⟨htallied, frames, hextends, hframes⟩ := hf c (h.served c hc).tallied
    exact (h.served c hc).extends htallied hextends hframes

theorem flushWrite_active (c : EventConnection) (write : ℕ) :
    (flushWrite host c write).active = c.active := by
  rw [flushWrite]
  split
  · split <;> rfl
  · rfl

theorem nextState_invariant {s : ServerState} (h : ServerInvariant host limits s)
    {event : ServerEvent} (hwritable : WritableCandidates [event]) :
    ServerInvariant host limits (nextState host limits s event) := by
  cases event with
  | publish candidate id date =>
    rw [nextState]
    cases hpublish : publishNotification s.stopRequested candidate id date with
    | ok n =>
      have hsubject := hwritable candidate id date (List.mem_singleton_self _)
      exact broadcast_invariant h (published_writable hpublish hsubject)
    | error e => exact h
  | connect lastId writable => exact serveEvents_invariant h lastId writable
  | flush connection write =>
    refine modify_invariant h connection (fun c hc => ?_) fun c hc => ?_
    · obtain ⟨htallied, hextends⟩ := flushWrite_spec hc write
      exact ⟨htallied, [], hextends, rfl⟩
    · rwa [flushWrite_active] at hc
  | heartbeat connection =>
    refine modify_invariant h connection (fun c hc => ?_) fun c hactive => ?_
    · split
      · obtain ⟨htallied, hextends⟩ := writeOrClose_spec hc .heartbeat
        exact ⟨htallied, [.heartbeat], hextends, rfl⟩
      · exact ⟨hc, [], .refl c, rfl⟩
    · cases hc : c.active with
      | true => rfl
      | false =>
        rw [hc, if_neg Bool.false_ne_true, hc] at hactive
        cases hactive
  | close connection =>
    exact modify_invariant h connection
      (fun c hc => ⟨hc.close, [], .close c [], rfl⟩) fun c hc => by cases hc
  | stop =>
    refine ⟨fun d hd => ?_, h.retained, h.retention,
      (active_map_le (fun c hc => by cases hc) _).trans h.capacity, h.writable⟩
    obtain ⟨c, hc, rfl⟩ := List.mem_map.mp hd
    exact (h.served c hc).extends (h.served c hc).tallied.close (.close c []) rfl

theorem run_invariant {r s : ServerState} {events : List ServerEvent}
    (h : Run (ServerStep host limits) r events s) (hr : ServerInvariant host limits r)
    (hwritable : WritableCandidates events) : ServerInvariant host limits s := by
  induction h with
  | nil => exact hr
  | snoc _ hlast ih =>
    obtain rfl := hlast
    refine nextState_invariant (ih fun candidate id date hevent => ?_)
      fun candidate id date hevent => ?_
    · exact hwritable candidate id date (List.mem_append_left _ hevent)
    · exact hwritable candidate id date (List.mem_append_right _ hevent)

theorem Served.sublist {published : List ControlNotification} {c : EventConnection}
    (h : Served host limits published c) (hactive : c.active = true) :
    (c.received.filterMap notificationOf).Sublist published := by
  obtain ⟨first, hfirst, hreceived⟩ := h.following hactive
  rw [hreceived, List.filterMap_append, filterMap_notifications,
    ← List.take_append_drop c.publishedBefore published]
  refine List.Sublist.append (hfirst.sublist.trans h.retained.sublist) ?_
  rw [List.take_append_drop]

structure ResumesExactly (host : Host) (limits : EventLimits) (s : ServerState) : Prop where
  resumed : ∀ c ∈ s.eventConnections, Following s.published c
  once : ∀ c ∈ s.eventConnections, (c.received.filterMap notificationOf).Sublist s.published ∧
    ((c.received.filterMap notificationOf).map ControlNotification.notificationId).Nodup
  retention : s.notifications.length ≤ limits.sseRetentionCapacity
  capacity : s.eventConnections.length ≤ limits.sseConnectionCapacity
  buffered : ∀ c ∈ s.connections, c.bufferedBytes = c.unflushedBytes host ∧
    c.bufferedBytes ≤ limits.sseMaxBufferedBytes

theorem streams_resume_exactly {s : ServerState} {events : List ServerEvent}
    (hrun : Run (ServerStep host limits) .initial events s) (hwritable : WritableCandidates events)
    (hdistinct : (s.published.map ControlNotification.notificationId).Nodup) :
    ResumesExactly host limits s := by
  have h := run_invariant hrun initial_invariant hwritable
  have hopen (c : EventConnection) (hc : c ∈ s.eventConnections) :
      c ∈ s.connections ∧ c.active = true := List.mem_filter.mp hc
  refine ⟨fun c hc => ?_, fun c hc => ?_, h.retention, h.capacity, fun c hc => ?_⟩
  · obtain ⟨hc, hactive⟩ := hopen c hc
    exact (h.served c hc).following hactive
  · obtain ⟨hc, hactive⟩ := hopen c hc
    have hsublist := (h.served c hc).sublist hactive
    exact ⟨hsublist, hdistinct.sublist (hsublist.map _)⟩
  · exact ⟨(h.served c hc).tallied.counted, (h.served c hc).tallied.bounded⟩

end Runs

section Samples

def sampleLimits : EventLimits := ⟨8, 512, 262144⟩

def sampleCandidate : JsValue :=
  .record [(js "kind", .string (js "RUNTIME_STATUS")),
    (js "subjectRef", .record [(js "subjectType", .string (js "Runtime")),
      (js "subjectId", .string (js "main"))]),
    (js "projectionVersion", .number (.ofInt 0 zero_exact)),
    (js "resourceUri", .string (js "/v1/status"))]

def sampleEvents : List ServerEvent :=
  [.publish sampleCandidate (js "first") (js "2026-01-31T23:59:59.999Z"),
    .publish sampleCandidate (js "second") (js "2026-01-31T23:59:59.999Z"),
    .connect (some (js "first")) fun _ => true, .flush 0 0]

noncomputable def sampleServer : ServerState :=
  sampleEvents.foldl (nextState sampleRuntime.toHost sampleLimits) .initial

theorem run_foldl {host : Host} {limits : EventLimits} (events : List ServerEvent)
    (s : ServerState) :
    Run (ServerStep host limits) s events (events.foldl (nextState host limits) s) := by
  induction events generalizing s with
  | nil => exact .nil s
  | cons event events ih => exact (ih _).cons rfl

theorem sample_resumed : ResumesExactly sampleRuntime.toHost sampleLimits sampleServer := by
  refine streams_resume_exactly (run_foldl sampleEvents .initial) ?_ (by decide)
  intro candidate id date hevent
  obtain rfl : candidate = sampleCandidate := by
    simp [sampleEvents] at hevent
    rcases hevent with ⟨rfl, -⟩ | ⟨rfl, -⟩ <;> rfl
  rfl

theorem early_connection_without_gap :
    ∃ s, Run (ServerStep sampleRuntime.toHost sampleLimits) .initial
        [.connect (some (js "first")) fun _ => true] s ∧
      ∃ c ∈ s.eventConnections, c.lastEventId = some (js "first") ∧
        js "first" ∉ c.retained.map ControlNotification.notificationId ∧ c.received = [] :=
  ⟨_, (Run.nil _).snoc rfl, _, List.mem_cons_self, rfl, List.not_mem_nil, rfl⟩

def bigintCandidate : JsValue :=
  .record [(js "kind", .string (js "RUNTIME_STATUS")),
    (js "subjectRef", .object true [(⟨.text (js "subjectType"), .hidden⟩, .string (js "Runtime")),
      (⟨.text (js "subjectId"), .hidden⟩, .string (js "main")),
      (.own (js "first"), .foreign .bigint), (.own (js "second"), .null)]),
    (js "projectionVersion", .number (.ofInt 0 zero_exact)),
    (js "resourceUri", .string (js "/v1/status"))]

theorem unwritable_not_replayed :
    ∃ s, Run (ServerStep sampleRuntime.toHost sampleLimits) .initial
        [.publish sampleCandidate (js "first") [], .publish bigintCandidate (js "second") [],
          .connect (some (js "first")) fun _ => true] s ∧
      ∃ c ∈ s.eventConnections, c.lastEventId = some (js "first") ∧
        c.retained.map ControlNotification.notificationId = [js "first", js "second"] ∧
        c.received = [] :=
  ⟨_, run_foldl _ .initial, _, List.mem_cons_self, rfl, rfl, rfl⟩

end Samples

end EventStream

end Aseos
