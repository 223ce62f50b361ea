import ModHttp3.Process.EventThread
import Mathlib.Data.List.Nodup

/-! Every connection is owned once, counted, and freed once. -/
namespace ModHttp3.Process
open Session ModHttp3.System Lib

/-- The number of pending handshakes and active sessions. -/
def Io.tracked (io : Io) : ℕ := io.pendingHandshakes.length + io.activeSessions.length

/-- How often a connection is in the two tables. -/
def Io.owners (io : Io) (c : Conn) : ℕ :=
  (io.pendingHandshakes.map PendingHandshake.conn).count c +
    (io.activeSessions.map ActiveSession.qconn).count c

/-- The counters agree with the tables, and every connection taken is in one of them or freed. -/
structure Books (conf : IoConf) (io : Io) : Prop where
  count : io.activeSessionCount = io.activeSessions.length
  balance : io.balance = if conf.notes then (io.tracked : ℤ) else 0
  owned : ∀ c, io.accepted.count c = io.owners c + io.freed.count c

section
variable {conf : IoConf} {io io' : Io}

theorem count_map_swapRemove {α : Type*} (f : α → Conn) {l : List α} {i : ℕ} {a : α}
    (ha : l[i]? = some a) (c : Conn) :
    (l.map f).count c = ((swapRemove l i).map f).count c + if f a == c then 1 else 0 := by
  have hperm := (cons_swapRemove_perm ha).map f
  rw [← hperm.count_eq, List.map_cons, List.count_cons]

theorem count_map_concat {α : Type*} (f : α → Conn) (l : List α) (a : α) (c : Conn) :
    ((l ++ [a]).map f).count c = (l.map f).count c + if f a == c then 1 else 0 := by
  rw [List.map_append, List.count_append, List.map_singleton, List.count_singleton]

theorem noteConnAdded_eq (conf : IoConf) (io : Io) :
    io.noteConnAdded conf = { io with balance := if conf.notes then io.balance + 1 else io.balance } := by
  unfold Io.noteConnAdded
  cases conf.notes <;> rfl

theorem noteConnRemoved_eq (conf : IoConf) (io : Io) :
    io.noteConnRemoved conf = { io with balance := if conf.notes then io.balance - 1 else io.balance } := by
  unfold Io.noteConnRemoved
  cases conf.notes <;> rfl

theorem removePendingHandshake_eq {i : ℕ} {p : PendingHandshake}
    (hp : io.pendingHandshakes[i]? = some p) (freeConn : Bool) :
    io.removePendingHandshake conf i freeConn =
      { io with
        pendingHandshakes := swapRemove io.pendingHandshakes i
        balance := if conf.notes then io.balance - 1 else io.balance
        freed := if freeConn then p.conn :: io.freed else io.freed } := by
  unfold Io.removePendingHandshake
  rw [hp]
  dsimp only
  rw [noteConnRemoved_eq]
  cases freeConn <;> rfl

theorem Books.removePending (hB : Books conf io) {i : ℕ} {p : PendingHandshake}
    (hp : io.pendingHandshakes[i]? = some p) : Books conf (io.removePendingHandshake conf i true) := by
  have hlen := length_swapRemove hp
  rw [removePendingHandshake_eq hp]
  constructor
  · exact hB.count
  · have hb := hB.balance
    unfold Io.tracked at hb ⊢
    dsimp only at hb ⊢
    split_ifs at hb ⊢ <;> omega
  · intro c
    have ho := hB.owned c
    have hc := count_map_swapRemove PendingHandshake.conn hp c
    unfold Io.owners at ho ⊢
    dsimp only at ho ⊢
    rw [if_pos rfl, List.count_cons]
    omega

theorem addSession_eq (s : ActiveSession) :
    io.addSession conf s =
      { io with
        activeSessions := io.activeSessions ++ [s]
        activeSessionCount := io.activeSessionCount + 1
        balance := if conf.notes then io.balance + 1 else io.balance } :=
  noteConnAdded_eq conf _

theorem addSession_pending {i : ℕ} {p : PendingHandshake} (s : ActiveSession)
    (hp : io.pendingHandshakes[i]? = some p) : (io.addSession conf s).pendingHandshakes[i]? = some p := by
  rw [addSession_eq]
  exact hp

/-- A connection moves from the pending table to the sessions. -/
theorem Books.promote (hB : Books conf io) {i : ℕ} {p : PendingHandshake} {s : ActiveSession}
    (hp : io.pendingHandshakes[i]? = some p) (hs : s.qconn = p.conn) :
    Books conf ((io.addSession conf s).removePendingHandshake conf i false) := by
  have hlen := length_swapRemove hp
  rw [removePendingHandshake_eq (addSession_pending s hp), addSession_eq]
  constructor
  · dsimp only
    rw [hB.count, List.length_append, List.length_singleton]
  · have hb := hB.balance
    unfold Io.tracked at hb ⊢
    dsimp only at hb ⊢
    rw [List.length_append, List.length_singleton]
    split_ifs at hb ⊢ <;> omega
  · intro c
    have ho := hB.owned c
    have hc := count_map_swapRemove PendingHandshake.conn hp c
    have hc' := count_map_concat ActiveSession.qconn io.activeSessions s c
    rw [hs] at hc'
    unfold Io.owners at ho ⊢
    dsimp only at ho ⊢
    rw [if_neg Bool.false_ne_true]
    omega

theorem removeSession_eq (i : ℕ) (s : ActiveSession) :
    io.removeSession conf i s =
      { io with
        activeSessions := swapRemove io.activeSessions i
        activeSessionCount := io.activeSessionCount - 1
        balance := if conf.notes then io.balance - 1 else io.balance
        freed := s.qconn :: io.freed } := by
  unfold Io.removeSession
  rw [noteConnRemoved_eq]
  rfl

theorem Books.removeSession (hB : Books conf io) {i : ℕ} {s : ActiveSession}
    (hs : io.activeSessions[i]? = some s) : Books conf (io.removeSession conf i s) := by
  have hlen := length_swapRemove hs
  rw [removeSession_eq]
  constructor
  · have hc := hB.count
    dsimp only
    omega
  · have hb := hB.balance
    unfold Io.tracked at hb ⊢
    dsimp only at hb ⊢
    split_ifs at hb ⊢ <;> omega
  · intro c
    have ho := hB.owned c
    have hc := count_map_swapRemove ActiveSession.qconn hs c
    unfold Io.owners at ho ⊢
    dsimp only at ho ⊢
    rw [List.count_cons]
    omega

/-- A step of a session in the table changes neither table. -/
theorem Books.setSession (hB : Books conf io) {i : ℕ} {s : ActiveSession}
    (hs : io.activeSessions[i]? = some s) (σ : State) (pc : ThreadPc) :
    Books conf { io with activeSessions := io.activeSessions.set i { s with state := σ }, pc := pc } := by
  have hmap : (io.activeSessions.set i { s with state := σ }).map ActiveSession.qconn =
      io.activeSessions.map ActiveSession.qconn := map_set_same hs rfl
  constructor
  · dsimp only
    rw [List.length_set]
    exact hB.count
  · have hb := hB.balance
    unfold Io.tracked at hb ⊢
    dsimp only
    rw [List.length_set]
    exact hb
  · intro c
    have ho := hB.owned c
    unfold Io.owners at ho ⊢
    dsimp only
    rw [hmap]
    exact ho

theorem Books.accept (hB : Books conf io) (conn : Conn) (prepared : Bool) (now : ℤ) :
    Books conf (io.acceptConnection conf conn prepared now) := by
  unfold Io.acceptConnection
  dsimp only
  split_ifs
  · refine ⟨hB.count, hB.balance, fun c => ?_⟩
    have ho := hB.owned c
    unfold Io.owners Io.connFree at *
    dsimp only
    rw [List.count_cons, List.count_cons]
    omega
  · rw [noteConnAdded_eq]
    constructor
    · exact hB.count
    · have hb := hB.balance
      unfold Io.tracked at hb ⊢
      dsimp only
      rw [List.length_append, List.length_singleton]
      split_ifs at hb ⊢ <;> omega
    · intro c
      have ho := hB.owned c
      have hc := count_map_concat PendingHandshake.conn io.pendingHandshakes ⟨conn, now⟩ c
      unfold Io.owners at *
      dsimp only at hc ⊢
      rw [List.count_cons]
      omega

end

/-- Where a step that leaves the tables alone may lead. -/
structure Onward (io : Io) (pc : ThreadPc) : Prop where
  leaving : pc = .leaving → io.pc = .leaving ∨ io.activeSessions = []
  exited : pc = .exited → io.pc = .exited ∨ io.pc = .leaving ∧ io.pendingHandshakes = []

/-- What a step does to the tables. -/
inductive IoMove (conf : IoConf) (io : Io) : Io → Prop
  | turn {running drains : Bool} {pc : ThreadPc} (hpc : Onward io pc) :
      IoMove conf io { io with threadRunning := running, draining := drains, pc := pc }
  | accepted {conn : Conn} {prepared : Bool} {now : ℤ} (hpc : io.pc = .accepting)
      (hnew : conn ∉ io.accepted) : IoMove conf io (io.acceptConnection conf conn prepared now)
  | dropped {i : ℕ} {p : PendingHandshake} (hp : io.pendingHandshakes[i]? = some p) :
      IoMove conf io (io.removePendingHandshake conf i true)
  | promoted {now : ℤ} {i : ℕ} {p : PendingHandshake} {s : ActiveSession} (hpc : io.pc = .progress now i)
      (hp : io.pendingHandshakes[i]? = some p) (hs : s.qconn = p.conn)
      (hr : Reach (State.step conf.session) anyStep .start s.state) :
      IoMove conf io ((io.addSession conf s).removePendingHandshake conf i false)
  | ended {i : ℕ} {s : ActiveSession} (hs : io.activeSessions[i]? = some s) :
      IoMove conf io (io.removeSession conf i s)
  | served {i : ℕ} {s : ActiveSession} {act : Action} {σ : State} {pc : ThreadPc} (hpc : Onward io pc)
      (hs : io.activeSessions[i]? = some s) (hσ : s.state.step conf.session act = some σ) :
      IoMove conf io { io with activeSessions := io.activeSessions.set i { s with state := σ }, pc := pc }

section
variable {conf : IoConf} {io io' : Io}

theorem onward_self (io : Io) : Onward io io.pc := ⟨.inl, .inl⟩

private theorem newSession_reach {opened : List (Option (ℤ × Handle))} {bound : Bool} {created : List Bool}
    {alive : Bool} {σ : State} (h : Io.newSession conf opened bound created alive = some σ) :
    Reach (State.step conf.session) anyStep .start σ := by
  obtain ⟨σ₁, h₁, h⟩ := Option.bind_eq_some_iff.mp h
  have hr : Reach (State.step conf.session) anyStep .start σ₁ :=
    .next (a := .event (.control opened bound created)) .start trivial h₁
  split_ifs at h
  · cases h
    exact hr
  · exact .next (a := .event (.flag alive)) hr trivial h

/-- A spawned session is in a state that the session machine reaches; a failure has freed the
connection. -/
theorem spawn_cases {conn : Conn} {a : SpawnAnswer} (h : io.spawnServicedSession conf conn a = some io') :
    io' = io.connFree conn ∨ ∃ s : ActiveSession, io' = io.addSession conf s ∧ s.qconn = conn ∧
      Reach (State.step conf.session) anyStep .start s.state := by
  cases a with
  | noPool => exact .inl (Option.some.inj h).symm
  | noSession => exact .inl (Option.some.inj h).symm
  | control opened bound created alive =>
    obtain ⟨σ, hσ, he⟩ := Option.map_eq_some_iff.mp h
    split_ifs at he
    · exact .inl he.symm
    · exact .inr ⟨⟨conn, σ⟩, he.symm, rfl, newSession_reach hσ⟩

private theorem progress_move {now : ℤ} {i : ℕ} {p : PendingHandshake} {act : IoAct} (hpc : io.pc = .progress now i)
    (hp : io.pendingHandshakes[i]? = some p)
    (h : io.progressPendingHandshake conf now i p act = some io') : IoMove conf io io' := by
  unfold Io.progressPendingHandshake at h
  split at h
  · split_ifs at h
    cases h
    exact .dropped hp
  · split_ifs at h
    split at h
    · cases h
      exact .dropped hp
    · obtain ⟨io₁, hs, rfl⟩ := Option.map_eq_some_iff.mp h
      rcases spawn_cases hs with rfl | ⟨s, rfl, hq, hr⟩
      · have he : (io.connFree p.conn).removePendingHandshake conf i false =
            io.removePendingHandshake conf i true := by
          rw [removePendingHandshake_eq hp, removePendingHandshake_eq (p := p) (by exact hp)]
          rfl
        rw [he]
        exact .dropped hp
      · exact .promoted hpc hp hq hr
    · cases h
      exact .turn ⟨nofun, nofun⟩
  · cases h

private theorem serve_move {i : ℕ} {s : ActiveSession} {a : Answer} (hs : io.activeSessions[i]? = some s)
    (h : io.serveSession conf i s a = some io') : IoMove conf io io' := by
  obtain ⟨σ, hσ, rfl⟩ := Option.map_eq_some_iff.mp h
  split
  · exact .ended hs
  · have hact : s.state.step conf.session (.event a) = some σ := hσ
    refine .served ?_ hs hact
    constructor <;> split_ifs <;> nofun

private theorem threadStep_move {act : IoAct} (h : io.threadStep conf act = some io') : IoMove conf io io' := by
  unfold Io.threadStep at h
  split at h
  · cases h
    refine .turn ⟨fun hl => .inr ?_, fun he => ?_⟩
    · split_ifs at hl with hrun
      rw [Bool.not_eq_true, Bool.or_eq_false_iff, Bool.not_eq_false'] at hrun
      exact List.isEmpty_iff.mp hrun.2
    · split_ifs at he
  · cases h
    refine .turn ⟨fun hl => ?_, fun he => ?_⟩
    · split_ifs at hl
    · split_ifs at he
  · cases h
    exact .turn ⟨nofun, nofun⟩
  · rename_i hpc
    split_ifs at h with hnew
    cases h
    exact .accepted hpc hnew
  · rename_i hpc
    split at h
    · rename_i hp
      exact progress_move hpc hp h
    · cases h
      exact .turn ⟨nofun, nofun⟩
  · obtain ⟨s, hs, h⟩ := Option.bind_eq_some_iff.mp h
    exact serve_move hs h
  · split_ifs at h
    cases h
    exact .turn ⟨nofun, nofun⟩
  · rename_i hpc
    split_ifs at h with hnil
    · cases h
      exact .turn ⟨nofun, fun _ => .inr ⟨hpc, List.isEmpty_iff.mp hnil⟩⟩
    · cases h
      cases hl : io.pendingHandshakes with
      | nil =>
        rw [hl] at hnil
        exact absurd rfl hnil
      | cons p rest =>
        apply IoMove.dropped (p := p)
        rw [hl]
        rfl
  · cases h

private theorem step_ioMove {act : IoAct} (h : io.step conf act = some io') : IoMove conf io io' := by
  cases act with
  | stop =>
    cases h
    exact .turn (onward_self io)
  | drain =>
    cases h
    exact .turn (onward_self io)
  | worker j k w =>
    obtain ⟨s, hs, h⟩ := Option.bind_eq_some_iff.mp h
    obtain ⟨σ, hσ, h⟩ := Option.bind_eq_some_iff.mp h
    cases h
    exact .served (onward_self io) hs hσ
  | _ => exact threadStep_move h

/-- The invariant of the thread. -/
structure Accounted (conf : IoConf) (io : Io) : Prop where
  books : Books conf io
  limit : io.tracked ≤ conf.maxConnections
  fresh : io.accepted.Nodup
  reached : ∀ s ∈ io.activeSessions, Reach (State.step conf.session) anyStep .start s.state
  leaving : io.pc = .leaving → io.activeSessions = []
  exited : io.pc = .exited → io.activeSessions = [] ∧ io.pendingHandshakes = []

theorem accounted_start (conf : IoConf) : Accounted conf .start where
  books := ⟨rfl, by cases conf.notes <;> rfl, fun _ => rfl⟩
  limit := Nat.zero_le _
  fresh := List.nodup_nil
  reached s hs := absurd hs List.not_mem_nil
  leaving := nofun
  exited := nofun

theorem Accounted.turn (hA : Accounted conf io) {running drains : Bool} {pc : ThreadPc} (hpc : Onward io pc) :
    Accounted conf { io with threadRunning := running, draining := drains, pc := pc } where
  books := ⟨hA.books.count, hA.books.balance, hA.books.owned⟩
  limit := hA.limit
  fresh := hA.fresh
  reached := hA.reached
  leaving hl := (hpc.leaving hl).elim hA.leaving id
  exited he := (hpc.exited he).elim hA.exited fun ⟨hl, hp⟩ => ⟨hA.leaving hl, hp⟩

theorem Accounted.accept (hA : Accounted conf io) {conn : Conn} {prepared : Bool} {now : ℤ}
    (hpc : io.pc = .accepting) (hnew : conn ∉ io.accepted) :
    Accounted conf (io.acceptConnection conf conn prepared now) := by
  have hbooks := hA.books.accept conn prepared now
  unfold Io.acceptConnection at hbooks ⊢
  dsimp only at hbooks ⊢
  split_ifs at hbooks ⊢ with hfull
  · exact ⟨hbooks, hA.limit, List.nodup_cons.mpr ⟨hnew, hA.fresh⟩, hA.reached, hA.leaving, hA.exited⟩
  · rw [noteConnAdded_eq] at hbooks ⊢
    have hroom : io.activeSessions.length + io.pendingHandshakes.length < conf.maxConnections := by
      rw [Bool.not_eq_true, Bool.or_eq_false_iff] at hfull
      exact Nat.not_le.mp (of_decide_eq_false hfull.1)
    refine ⟨hbooks, ?_, List.nodup_cons.mpr ⟨hnew, hA.fresh⟩, hA.reached, hA.leaving, ?_⟩
    · unfold Io.tracked
      dsimp only
      rw [List.length_append, List.length_singleton]
      omega
    · intro he
      rw [hpc] at he
      cases he

theorem Accounted.removePending (hA : Accounted conf io) {i : ℕ} {p : PendingHandshake}
    (hp : io.pendingHandshakes[i]? = some p) : Accounted conf (io.removePendingHandshake conf i true) := by
  have hbooks := hA.books.removePending hp
  have hlen := length_swapRemove hp
  rw [removePendingHandshake_eq hp] at hbooks ⊢
  refine ⟨hbooks, ?_, hA.fresh, hA.reached, hA.leaving, ?_⟩
  · have hlimit := hA.limit
    unfold Io.tracked at hlimit ⊢
    dsimp only
    omega
  · intro he
    rw [(hA.exited he).2] at hp
    cases hp

theorem Accounted.promote (hA : Accounted conf io) {now : ℤ} {i : ℕ} {p : PendingHandshake}
    {s : ActiveSession} (hpc : io.pc = .progress now i) (hp : io.pendingHandshakes[i]? = some p)
    (hs : s.qconn = p.conn) (hr : Reach (State.step conf.session) anyStep .start s.state) :
    Accounted conf ((io.addSession conf s).removePendingHandshake conf i false) := by
  have hbooks := hA.books.promote hp hs
  have hlen := length_swapRemove hp
  rw [removePendingHandshake_eq (addSession_pending s hp), addSession_eq] at hbooks ⊢
  refine ⟨hbooks, ?_, hA.fresh, ?_, ?_, ?_⟩
  · have hlimit := hA.limit
    unfold Io.tracked at hlimit ⊢
    dsimp only
    rw [List.length_append, List.length_singleton]
    omega
  · intro t ht
    rcases List.mem_append.mp ht with ht | ht
    · exact hA.reached t ht
    · rw [List.mem_singleton.mp ht]
      exact hr
  · intro hl
    rw [hpc] at hl
    cases hl
  · intro he
    rw [hpc] at he
    cases he

theorem Accounted.endSession (hA : Accounted conf io) {i : ℕ} {s : ActiveSession}
    (hs : io.activeSessions[i]? = some s) : Accounted conf (io.removeSession conf i s) := by
  have hbooks := hA.books.removeSession hs
  have hlen := length_swapRemove hs
  -- a session in the table: the thread is not leaving
  have hnil : io.activeSessions ≠ [] := by
    intro he
    rw [he] at hs
    cases hs
  rw [removeSession_eq] at hbooks ⊢
  refine ⟨hbooks, ?_, hA.fresh, ?_, ?_, ?_⟩
  · have hlimit := hA.limit
    unfold Io.tracked at hlimit ⊢
    dsimp only
    omega
  · exact fun t ht => hA.reached t (mem_of_mem_swapRemove hs ht)
  · exact fun hl => absurd (hA.leaving hl) hnil
  · exact fun he => absurd (hA.exited he).1 hnil

theorem Accounted.serve (hA : Accounted conf io) {i : ℕ} {s : ActiveSession} {act : Action} {σ : State}
    {pc : ThreadPc} (hpc : Onward io pc) (hs : io.activeSessions[i]? = some s)
    (hσ : s.state.step conf.session act = some σ) :
    Accounted conf { io with activeSessions := io.activeSessions.set i { s with state := σ }, pc := pc } := by
  have hnil : io.activeSessions ≠ [] := by
    intro he
    rw [he] at hs
    cases hs
  refine ⟨hA.books.setSession hs σ pc, ?_, hA.fresh, ?_, ?_, ?_⟩
  · have hlimit := hA.limit
    unfold Io.tracked at hlimit ⊢
    dsimp only
    rw [List.length_set]
    exact hlimit
  · intro t ht
    rcases List.mem_or_eq_of_mem_set ht with ht | rfl
    · exact hA.reached t ht
    · exact (hA.reached s (List.mem_of_getElem? hs)).next trivial hσ
  · intro hl
    rcases hpc.leaving hl with hl | he
    · exact absurd (hA.leaving hl) hnil
    · exact absurd he hnil
  · intro he
    rcases hpc.exited he with he | ⟨hl, -⟩
    · exact absurd (hA.exited he).1 hnil
    · exact absurd (hA.leaving hl) hnil

theorem Accounted.step (hA : Accounted conf io) {act : IoAct} (h : io.step conf act = some io') :
    Accounted conf io' := by
  cases step_ioMove h with
  | turn hpc => exact hA.turn hpc
  | accepted hpc hnew => exact hA.accept hpc hnew
  | dropped hp => exact hA.removePending hp
  | promoted hpc hp hs hr => exact hA.promote hpc hp hs hr
  | ended hs => exact hA.endSession hs
  | served hpc hs hσ => exact hA.serve hpc hs hσ

theorem accounted_reach (h : Reach (Io.step conf) anyStep .start io) : Accounted conf io :=
  h.invariant (accounted_start conf) fun _ _ _ hA _ hs => hA.step hs

/-- A connection that was taken and is in no table has been freed once, and one in a table is
there once and has not been freed. -/
theorem connections_accounted (h : Reach (Io.step conf) anyStep .start io) :
    io.pendingHandshakes.length + io.activeSessions.length ≤ conf.maxConnections ∧
    (conf.notes → io.balance = io.pendingHandshakes.length + io.activeSessions.length) ∧
    io.activeSessionCount = io.activeSessions.length ∧
    (∀ c ∈ io.accepted, io.owners c + io.freed.count c = 1) ∧
    (io.pc = .exited → io.pendingHandshakes = [] ∧ io.activeSessions = [] ∧ io.balance = 0 ∧
      ∀ c ∈ io.accepted, io.freed.count c = 1) := by
  have hA := accounted_reach h
  have hone : ∀ c ∈ io.accepted, io.owners c + io.freed.count c = 1 := by
    intro c hc
    rw [← hA.books.owned]
    exact List.count_eq_one_of_mem hA.fresh hc
  refine ⟨hA.limit, fun hn => ?_, hA.books.count, hone, fun he => ?_⟩
  · rw [hA.books.balance, if_pos hn]
    exact Int.natCast_add _ _
  · obtain ⟨hactive, hpending⟩ := hA.exited he
    refine ⟨hpending, hactive, ?_, fun c hc => ?_⟩
    · rw [hA.books.balance]
      unfold Io.tracked
      rw [hactive, hpending]
      split_ifs <;> rfl
    · have h1 := hone c hc
      unfold Io.owners at h1
      rw [hactive, hpending] at h1
      simpa using h1

end

def sampleIoConf : IoConf := ⟨1, 10, true, sampleConf⟩

/-- One connection is served until its peer closes it; another one comes while the table is full.
Then the thread is stopped. -/
def oneConnection : List IoAct :=
  [.go, .go, .accept (some 5) true 0, .accept (some 6) true 0, .accept none true 1,
    .handshake (.done (.control [some (3, 10), some (7, 11), some (11, 12)] true [true, true, true] true)),
    .go, .session (.flag false), .session (.flag true), .session (.flag true), .go, .stop, .go, .go]

theorem connections_accounted_oneConnection :
    ∃ io, Reach (Io.step sampleIoConf) anyStep .start io ∧ io.accepted = [6, 5] ∧
      (io.pendingHandshakes = [] ∧ io.activeSessions = [] ∧ io.balance = 0 ∧
        ∀ c ∈ io.accepted, io.freed.count c = 1) := by
  have hrun : (runActions (Io.step sampleIoConf) .start oneConnection).map
      (fun io => (io.pc, io.accepted)) = some (.exited, [6, 5]) := by decide +kernel
  obtain ⟨io, hio, he⟩ := Option.map_eq_some_iff.mp hrun
  obtain ⟨hpc, hacc⟩ := Prod.mk.inj he
  have hr := Reach.of_runActions _ hio
  exact ⟨io, hr, hacc, (connections_accounted hr).2.2.2.2 hpc⟩

end ModHttp3.Process
