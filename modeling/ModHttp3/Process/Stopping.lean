import Mathlib.Algebra.BigOperators.Group.List.Basic
import Mathlib.Algebra.GroupWithZero.Nat
import ModHttp3.Process.Listener
import ModHttp3.Process.Resting
import ModHttp3.System.Goaway

/-! The end of a child process: it takes no connections once it drains or stops, its event thread exits when its
sessions are over, and the hook that stops it does not wait for ever. -/
namespace ModHttp3.Process
open Session ModHttp3.System Lib

/-- The part of the loop that takes connections and makes sessions of them. -/
def ThreadPc.admits : ThreadPc → Bool
  | .accepting | .progress _ _ => true
  | _ => false

/-- The thread has seen that it drains or stops. -/
structure Io.Shut (io : Io) : Prop where
  told : (io.threadRunning && !io.draining) = false
  past : io.pc.admits = false

/-- A step of the thread in this state, or of another thread. -/
inductive ShutMove (conf : IoConf) (io : Io) : IoAct → Io → Prop
  | stop : ShutMove conf io .stop { io with threadRunning := false }
  | drain : ShutMove conf io .drain { io with draining := true }
  | worker {j k : ℕ} {w : WorkerAct} {s : ActiveSession} {σ : State} (hs : io.activeSessions[j]? = some s)
      (hσ : s.state.step conf.session (.worker k w) = some σ) :
      ShutMove conf io (.worker j k w) { io with activeSessions := io.activeSessions.set j { s with state := σ } }
  | again (hpc : io.pc = .loop) (hmore : io.threadRunning = true ∨ io.activeSessions ≠ []) :
      ShutMove conf io .go { io with pc := .pumped }
  | leave (hpc : io.pc = .loop) (hnone : io.activeSessions = []) : ShutMove conf io .go { io with pc := .leaving }
  | pumped (hpc : io.pc = .pumped) : ShutMove conf io .go { io with pc := .serving 0 }
  | serve {i : ℕ} {a : Answer} {s : ActiveSession} {σ : State} (hpc : io.pc = .serving i)
      (hs : io.activeSessions[i]? = some s) (hσ : s.state.eventStep conf.session a = some σ) :
      ShutMove conf io (.session a) (if σ.pc = .destroyed then io.removeSession conf i s else
        { io with
          activeSessions := io.activeSessions.set i { s with state := σ }
          pc := if s.state.pc = .passEnd then .serving (i + 1) else .serving i })
  | round {i : ℕ} (hpc : io.pc = .serving i) (hnone : io.activeSessions[i]? = none) :
      ShutMove conf io .go { io with pc := .loop }
  | drop {p : PendingHandshake} (hpc : io.pc = .leaving) (hp : io.pendingHandshakes[0]? = some p) :
      ShutMove conf io .go (io.removePendingHandshake conf 0 true)
  | exit (hpc : io.pc = .leaving) (hnone : io.pendingHandshakes = []) : ShutMove conf io .go { io with pc := .exited }

section
variable {conf : IoConf} {io io' : Io} {act : IoAct}

private theorem loop_move (hpc : io.pc = .loop) (h : io.threadStep conf act = some io') : ShutMove conf io act io' := by
  unfold Io.threadStep at h
  rw [hpc] at h
  cases act with
  | go =>
    cases h
    by_cases hmore : io.threadRunning = true ∨ io.activeSessions ≠ []
    · have hpc' : (io.threadRunning || !io.activeSessions.isEmpty) = true := by simpa using hmore
      rw [if_pos hpc']
      exact .again hpc hmore
    · have hpc' : ¬(io.threadRunning || !io.activeSessions.isEmpty) = true := by simpa using hmore
      rw [if_neg hpc']
      exact .leave hpc (not_not.mp fun hne => hmore (.inr hne))
  | _ => cases h

private theorem leaving_move (hpc : io.pc = .leaving) (h : io.threadStep conf act = some io') : ShutMove conf io act io' := by
  unfold Io.threadStep at h
  rw [hpc] at h
  cases act with
  | go =>
    dsimp only at h
    split_ifs at h with hnone
    · cases h
      exact .exit hpc (List.isEmpty_iff.mp hnone)
    · cases h
      obtain ⟨p, rest, hp⟩ := List.exists_cons_of_ne_nil (mt List.isEmpty_iff.mpr hnone)
      refine .drop (p := p) hpc ?_
      rw [hp]
      rfl
  | _ => cases h

theorem Io.Shut.move (hS : io.Shut) (h : io.step conf act = some io') : ShutMove conf io act io' := by
  cases hact : act.ofThread with
  | false =>
    cases act with
    | stop =>
      cases h
      exact .stop
    | drain =>
      cases h
      exact .drain
    | worker j k w =>
      obtain ⟨s, hs, h⟩ := Option.bind_eq_some_iff.mp h
      obtain ⟨σ, hσ, h⟩ := Option.bind_eq_some_iff.mp h
      cases h
      exact .worker hs hσ
    | _ => cases hact
  | true =>
    rw [step_ofThread hact] at h
    have hpast := hS.past
    cases hpc : io.pc with
    | loop => exact loop_move hpc h
    | pumped =>
      unfold Io.threadStep at h
      rw [hpc] at h
      cases act with
      | go =>
        simp only [hS.told, Bool.false_eq_true, if_false, Option.some.injEq] at h
        subst h
        exact .pumped hpc
      | _ => cases h
    | accepting | progress =>
      rw [hpc] at hpast
      cases hpast
    | serving i =>
      rcases threadStep_inServing hpc h with ⟨s, a, rfl, hs, hserve⟩ | ⟨rfl, hnone, rfl⟩
      · obtain ⟨σ, hσ, rfl⟩ := Option.map_eq_some_iff.mp hserve
        exact .serve hpc hs hσ
      · exact .round hpc hnone
    | leaving => exact leaving_move hpc h
    | exited =>
      unfold Io.threadStep at h
      rw [hpc] at h
      cases h

theorem Io.Shut.step (hS : io.Shut) (h : io.step conf act = some io') : io'.Shut := by
  have htold := hS.told
  have hpast := hS.past
  cases hS.move h with
  | stop => exact ⟨rfl, hpast⟩
  | drain => exact ⟨by simp, hpast⟩
  | worker => exact ⟨htold, hpast⟩
  | serve =>
    split_ifs
    · rw [removeSession_eq]
      exact ⟨htold, hpast⟩
    · exact ⟨htold, rfl⟩
    · exact ⟨htold, rfl⟩
  | drop hpc hp =>
    rw [removePendingHandshake_eq hp]
    exact ⟨htold, hpast⟩
  | _ => exact ⟨htold, rfl⟩

theorem conns_set {i : ℕ} {s : ActiveSession} (hs : io.activeSessions[i]? = some s) (σ : State) :
    (io.activeSessions.set i { s with state := σ }).map ActiveSession.qconn =
      io.activeSessions.map ActiveSession.qconn :=
  map_set_same hs rfl

/-- What has become of the connections since the thread saw that it drains or stops. -/
structure Dwindled (io io' : Io) : Prop where
  shut : io'.Shut
  accepted : io'.accepted = io.accepted
  sessions : (io'.activeSessions.map ActiveSession.qconn).Subperm (io.activeSessions.map ActiveSession.qconn)
  pending : io'.pendingHandshakes = io.pendingHandshakes ∨ io'.pc = .leaving ∨ io'.pc = .exited

theorem Dwindled.step {io'' : Io} (hD : Dwindled io io') (h : io'.step conf act = some io'') : Dwindled io io'' := by
  have hshut := hD.shut.step h
  have hsub := hD.sessions
  have hpending := hD.pending
  cases hD.shut.move h with
  | worker hs hσ => exact ⟨hshut, hD.accepted, (conns_set hs _).symm ▸ hsub, hpending⟩
  | @serve i a s σ hpc hs hσ =>
    have hsame : io'.pendingHandshakes = io.pendingHandshakes := by
      refine hpending.resolve_right ?_
      rw [hpc]
      exact fun hne => hne.elim ThreadPc.noConfusion ThreadPc.noConfusion
    split_ifs at hshut ⊢
    · rw [removeSession_eq] at hshut ⊢
      refine ⟨hshut, hD.accepted, List.Subperm.trans ?_ hsub, .inl hsame⟩
      have hperm := (cons_swapRemove_perm hs).map ActiveSession.qconn
      exact ((List.sublist_cons_self _ _).subperm).trans hperm.subperm
    · exact ⟨hshut, hD.accepted, (conns_set hs σ).symm ▸ hsub, .inl hsame⟩
    · exact ⟨hshut, hD.accepted, (conns_set hs σ).symm ▸ hsub, .inl hsame⟩
  | drop hpc hp =>
    rw [removePendingHandshake_eq hp] at hshut ⊢
    exact ⟨hshut, hD.accepted, hsub, .inr (.inl hpc)⟩
  | leave => exact ⟨hshut, hD.accepted, hsub, .inr (.inl rfl)⟩
  | exit => exact ⟨hshut, hD.accepted, hsub, .inr (.inr rfl)⟩
  | again hpc | pumped hpc | round hpc =>
    have hsame : io'.pendingHandshakes = io.pendingHandshakes := by
      refine hpending.resolve_right ?_
      rw [hpc]
      exact fun hne => hne.elim ThreadPc.noConfusion ThreadPc.noConfusion
    exact ⟨hshut, hD.accepted, hsub, .inl hsame⟩
  | _ => exact ⟨hshut, hD.accepted, hsub, hpending⟩

/-- Once the thread has seen that it drains or stops, it accepts no connection and makes no session of those whose
handshake is pending; it drops these when it leaves, and until then it does not look at them. -/
theorem draining_admits_none (hS : io.Shut) (h : Reach (Io.step conf) anyStep io io') :
    io'.accepted = io.accepted ∧
    (io'.activeSessions.map ActiveSession.qconn).Subperm (io.activeSessions.map ActiveSession.qconn) ∧
    (io'.pendingHandshakes = io.pendingHandshakes ∨ io'.pc = .leaving ∨ io'.pc = .exited) := by
  have hD : Dwindled io io' :=
    h.invariant ⟨hS, rfl, List.Subperm.refl _, .inl rfl⟩ fun _ _ _ hD _ hs => hD.step hs
  exact ⟨hD.accepted, hD.sessions, hD.pending⟩

end

/-- A child drains while a handshake is pending. -/
def drainPending : List IoAct :=
  [.go, .go, .accept (some 5) true 0, .accept none true 1, .handshake .waiting, .go, .go, .drain]

theorem draining_admits_none_pending :
    ∃ io io', io.Shut ∧ Reach (Io.step sampleIoConf) anyStep io io' ∧ io'.pc = .exited ∧ io.accepted = [5] ∧
      io'.accepted = io.accepted := by
  have hrun : ((runActions (Io.step sampleIoConf) .start drainPending).bind fun io =>
      (runActions (Io.step sampleIoConf) io [.go, .go, .go, .stop, .go, .go, .go]).map fun io' =>
        (io.threadRunning && !io.draining, io.pc, io.accepted, io'.pc)) = some (false, .loop, [5], .exited) := by
    decide +kernel
  obtain ⟨io, -, h⟩ := Option.bind_eq_some_iff.mp hrun
  obtain ⟨io', hio', he⟩ := Option.map_eq_some_iff.mp h
  simp only [Prod.mk.injEq] at he
  obtain ⟨htold, hpc, haccepted, hpc'⟩ := he
  have hS : io.Shut := ⟨htold, by rw [hpc]; rfl⟩
  have hr := Reach.of_runActions _ hio'
  exact ⟨io, io', hS, hr, hpc', haccepted, (draining_admits_none hS hr).1⟩

/-- Steps of the thread until a session that is over leaves the table, by the place in its pass. -/
def turns (pc : EventPc) : ℕ := if pc = .passEnd then 1 else 2

/-- Steps of a round of the thread's loop with `n` sessions that are over. -/
def lap (n : ℕ) : ℕ := if n = 0 then 0 else 2 * n + 3

/-- Steps of a stopped thread until it exits, if its sessions are over. Those that the loop has passed need another
round. -/
def leftAt (pc : ThreadPc) (table : List (Conn × EventPc)) (pending : ℕ) : ℕ :=
  match pc with
  | .loop => lap table.length + pending + 2
  | .pumped => 2 * table.length + pending + 4
  | .serving i => ((table.drop i).map fun e => turns e.2).sum + lap (table.take i).length + pending + 3
  | .leaving => pending + 1
  | .accepting | .progress _ _ | .exited => 0

def Io.left (io : Io) : ℕ := leftAt io.pc io.table io.pendingHandshakes.length

/-- The call of `h3q_conn_shutdown` with `is_rapid` returns 1. -/
def Io.rapid (io : Io) (act : IoAct) : Bool :=
  match io.pc, act with
  | .serving i, .session (.flag false) => (io.activeSessions[i]?).all fun s => s.state.pc != .passEnd
  | _, _ => true

/-- The thread is stopped and all its sessions are over. -/
structure Io.Winding (io : Io) : Prop where
  stopped : io.threadRunning = false
  past : io.pc.admits = false
  resting : io.Resting
  ended : ∀ s ∈ io.activeSessions, s.state.ended ∧ s.state.session.activeTasks = 0

section
variable {conf : SessionConf} {σ σ' : State}

/-- The two steps of a pass on a session that is over. -/
private theorem ended_pass {a : Answer} (hE : σ.ended) (hidle : σ.session.activeTasks = 0)
    (hin : σ.pc.inService = true) (h : σ.eventStep conf a = some σ') :
    σ.pc = .passStart ∧ σ' = { σ with pc := .passEnd } ∨
      σ.pc = .passEnd ∧ ∃ done, a = .flag done ∧ (done = true → σ'.pc = .destroyed) := by
  obtain ⟨haborted, hpc⟩ := hE
  unfold State.eventStep at h
  rcases hpc with hpc | hpc | hpc
  · rw [hpc] at h
    cases a <;> simp only [haborted, if_true, Option.some.injEq, reduceCtorEq] at h
    exact .inl ⟨hpc, h.symm⟩
  · rw [hpc] at h
    cases a with
    | flag done =>
      refine .inr ⟨hpc, done, rfl, fun hdone => ?_⟩
      simp only [haborted, hdone, hidle, Bool.and_self, beq_self_eq_true, if_true, Option.some.injEq] at h
      rw [← h]
    | _ => cases h
  · rw [hpc] at hin
    cases hin

private theorem workerStep_activeTasks {s s' : H3Session} {free : Bool} {t : Task} {w : WorkerAct}
    {p : ModHttp3.System.Phase} (h : workerStep s free t w = some (s', p)) : s'.activeTasks ≤ s.activeTasks := by
  cases workerStep_work h with
  | release => exact Nat.sub_le _ _
  | leave => exact Nat.sub_le _ _
  | _ => exact Nat.le_refl _

/-- A worker does not bring the session back. -/
private theorem over_worker {k : ℕ} {w : WorkerAct} (hE : σ.ended ∧ σ.session.activeTasks = 0)
    (h : σ.step conf (.worker k w) = some σ') : σ'.ended ∧ σ'.session.activeTasks = 0 := by
  refine ⟨(hE.1.step h).1, ?_⟩
  obtain ⟨t, ht, h⟩ := Option.bind_eq_some_iff.mp h
  obtain ⟨next, hw, h⟩ := Option.bind_eq_some_iff.mp h
  cases h
  have hle := workerStep_activeTasks hw
  rw [hE.2] at hle
  exact Nat.le_zero.mp hle

end

section
variable {conf : IoConf} {io io' : Io} {act : IoAct} {i : ℕ} {s : ActiveSession}

theorem Io.Winding.shut (hW : io.Winding) : io.Shut := by
  refine ⟨?_, hW.past⟩
  rw [hW.stopped]
  rfl

theorem Io.Winding.at (hW : io.Winding) (hs : io.activeSessions[i]? = some s) :
    s.state.ended ∧ s.state.session.activeTasks = 0 :=
  hW.ended s (List.mem_of_getElem? hs)

theorem over_set {σ : State} (hover : ∀ s ∈ io.activeSessions, s.state.ended ∧ s.state.session.activeTasks = 0)
    (hσ : σ.ended ∧ σ.session.activeTasks = 0) :
    ∀ t ∈ io.activeSessions.set i { s with state := σ }, t.state.ended ∧ t.state.session.activeTasks = 0 := by
  intro t ht
  rcases List.mem_or_eq_of_mem_set ht with ht | rfl
  · exact hover t ht
  · exact hσ

private theorem sum_turns {l : List (Conn × EventPc)} (h : ∀ e ∈ l, e.2 = .passStart) :
    (l.map fun e => turns e.2).sum = 2 * l.length := by
  induction l with
  | nil => rfl
  | cons e l ih =>
    have htwo : turns e.2 = 2 := by
      rw [h e List.mem_cons_self]
      rfl
    rw [List.map_cons, List.sum_cons, htwo, ih fun x hx => h x (List.mem_cons_of_mem _ hx), List.length_cons]
    omega

/-- The first step of a pass. -/
private theorem turns_set {l : List (Conn × EventPc)} {conn : Conn} (he : l[i]? = some (conn, .passStart)) :
    (((l.set i (conn, .passEnd)).drop i).map fun e => turns e.2).sum + 1 =
      ((l.drop i).map fun e => turns e.2).sum := by
  obtain ⟨hi, hget⟩ := List.getElem?_eq_some_iff.mp he
  rw [List.drop_eq_getElem_cons hi, List.drop_eq_getElem_cons (by rwa [List.length_set]), List.getElem_set_self,
    List.drop_set_of_lt (Nat.lt_add_one i), List.map_cons, List.map_cons, List.sum_cons, List.sum_cons, hget]
  have hone : turns (conn, EventPc.passEnd).2 = 1 := rfl
  have htwo : turns (conn, EventPc.passStart).2 = 2 := rfl
  omega

/-- The second one. -/
private theorem turns_swapRemove {l : List (Conn × EventPc)} {conn : Conn} (he : l[i]? = some (conn, .passEnd)) :
    (((swapRemove l i).drop i).map fun e => turns e.2).sum + 1 = ((l.drop i).map fun e => turns e.2).sum := by
  have hsum := ((cons_drop_swapRemove_perm he).map fun e => turns e.2).sum_eq
  have hone : turns (conn, EventPc.passEnd).2 = 1 := rfl
  rw [List.map_cons, List.sum_cons] at hsum
  omega

/-- A pass on a session that is over takes one of its steps. -/
theorem Io.Winding.pass (hW : io.Winding) {a : Answer} {σ : State} (hpc : io.pc = .serving i)
    (hs : io.activeSessions[i]? = some s) (hσ : s.state.eventStep conf.session a = some σ)
    (hok : io.rapid (.session a)) :
    s.state.pc = .passStart ∧ σ = { s.state with pc := .passEnd } ∨ s.state.pc = .passEnd ∧ σ.pc = .destroyed := by
  obtain ⟨hE, hidle⟩ := hW.at hs
  refine (ended_pass hE hidle (hW.resting.serving hpc hs) hσ).imp_right fun ⟨hend, done, ha, hdone⟩ => ⟨hend, hdone ?_⟩
  subst ha
  cases done with
  | true => rfl
  | false =>
    unfold Io.rapid at hok
    rw [hpc] at hok
    dsimp only at hok
    rw [hs, Option.all_some, hend] at hok
    cases hok

theorem Io.Winding.serve (hW : io.Winding) {a : Answer} (hpc : io.pc = .serving i)
    (hs : io.activeSessions[i]? = some s) (hok : io.rapid (.session a))
    (h : io.serveSession conf i s a = some io') : io'.Winding ∧ io'.left + 1 ≤ io.left := by
  have hR := hW.resting.serve hpc hs (serve_serveMove hpc (hW.resting.serving hpc hs) h)
  obtain ⟨σ, hσ, rfl⟩ := Option.map_eq_some_iff.mp h
  rcases hW.pass hpc hs hσ hok with ⟨hbegin, rfl⟩ | ⟨hend, hd⟩
  · have hset := turns_set (hbegin ▸ table_getElem hs)
    rw [if_neg EventPc.noConfusion, if_neg (by rw [hbegin]; exact EventPc.noConfusion)] at hR ⊢
    refine ⟨⟨hW.stopped, rfl, hR, over_set hW.ended ⟨⟨(hW.at hs).1.1, .inr (.inl rfl)⟩, (hW.at hs).2⟩⟩, ?_⟩
    have htable : (io.activeSessions.set i { s with state := { s.state with pc := .passEnd } }).map
        (fun s => (s.qconn, s.state.pc)) = io.table.set i (s.qconn, .passEnd) := List.map_set
    change leftAt (.serving i) (List.map _ _) _ + 1 ≤ leftAt io.pc _ _
    rw [htable, hpc]
    simp only [leftAt, List.take_set_of_le (Nat.le_refl i)]
    omega
  · have hset := turns_swapRemove (hend ▸ table_getElem hs)
    rw [if_pos hd, removeSession_eq] at hR ⊢
    refine ⟨⟨hW.stopped, hW.past, hR, fun t ht => hW.ended t (mem_of_mem_swapRemove hs ht)⟩, ?_⟩
    change leftAt io.pc (List.map _ (swapRemove _ _)) _ + 1 ≤ leftAt io.pc _ _
    rw [map_swapRemove, hpc]
    change leftAt _ (swapRemove io.table i) _ + 1 ≤ _
    simp only [leftAt, take_swapRemove (table_getElem hs)]
    omega

/-- A step of the thread that leaves the sessions alone. -/
theorem Io.Winding.onward (hW : io.Winding) (hR : io'.Resting) (hpast : io'.pc.admits = false)
    (hstop : io'.threadRunning = false) (hsame : io'.activeSessions = io.activeSessions)
    (hleft : leftAt io'.pc io.table io'.pendingHandshakes.length + 1 ≤
      leftAt io.pc io.table io.pendingHandshakes.length) : io'.Winding ∧ io'.left + 1 ≤ io.left := by
  refine ⟨⟨hstop, hpast, hR, ?_⟩, ?_⟩
  · rw [hsame]
    exact hW.ended
  · unfold Io.left Io.table at *
    rw [hsame]
    exact hleft

theorem Io.Winding.step (hW : io.Winding) (hok : io.rapid act) (h : io.step conf act = some io') :
    io'.Winding ∧ io'.left + (if act.ofThread then 1 else 0) ≤ io.left := by
  have hR := hW.resting.step h
  have hpast := (hW.shut.step h).past
  cases hW.shut.move h with
  | stop => exact ⟨⟨rfl, hpast, hR, hW.ended⟩, Nat.le_refl _⟩
  | drain => exact ⟨⟨hW.stopped, hpast, hR, hW.ended⟩, Nat.le_refl _⟩
  | @worker j k w t σ hs hσ =>
    obtain ⟨-, -, htable⟩ := step_aside rfl h
    refine ⟨⟨hW.stopped, hpast, hR, over_set hW.ended (over_worker (hW.at hs) hσ)⟩, ?_⟩
    unfold Io.left
    rw [htable]
    exact Nat.le_refl _
  | again hpc hmore =>
    have hne : io.table.length ≠ 0 := by
      rcases hmore with hrun | hne
      · rw [hW.stopped] at hrun
        cases hrun
      · unfold Io.table
        rw [List.length_map]
        exact mt List.length_eq_zero_iff.mp hne
    apply hW.onward hR hpast hW.stopped rfl
    simp only [hpc, leftAt, lap, if_neg hne]
    omega
  | leave hpc hnone =>
    apply hW.onward hR hpast hW.stopped rfl
    simp only [hpc, leftAt]
    omega
  | pumped hpc =>
    have hsum := sum_turns (hW.resting.all (by rw [hpc]; rfl))
    apply hW.onward hR hpast hW.stopped rfl
    simp only [hpc, leftAt, lap, List.drop_zero, List.take_zero, List.length_nil, if_true]
    omega
  | @serve i a s σ hpc hs hσ =>
    have hserve := h
    rw [step_ofThread rfl, threadStep_serving hpc, hs, Option.bind_some] at hserve
    exact hW.serve hpc hs hok hserve
  | @round i hpc hnone =>
    have hlen := List.getElem?_eq_none_iff.mp (table_getElem_none hnone)
    apply hW.onward hR hpast hW.stopped rfl
    simp only [hpc, leftAt, List.drop_eq_nil_of_le hlen, List.take_of_length_le hlen]
    omega
  | drop hpc hp =>
    have hlen := length_swapRemove hp
    rw [removePendingHandshake_eq hp] at hR hpast ⊢
    apply hW.onward hR hpast hW.stopped rfl
    simp only [hpc, leftAt]
    omega
  | exit hpc hnone =>
    apply hW.onward hR hpast hW.stopped rfl
    simp only [hpc, leftAt]
    omega

/-- The thread can take the next step of a pass. -/
private theorem ended_goes (conf : SessionConf) {σ : State} (hE : σ.ended) (hin : σ.pc.inService = true) :
    ∃ σ', σ.eventStep conf (.flag true) = some σ' := by
  obtain ⟨haborted, hpc⟩ := hE
  unfold State.eventStep
  rcases hpc with hpc | hpc | hpc
  · rw [hpc]
    exact ⟨_, if_pos haborted⟩
  · rw [hpc]
    dsimp only
    split_ifs
    · exact ⟨_, rfl⟩
    · exact ⟨_, rfl⟩
  · rw [hpc] at hin
    cases hin

/-- A thread that has not exited can go on. -/
theorem Io.Winding.goes (hW : io.Winding) (conf : IoConf) (hne : io.pc ≠ .exited) :
    ∃ act io', act.ofThread = true ∧ io.rapid act = true ∧ io.step conf act = some io' := by
  have hpast := hW.past
  have hgo : (∃ io', io.threadStep conf .go = some io') →
      ∃ act io', act.ofThread = true ∧ io.rapid act = true ∧ io.step conf act = some io' := by
    rintro ⟨io', hio⟩
    refine ⟨.go, io', rfl, ?_, hio⟩
    unfold Io.rapid
    cases io.pc <;> rfl
  cases hpc : io.pc with
  | loop | pumped =>
    apply hgo
    unfold Io.threadStep
    rw [hpc]
    exact ⟨_, rfl⟩
  | accepting | progress =>
    rw [hpc] at hpast
    cases hpast
  | serving i =>
    cases hs : io.activeSessions[i]? with
    | none =>
      apply hgo
      unfold Io.threadStep
      rw [hpc]
      exact ⟨_, if_pos (Option.isNone_iff_eq_none.mpr hs)⟩
    | some s =>
      obtain ⟨σ, hσ⟩ := ended_goes conf.session (hW.at hs).1 (hW.resting.serving hpc hs)
      have hserve : ∃ io', io.threadStep conf (.session (.flag true)) = some io' := by
        rw [threadStep_serving hpc, hs, Option.bind_some]
        exact ⟨_, congrArg (Option.map _) hσ⟩
      obtain ⟨io', hio⟩ := hserve
      refine ⟨.session (.flag true), io', rfl, ?_, hio⟩
      unfold Io.rapid
      cases io.pc <;> rfl
  | leaving =>
    apply hgo
    unfold Io.threadStep
    rw [hpc]
    dsimp only
    split_ifs
    · exact ⟨_, rfl⟩
    · exact ⟨_, rfl⟩
  | exited => exact absurd hpc hne

end

/-- Steps of the thread that brings up the listener until it is finished, once the child is stopping. -/
def Starter.left : Starter → ℕ
  | .looping | .opened _ | .failed _ => 1
  | .opening => 2
  | .starting .wakeup _ => 5
  | .starting .workerPool _ => 4
  | .starting .engine _ => 3
  | .starting .eventThread _ => 2
  | .finished => 0

/-- A hook that waits has set `child_stopping`, and if it waits for a thread that is the acquirer. -/
structure Child.Waits (σ : Child) : Prop where
  stopping : σ.stopping = true
  acquirer : σ.acquirer = true ∨ σ.starter = .finished
  pool : σ.pchild = true

namespace Child

variable {σ σ' : Child} {a : ChildAct}

theorem teardown_keeps (σ : Child) : σ.teardown.stopping = σ.stopping ∧ σ.teardown.acquirer = σ.acquirer ∧
    σ.teardown.joining = σ.joining ∧ σ.teardown.pchild = σ.pchild := by
  unfold Child.teardown
  cases σ.io <;> exact ⟨rfl, rfl, rfl, rfl⟩

theorem listenCall_keeps (ok : Bool) (stage : Stage) (fd : ℕ) (σ : Child) :
    (listenCall ok stage fd σ).stopping = σ.stopping ∧ (listenCall ok stage fd σ).acquirer = σ.acquirer ∧
      (listenCall ok stage fd σ).joining = σ.joining ∧ (listenCall ok stage fd σ).pchild = σ.pchild := by
  have hkeeps := teardown_keeps σ
  cases stage <;> cases ok <;> first | exact ⟨rfl, rfl, rfl, rfl⟩ | exact hkeeps

private theorem listenCall_left (ok : Bool) (stage : Stage) (fd : ℕ) (σ : Child) :
    (listenCall ok stage fd σ).starter.left < (Starter.starting stage fd).left := by
  cases stage <;> cases ok <;> simp [listenCall, Starter.left]

private theorem not_mainFree {graceful : Bool} (hj : σ.joining = some graceful) : σ.mainFree = false := by
  unfold mainFree
  rw [hj]
  exact Bool.and_false _

/-- While a hook waits only the acquirer takes steps, and each brings its end nearer. -/
theorem Waits.step (hW : σ.Waits) {graceful : Bool} (hj : σ.joining = some graceful) (ha : a ≠ .joined)
    (h : σ.step a = some σ') :
    σ'.joining = some graceful ∧ σ'.Waits ∧ σ'.starter.left < σ.starter.left := by
  obtain ⟨hstop, hacq, hpool⟩ := hW
  replace h : σ.act a = some σ' := (if_pos hpool).symm.trans h
  have hbusy := not_mainFree hj
  cases a with
  | skip =>
    obtain ⟨⟨hs, hno⟩, -⟩ := Option.ite_none_right_eq_some.mp h
    rw [hs, hno] at hacq
    rcases hacq with he | he <;> cases he
  | socketOpen answer threadCreated =>
    obtain ⟨hs, h⟩ := Option.ite_none_right_eq_some.mp h
    cases h
    have hyes : σ.acquirer = true := hacq.resolve_right (by rw [hs]; exact Starter.noConfusion)
    unfold Child.socketOpen
    rw [hyes, hs]
    cases answer with
    | eagain => exact ⟨hj, ⟨hstop, .inl rfl, hpool⟩, Nat.lt_succ_self 1⟩
    | failure => exact ⟨hj, ⟨hstop, .inl rfl, hpool⟩, Nat.succ_pos 1⟩
    | socket => exact ⟨hj, ⟨hstop, .inl rfl, hpool⟩, Nat.lt_succ_self 1⟩
  | check =>
    simp only [Child.act, hstop, if_true] at h
    split at h
    · rename_i hs
      cases h
      rw [hs]
      exact ⟨hj, ⟨rfl, .inr rfl, hpool⟩, Nat.succ_pos 0⟩
    · rename_i fd hs
      cases h
      rw [hs]
      exact ⟨hj, ⟨hstop, .inr rfl, hpool⟩, Nat.succ_pos 0⟩
    · cases h
  | call ok =>
    simp only [Child.act] at h
    split at h
    · rename_i stage fd hs
      cases h
      have hyes : σ.acquirer = true := hacq.resolve_right (by rw [hs]; exact Starter.noConfusion)
      obtain ⟨hstop', hacq', hj', hpool'⟩ := listenCall_keeps ok stage fd σ
      rw [hs]
      exact ⟨hj'.trans hj, ⟨hstop'.trans hstop, .inl (hacq'.trans hyes), hpool'.trans hpool⟩,
        listenCall_left ok stage fd σ⟩
    · cases h
  | socketClose =>
    simp only [Child.act] at h
    split at h
    · rename_i fd hs
      cases h
      rw [hs]
      exact ⟨hj, ⟨hstop, .inr rfl, hpool⟩, Nat.succ_pos 0⟩
    · cases h
  | stopping graceful =>
    rw [Child.act, hbusy] at h
    cases h
  | joined => exact absurd rfl ha
  | stopped =>
    rw [Child.act, hbusy] at h
    cases h
  | preCleanup =>
    rw [Child.act, hbusy] at h
    cases h
  | poolDestroy =>
    rw [Child.act, hbusy] at h
    cases h

private theorem socketOpen_joining (answer : OpenAnswer) (threadCreated : Bool) (σ : Child) :
    (σ.socketOpen answer threadCreated).joining = σ.joining := by
  unfold Child.socketOpen
  split
  · rfl
  · split_ifs <;> rfl
  · rfl
  · rfl
  · rfl

/-- A hook begins to wait in a step of its own. -/
private theorem step_joining (hj : σ.joining = none) (h : σ.step a = some σ') : σ'.joining = none ∨ σ'.Waits := by
  obtain ⟨hpool, h⟩ := Option.ite_none_right_eq_some.mp h
  cases a with
  | skip =>
    obtain ⟨-, h⟩ := Option.ite_none_right_eq_some.mp h
    cases h
    exact .inl hj
  | socketOpen answer threadCreated =>
    obtain ⟨-, h⟩ := Option.ite_none_right_eq_some.mp h
    cases h
    exact .inl ((socketOpen_joining answer threadCreated σ).trans hj)
  | check =>
    simp only [Child.act] at h
    split at h
    · cases h
      exact .inl hj
    · cases h
      split_ifs <;> exact .inl hj
    · cases h
  | call ok =>
    simp only [Child.act] at h
    split at h
    · rename_i stage fd hs
      cases h
      exact .inl ((listenCall_keeps ok stage fd σ).2.2.1.trans hj)
    · cases h
  | socketClose =>
    simp only [Child.act] at h
    split at h
    · cases h
      exact .inl hj
    · cases h
  | stopping graceful =>
    obtain ⟨hfree, h⟩ := Option.ite_none_right_eq_some.mp h
    cases h
    have hboth := (Bool.and_eq_true_iff.mp hfree).1
    exact .inr ⟨rfl, (Bool.or_eq_true_iff.mp hboth).imp_right beq_iff_eq.mp, hpool⟩
  | joined =>
    simp only [Child.act, hj] at h
    cases h
  | stopped =>
    obtain ⟨-, h⟩ := Option.ite_none_right_eq_some.mp h
    cases h
    unfold Child.listenStop
    split_ifs
    · exact .inl ((teardown_keeps σ).2.2.1.trans hj)
    · exact .inl hj
  | preCleanup =>
    obtain ⟨-, h⟩ := Option.ite_none_right_eq_some.mp h
    cases h
    unfold Child.listenStopCleanup
    split_ifs
    · exact .inl ((teardown_keeps σ).2.2.1.trans hj)
    · exact .inl hj
  | poolDestroy =>
    obtain ⟨-, h⟩ := Option.ite_none_right_eq_some.mp h
    cases h
    exact .inl hj

private theorem waits_reach (h : Reach step anyStep start σ) : σ.joining = none ∨ σ.Waits := by
  refine h.invariant (I := fun σ => σ.joining = none ∨ σ.Waits) (.inl rfl) ?_
  intro σ a σ' hI _ hs
  cases hj : σ.joining with
  | none => exact step_joining hj hs
  | some graceful =>
    have hW := hI.resolve_left (by rw [hj]; exact Option.some_ne_none _)
    by_cases ha : a = .joined
    · subst ha
      obtain ⟨-, hs⟩ := Option.ite_none_right_eq_some.mp hs
      simp only [Child.act, hj] at hs
      split at hs
      · cases hs
        exact .inl rfl
      · cases hs
    · exact .inr (hW.step hj ha hs).2.1

/-- The acquirer can go on until it is finished, and then the hook can. -/
theorem Waits.goes (hW : σ.Waits) {graceful : Bool} (hj : σ.joining = some graceful) : ∃ a σ', σ.step a = some σ' := by
  suffices hact : ∃ a σ', σ.act a = some σ' by
    obtain ⟨a, σ', h⟩ := hact
    exact ⟨a, σ', (if_pos hW.pool).trans h⟩
  cases hs : σ.starter with
  | looping => exact ⟨.check, _, by simp only [Child.act, hs]; rfl⟩
  | opening => exact ⟨.socketOpen .failure true, _, by simp only [Child.act, hs]; rfl⟩
  | opened fd => exact ⟨.check, _, by simp only [Child.act, hs]; rfl⟩
  | starting stage fd => exact ⟨.call true, _, by simp only [Child.act, hs]; rfl⟩
  | failed fd => exact ⟨.socketClose, _, by simp only [Child.act, hs]; rfl⟩
  | finished => exact ⟨.joined, _, by simp only [Child.act, hs, hj]; rfl⟩

/-- The hook that stops the child waits for no more than five steps of the port acquirer, wherever that is, and the
acquirer is never stuck. -/
theorem join_returns (h : Reach step anyStep start σ) {graceful : Bool} (hj : σ.joining = some graceful)
    {acts : List ChildAct} (hrun : runChecked step (fun _ a => a ≠ .joined) σ acts = some σ') :
    acts.length ≤ 5 ∧ ∃ a σ'', σ'.step a = some σ'' := by
  have hW : σ.Waits := (waits_reach h).resolve_left (by rw [hj]; exact Option.some_ne_none _)
  obtain ⟨⟨hj', hW'⟩, hleft⟩ := runChecked_bound (I := fun σ => σ.joining = some graceful ∧ σ.Waits)
    (fun σ => σ.starter.left) (fun _ => true) (fun s a t hI hok hs => by
      obtain ⟨hjt, hWt, hlt⟩ := hI.2.step hI.1 hok hs
      exact ⟨⟨hjt, hWt⟩, hlt⟩) acts hrun ⟨hj, hW⟩
  have hmax : σ.starter.left ≤ 5 := by
    unfold Starter.left
    split <;> omega
  rw [List.countP_true] at hleft
  exact ⟨by omega, hW'.goes hj'⟩

/-- The child is stopped while the acquirer starts the listener, the engine of which it cannot create. -/
theorem join_returns_noEngine :
    ∃ σ σ', Reach step anyStep start σ ∧ σ.joining = some false ∧
      runChecked step (fun _ a => a ≠ .joined) σ [.call true, .call true, .call false, .socketClose] = some σ' ∧
      ∃ a σ'', σ'.step a = some σ'' := by
  have hrun : ((runActions step start
      [.socketOpen .eagain true, .check, .socketOpen .socket true, .check, .stopping false]).bind fun σ =>
        (runChecked step (fun _ a => a ≠ .joined) σ [.call true, .call true, .call false, .socketClose]).map fun _ =>
          σ.joining) = some (some false) := by decide +kernel
  obtain ⟨σ, hσ, h⟩ := Option.bind_eq_some_iff.mp hrun
  obtain ⟨σ', hσ', hj⟩ := Option.map_eq_some_iff.mp h
  have hr := Reach.of_runActions _ hσ
  exact ⟨σ, σ', hr, hj, hσ', (join_returns hr hj hσ').2⟩

end Child

end ModHttp3.Process
