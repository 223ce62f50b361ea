import ModHttp3.Process.Accounting
import ModHttp3.System.Moves

/-! Where the thread is in the passes of its sessions: between two runs of the loop over the sessions no pass
has begun, and inside the loop at most the one on the session at the index. -/
namespace ModHttp3.Process
open Session ModHttp3.System Lib

/-- The thread itself takes the step. -/
def IoAct.ofThread : IoAct → Bool
  | .stop | .drain | .worker _ _ _ => false
  | _ => true

def ThreadPc.inServing : ThreadPc → Bool
  | .serving _ => true
  | _ => false

/-- The sessions in the table, each with the place of the thread in its pass. -/
def Io.table (io : Io) : List (Conn × EventPc) := io.activeSessions.map fun s => (s.qconn, s.state.pc)

/-- The answer to `h3q_conn_shutdown` ends the session. -/
def ActiveSession.destroyedBy (conf : IoConf) (s : ActiveSession) (a : Answer) : Bool :=
  (s.state.eventStep conf.session a).any fun σ => σ.pc = .destroyed

/-- No pass has begun except on the session at the index of the loop over the sessions. -/
def Io.Resting (io : Io) : Prop :=
  match io.pc with
  | .serving i =>
    (∀ e ∈ io.table.eraseIdx i, e.2 = .passStart) ∧ ∀ e, io.table[i]? = some e → e.2.inService = true
  | _ => ∀ e ∈ io.table, e.2 = .passStart

/-- What a step of the thread on the session at `i` does to the table. -/
inductive ServeMove (conf : IoConf) (io : Io) (i : ℕ) (s : ActiveSession) (a : Answer) (io' : Io) : Prop
  | inside {pc : EventPc} (hend : s.state.pc ≠ .passEnd) (hin : pc.inService = true) (hne : pc ≠ .passStart)
      (hpc : io'.pc = .serving i) (ht : io'.table = io.table.set i (s.qconn, pc))
  | kept (hend : s.state.pc = .passEnd) (hd : s.destroyedBy conf a = false)
      (hpc : io'.pc = .serving (i + 1)) (ht : io'.table = io.table.set i (s.qconn, .passStart))
  | removed (hend : s.state.pc = .passEnd) (hd : s.destroyedBy conf a = true)
      (hpc : io'.pc = .serving i) (ht : io'.table = swapRemove io.table i)

section
variable {conf : IoConf} {io io' : Io} {i : ℕ} {act : IoAct} {s : ActiveSession} {a : Answer}

theorem step_ofThread (hact : act.ofThread = true) : io.step conf act = io.threadStep conf act := by
  cases act <;> first | rfl | cases hact

theorem worker_pc {σ σ' : State} {k : ℕ} {a : WorkerAct} (h : σ.step conf.session (.worker k a) = some σ') :
    σ'.pc = σ.pc := by
  obtain ⟨t, -, h⟩ := Option.bind_eq_some_iff.mp h
  obtain ⟨next, -, h⟩ := Option.bind_eq_some_iff.mp h
  cases h
  rfl

/-- Other threads change neither table, nor where the thread is in the passes. -/
theorem step_aside (hact : act.ofThread = false) (h : io.step conf act = some io') :
    io'.pc = io.pc ∧ io'.pendingHandshakes = io.pendingHandshakes ∧ io'.table = io.table := by
  cases act with
  | stop =>
    cases h
    exact ⟨rfl, rfl, rfl⟩
  | drain =>
    cases h
    exact ⟨rfl, rfl, rfl⟩
  | worker j k a =>
    obtain ⟨s, hs, h⟩ := Option.bind_eq_some_iff.mp h
    obtain ⟨σ, hσ, h⟩ := Option.bind_eq_some_iff.mp h
    cases h
    exact ⟨rfl, rfl, map_set_same hs (congrArg (Prod.mk s.qconn) (worker_pc hσ))⟩
  | _ => cases hact

theorem table_getElem (hs : io.activeSessions[i]? = some s) : io.table[i]? = some (s.qconn, s.state.pc) := by
  unfold Io.table
  rw [List.getElem?_map, hs, Option.map_some]

theorem table_getElem_none (hs : io.activeSessions[i]? = none) : io.table[i]? = none := by
  unfold Io.table
  rw [List.getElem?_map, hs, Option.map_none]

theorem serve_serveMove (hpc : io.pc = .serving i) (hin : s.state.pc.inService = true)
    (h : io.serveSession conf i s a = some io') : ServeMove conf io i s a io' := by
  obtain ⟨σ, hσ, rfl⟩ := Option.map_eq_some_iff.mp h
  have hl := eventStep_leads hσ
  have hd : s.destroyedBy conf a = decide (σ.pc = .destroyed) := by
    unfold ActiveSession.destroyedBy
    rw [hσ, Option.any_some]
  by_cases hend : s.state.pc = .passEnd
  · rw [hend] at hl
    generalize hpc' : σ.pc = pc at hl hd ⊢
    cases hl with
    | ended =>
      rw [if_pos rfl, removeSession_eq]
      exact .removed hend hd hpc (map_swapRemove _ _ _)
    | nextPass =>
      rw [if_neg nofun, if_pos hend]
      refine .kept hend hd rfl ?_
      rw [← hpc']
      exact List.map_set
  · obtain ⟨hin', hne⟩ := inService_leads hl hin hend
    have hnot : σ.pc ≠ .destroyed := by
      intro hdestroyed
      rw [hdestroyed] at hin'
      cases hin'
    rw [if_neg hnot, if_neg hend]
    exact .inside hend hin' hne rfl List.map_set

theorem resting_of_all (h : ∀ e ∈ io.table, e.2 = .passStart) : io.Resting := by
  unfold Io.Resting
  split
  · refine ⟨fun e he => h e (List.mem_of_mem_eraseIdx he), fun e he => ?_⟩
    rw [h e (List.mem_of_getElem? he)]
    rfl
  · exact h

theorem Io.Resting.all (h : io.Resting) (hpc : io.pc.inServing = false) : ∀ e ∈ io.table, e.2 = .passStart := by
  unfold Io.Resting at h
  split at h
  · rename_i hserving
    rw [hserving] at hpc
    cases hpc
  · exact h

theorem Io.Resting.at (h : io.Resting) (hpc : io.pc = .serving i) :
    (∀ e ∈ io.table.eraseIdx i, e.2 = .passStart) ∧ ∀ e, io.table[i]? = some e → e.2.inService = true := by
  unfold Io.Resting at h
  rw [hpc] at h
  exact h

theorem Io.Resting.serving (h : io.Resting) (hpc : io.pc = .serving i) (hs : io.activeSessions[i]? = some s) :
    s.state.pc.inService = true :=
  (h.at hpc).2 _ (table_getElem hs)

theorem spawn_frame {conn : Conn} {a : SpawnAnswer} (h : io.spawnServicedSession conf conn a = some io') :
    io'.pc = io.pc ∧ io'.pendingHandshakes = io.pendingHandshakes := by
  rcases spawn_cases h with rfl | ⟨s, rfl, -, -⟩
  · exact ⟨rfl, rfl⟩
  · rw [addSession_eq]
    exact ⟨rfl, rfl⟩

/-- A session that is added has its first pass before it. -/
private theorem spawn_table {conn : Conn} {answer : SpawnAnswer}
    (h : io.spawnServicedSession conf conn answer = some io') :
    io'.table = io.table ∨ io'.table = io.table ++ [(conn, .passStart)] := by
  cases answer with
  | noPool =>
    cases h
    exact .inl rfl
  | noSession =>
    cases h
    exact .inl rfl
  | control opened bound created alive =>
    obtain ⟨σ, hσ, rfl⟩ := Option.map_eq_some_iff.mp h
    split_ifs with hdestroyed
    · exact .inl rfl
    · have hpass : σ.pc = .passStart := by
        obtain ⟨σ₁, h₁, hσ⟩ := Option.bind_eq_some_iff.mp hσ
        have hl₁ := eventStep_leads h₁
        split_ifs at hσ with hfailed
        · cases hσ
          exact absurd hfailed hdestroyed
        · have hl := eventStep_leads hσ
          generalize σ₁.pc = pc₁ at hl₁ hfailed hl
          generalize σ.pc = pc at hl hdestroyed ⊢
          cases hl₁ with
          | opened =>
            cases hl with
            | spawned => rfl
            | notSpawned => exact absurd rfl hdestroyed
          | notOpened => exact absurd rfl hfailed
      right
      rw [addSession_eq, ← hpass]
      exact List.map_append

theorem removePending_table (conf : IoConf) (io : Io) (index : ℕ) (freeConn : Bool) :
    (io.removePendingHandshake conf index freeConn).table = io.table ∧
      (io.removePendingHandshake conf index freeConn).pc = io.pc := by
  cases hp : io.pendingHandshakes[index]? with
  | none =>
    unfold Io.removePendingHandshake
    rw [hp]
    exact ⟨rfl, rfl⟩
  | some p =>
    rw [removePendingHandshake_eq hp]
    exact ⟨rfl, rfl⟩

theorem accept_table (conf : IoConf) (io : Io) (conn : Conn) (prepared : Bool) (now : ℤ) :
    (io.acceptConnection conf conn prepared now).table = io.table ∧
      (io.acceptConnection conf conn prepared now).pc = io.pc := by
  unfold Io.acceptConnection
  dsimp only
  split_ifs
  · exact ⟨rfl, rfl⟩
  · rw [noteConnAdded_eq]
    exact ⟨rfl, rfl⟩

private theorem progress_table {now : ℤ} {p : PendingHandshake} (hpc : io.pc = .progress now i)
    (h : io.progressPendingHandshake conf now i p act = some io') :
    (io'.table = io.table ∨ io'.table = io.table ++ [(p.conn, .passStart)]) ∧ io'.pc.inServing = false := by
  unfold Io.progressPendingHandshake at h
  split at h
  · split_ifs at h
    cases h
    obtain ⟨ht, hpc'⟩ := removePending_table conf io i true
    exact ⟨.inl ht, by rw [hpc', hpc]; rfl⟩
  · split_ifs at h
    split at h
    · cases h
      obtain ⟨ht, hpc'⟩ := removePending_table conf io i true
      exact ⟨.inl ht, by rw [hpc', hpc]; rfl⟩
    · obtain ⟨io₁, hs, rfl⟩ := Option.map_eq_some_iff.mp h
      obtain ⟨ht, hpc'⟩ := removePending_table conf io₁ i false
      rw [ht, hpc', (spawn_frame hs).1, hpc]
      exact ⟨spawn_table hs, rfl⟩
    · cases h
      exact ⟨.inl rfl, rfl⟩
  · cases h

/-- Outside the loop over the sessions the thread only adds sessions, and it enters the loop at its start. -/
theorem threadStep_table (hpc : io.pc.inServing = false) (h : io.threadStep conf act = some io') :
    (io'.table = io.table ∨ ∃ conn, io'.table = io.table ++ [(conn, .passStart)]) ∧
      ∀ j, io'.pc = .serving j → j = 0 := by
  unfold Io.threadStep at h
  split at h
  case h_1 =>
    cases h
    refine ⟨.inl rfl, fun j hj => ?_⟩
    dsimp only at hj
    split_ifs at hj
  case h_2 =>
    cases h
    refine ⟨.inl rfl, fun j hj => ?_⟩
    dsimp only at hj
    split_ifs at hj
    cases hj
    rfl
  case h_3 =>
    cases h
    exact ⟨.inl rfl, nofun⟩
  case h_4 conn prepared now hacc =>
    split_ifs at h
    cases h
    obtain ⟨ht, hpc'⟩ := accept_table conf io conn prepared now
    rw [ht, hpc', hacc]
    exact ⟨.inl rfl, nofun⟩
  case h_5 now i hprog =>
    split at h
    · obtain ⟨ht, hout⟩ := progress_table hprog h
      refine ⟨ht.imp_right fun ht => ⟨_, ht⟩, fun j hj => ?_⟩
      rw [hj] at hout
      cases hout
    · cases h
      refine ⟨.inl rfl, fun j hj => ?_⟩
      cases hj
      rfl
  case h_6 hserving =>
    rw [hserving] at hpc
    cases hpc
  case h_7 hserving =>
    rw [hserving] at hpc
    cases hpc
  case h_8 hleaving =>
    split_ifs at h
    · cases h
      exact ⟨.inl rfl, nofun⟩
    · cases h
      obtain ⟨ht, hpc'⟩ := removePending_table conf io 0 true
      rw [ht, hpc', hleaving]
      exact ⟨.inl rfl, nofun⟩
  case h_9 => cases h

theorem threadStep_serving (hpc : io.pc = .serving i) :
    io.threadStep conf (.session a) = io.activeSessions[i]?.bind fun s => io.serveSession conf i s a := by
  unfold Io.threadStep
  rw [hpc]

/-- In the loop over the sessions the thread is on the session at the index, or it leaves behind the last one. -/
theorem threadStep_inServing (hpc : io.pc = .serving i) (h : io.threadStep conf act = some io') :
    (∃ s a, act = .session a ∧ io.activeSessions[i]? = some s ∧ io.serveSession conf i s a = some io') ∨
      act = .go ∧ io.activeSessions[i]? = none ∧ io' = { io with pc := .loop } := by
  unfold Io.threadStep at h
  rw [hpc] at h
  cases act with
  | session a =>
    obtain ⟨s, hs, h⟩ := Option.bind_eq_some_iff.mp h
    exact .inl ⟨s, a, rfl, hs, h⟩
  | go =>
    dsimp only at h
    split_ifs at h with hnone
    cases h
    exact .inr ⟨rfl, Option.isNone_iff_eq_none.mp hnone, rfl⟩
  | _ => cases h

/-- The session at the index has had its pass, and the others have theirs before them. -/
theorem Io.Resting.set (h : io.Resting) (hpc : io.pc = .serving i) (hs : io.activeSessions[i]? = some s)
    (ht : io'.table = io.table.set i (s.qconn, .passStart)) : ∀ e ∈ io'.table, e.2 = .passStart := by
  intro e he
  have hi := (List.getElem?_eq_some_iff.mp (table_getElem hs)).1
  rw [ht, (List.set_perm_cons_eraseIdx hi _).mem_iff] at he
  rcases List.mem_cons.mp he with rfl | he
  · rfl
  · exact (h.at hpc).1 e he

theorem Io.Resting.swapRemove (h : io.Resting) (hpc : io.pc = .serving i) (hs : io.activeSessions[i]? = some s)
    (ht : io'.table = Lib.swapRemove io.table i) : ∀ e ∈ io'.table, e.2 = .passStart := by
  intro e he
  rw [ht, (swapRemove_perm_eraseIdx (table_getElem hs)).mem_iff] at he
  exact (h.at hpc).1 e he

theorem Io.Resting.serve (h : io.Resting) (hpc : io.pc = .serving i) (hs : io.activeSessions[i]? = some s)
    (hm : ServeMove conf io i s a io') : io'.Resting := by
  cases hm with
  | inside hend hin hne hpc' ht =>
    have hi := (List.getElem?_eq_some_iff.mp (table_getElem hs)).1
    unfold Io.Resting
    rw [hpc', ht]
    dsimp only
    rw [List.eraseIdx_set_eq]
    refine ⟨(h.at hpc).1, fun e he => ?_⟩
    rw [List.getElem?_set_self hi] at he
    cases he
    exact hin
  | kept hend hd hpc' ht => exact resting_of_all (h.set hpc hs ht)
  | removed hend hd hpc' ht => exact resting_of_all (h.swapRemove hpc hs ht)

theorem Io.Resting.outside (h : io.Resting) (hout : io.pc.inServing = false)
    (hstep : io.threadStep conf act = some io') : ∀ e ∈ io'.table, e.2 = .passStart := by
  have hall := h.all hout
  intro e he
  rcases (threadStep_table hout hstep).1 with ht | ⟨conn, ht⟩
  · rw [ht] at he
    exact hall e he
  · rw [ht, List.mem_append, List.mem_singleton] at he
    rcases he with he | rfl
    · exact hall e he
    · rfl

theorem Io.Resting.step (h : io.Resting) (hstep : io.step conf act = some io') : io'.Resting := by
  cases hact : act.ofThread with
  | false =>
    obtain ⟨hpc, -, ht⟩ := step_aside hact hstep
    unfold Io.Resting at h ⊢
    rwa [hpc, ht]
  | true =>
    rw [step_ofThread hact] at hstep
    cases hpc : io.pc with
    | serving i =>
      rcases threadStep_inServing hpc hstep with ⟨s, a, rfl, hs, hserve⟩ | ⟨rfl, hnone, rfl⟩
      · exact h.serve hpc hs (serve_serveMove hpc (h.serving hpc hs) hserve)
      · have hall := (h.at hpc).1
        rw [List.eraseIdx_of_length_le (List.getElem?_eq_none_iff.mp (table_getElem_none hnone))] at hall
        exact resting_of_all hall
    | _ =>
      have hout : io.pc.inServing = false := by
        rw [hpc]
        rfl
      exact resting_of_all (h.outside hout hstep)

theorem resting_reach (h : Reach (Io.step conf) anyStep .start io) : io.Resting :=
  h.invariant (resting_of_all fun _ he => absurd he List.not_mem_nil) fun _ _ _ hR _ hs => hR.step hs

/-- Every time the thread enters the loop over the sessions, no pass has begun. -/
theorem enters_serving (h : Reach (Io.step conf) anyStep .start io) (hout : io.pc.inServing = false)
    (hs : io.step conf act = some io') (hin : io'.pc = .serving i) :
    i = 0 ∧ ∀ s ∈ io'.activeSessions, s.state.pc = .passStart := by
  cases hact : act.ofThread with
  | false =>
    rw [← (step_aside hact hs).1, hin] at hout
    cases hout
  | true =>
    rw [step_ofThread hact] at hs
    have hall := (resting_reach h).outside hout hs
    refine ⟨(threadStep_table hout hs).2 i hin, fun s hmem => ?_⟩
    exact hall (s.qconn, s.state.pc) (List.mem_map_of_mem hmem)

end

end ModHttp3.Process
