import ModHttp3.Process.Passes

/-! One run of the loop over the sessions: each session has one pass, and those that have ended leave the table. -/
namespace ModHttp3.Process
open Session ModHttp3.System Lib

namespace Passing

/-- The step ends a round of the loop over the sessions, or leaves the loop. -/
def endsRound (w : Passing) (act : IoAct) : Bool :=
  match w.io.pc with
  | .serving i => act.ofThread && (w.io.table[i]?).all fun e => e.2 = .passEnd
  | _ => false

/-- At the index `i` of the loop over the sessions a pass may begin, a session may be kept after its pass
and destroyed if it has ended, and behind the last one the loop is left. -/
structure SessionTurn (conf : IoConf) (w : Passing) (i : ℕ) : Prop where
  begin : ∀ s, w.io.activeSessions[i]? = some s → s.state.pc = .passStart →
    ∃ a w', w.step conf (.session a) = some w' ∧ w'.called = w.called ++ [s.qconn]
  any : ∀ s destroyed, w.io.activeSessions[i]? = some s → s.state.pc = .passEnd →
    (destroyed = true → s.state.session.aborted = true ∧ s.state.session.activeTasks = 0) →
    ∃ a w', w.step conf (.session a) = some w' ∧ w'.sessions = w.sessions ++ [(s.qconn, destroyed)]
  last : w.io.activeSessions[i]? = none → ∃ w', w.step conf .go = some w' ∧ w'.io.pc = .loop

section
variable {conf : IoConf} {io : Io} {w w' : Passing} {i : ℕ} {act : IoAct} {s : ActiveSession} {a : Answer}

/-- The session whose pass has begun and is not over. -/
def underway (w : Passing) (i : ℕ) : List Conn :=
  match w.io.table[i]? with
  | some (conn, pc) => if pc = .passStart then [] else [conn]
  | none => []

theorem underway_begun {conn : Conn} {pc : EventPc} (he : w.io.table[i]? = some (conn, pc)) (hne : pc ≠ .passStart) :
    w.underway i = [conn] := by
  unfold underway
  rw [he]
  exact if_neg hne

theorem underway_resting (h : ∀ e ∈ w.io.table, e.2 = .passStart) : w.underway i = [] := by
  unfold underway
  split
  · rename_i he
    exact if_pos (h _ (List.mem_of_getElem? he))
  · rfl

theorem noteSession_begins (hs : w.io.activeSessions[i]? = some s) (hpc : s.state.pc = .passStart) :
    w.noteSession conf i a = { w with called := w.called ++ [s.qconn] } := by
  unfold noteSession
  rw [hs]
  dsimp only
  rw [hpc]

theorem noteSession_ends (hs : w.io.activeSessions[i]? = some s) (hpc : s.state.pc = .passEnd) :
    w.noteSession conf i a = { w with sessions := w.sessions ++ [(s.qconn, s.destroyedBy conf a)] } := by
  unfold noteSession
  rw [hs]
  dsimp only
  rw [hpc]

private theorem noteSession_inside (hs : w.io.activeSessions[i]? = some s) (hstart : s.state.pc ≠ .passStart)
    (hend : s.state.pc ≠ .passEnd) : w.noteSession conf i a = w := by
  unfold noteSession
  rw [hs]
  dsimp only
  split
  · exact absurd ‹_› hstart
  · exact absurd ‹_› hend
  · rfl

theorem noted_session (hpc : w.io.pc = .serving i) : w.noted conf (.session a) = w.noteSession conf i a := by
  unfold noted
  rw [hpc]

theorem noted_go (hpc : w.io.pc = .serving i) : w.noted conf .go = w := by
  unfold noted
  rw [hpc]

/-- What a step can be inside the loop over the sessions. -/
inductive SessionMove (w : Passing) (i : ℕ) : IoAct → Passing → Prop
  | aside {act : IoAct} {io : Io} (hact : act.ofThread = false) (hpc : io.pc = w.io.pc)
      (ht : io.table = w.io.table) : SessionMove w i act { w with io := io }
  | leaves (hend : w.io.table[i]? = none) : SessionMove w i .go { w with io := { w.io with pc := .loop } }
  | begun {a : Answer} {io : Io} {conn : Conn} {pc : EventPc} (he : w.io.table[i]? = some (conn, .passStart))
      (hne : pc ≠ .passStart) (hpc : io.pc = .serving i) (ht : io.table = w.io.table.set i (conn, pc)) :
      SessionMove w i (.session a) { w with io := io, called := w.called ++ [conn] }
  | inside {a : Answer} {io : Io} {conn : Conn} {pc pc' : EventPc} (he : w.io.table[i]? = some (conn, pc))
      (hstart : pc ≠ .passStart) (hend : pc ≠ .passEnd) (hne : pc' ≠ .passStart) (hpc : io.pc = .serving i)
      (ht : io.table = w.io.table.set i (conn, pc')) : SessionMove w i (.session a) { w with io := io }
  | kept {a : Answer} {io : Io} {conn : Conn} (he : w.io.table[i]? = some (conn, .passEnd))
      (hpc : io.pc = .serving (i + 1)) (ht : io.table = w.io.table.set i (conn, .passStart))
      (hall : ∀ e ∈ io.table, e.2 = .passStart) :
      SessionMove w i (.session a) { w with io := io, sessions := w.sessions ++ [(conn, false)] }
  | removed {a : Answer} {io : Io} {conn : Conn} (he : w.io.table[i]? = some (conn, .passEnd))
      (hpc : io.pc = .serving i) (ht : io.table = swapRemove w.io.table i)
      (hall : ∀ e ∈ io.table, e.2 = .passStart) :
      SessionMove w i (.session a) { w with io := io, sessions := w.sessions ++ [(conn, true)] }

private theorem serve_sessionMove (hR : w.io.Resting) (hpc : w.io.pc = .serving i) (hs : w.io.activeSessions[i]? = some s)
    (h : w.io.serveSession conf i s a = some io) :
    SessionMove w i (.session a) { w.noteSession conf i a with io := io } := by
  have he := table_getElem hs
  cases serve_serveMove hpc (hR.serving hpc hs) h with
  | inside hend hin hne hpc' ht =>
    by_cases hstart : s.state.pc = .passStart
    · rw [noteSession_begins hs hstart]
      rw [hstart] at he
      exact .begun he hne hpc' ht
    · rw [noteSession_inside hs hstart hend]
      exact .inside he hstart hend hne hpc' ht
  | kept hend hd hpc' ht =>
    rw [noteSession_ends hs hend, hd]
    rw [hend] at he
    exact .kept he hpc' ht (hR.set hpc hs ht)
  | removed hend hd hpc' ht =>
    rw [noteSession_ends hs hend, hd]
    rw [hend] at he
    exact .removed he hpc' ht (hR.swapRemove hpc hs ht)

theorem step_sessionMove (hR : w.io.Resting) (hpc : w.io.pc = .serving i) (h : w.step conf act = some w') :
    SessionMove w i act w' := by
  obtain ⟨io, hio, rfl⟩ := Option.map_eq_some_iff.mp h
  cases hact : act.ofThread with
  | false =>
    obtain ⟨hpc', -, ht⟩ := step_aside hact hio
    rw [noted_aside hact]
    exact .aside hact hpc' ht
  | true =>
    rw [step_ofThread hact] at hio
    rcases threadStep_inServing hpc hio with ⟨s, a, rfl, hs, hserve⟩ | ⟨rfl, hnone, rfl⟩
    · rw [noted_session hpc]
      exact serve_sessionMove hR hpc hs hserve
    · rw [noted_go hpc]
      exact .leaves (table_getElem_none hnone)

def sessionsLeft (w : Passing) : ℕ :=
  match w.io.pc with
  | .serving i => w.io.activeSessions.length - i + 1
  | _ => 0

theorem sessionsLeft_serving (hpc : w.io.pc = .serving i) : w.sessionsLeft = w.io.table.length - i + 1 := by
  unfold sessionsLeft Io.table
  rw [hpc, List.length_map]

theorem endsRound_serving (hpc : w.io.pc = .serving i) :
    w.endsRound act = (act.ofThread && (w.io.table[i]?).all fun e => e.2 = .passEnd) := by
  unfold endsRound
  rw [hpc]

theorem endsRound_at {e : Conn × EventPc} (hpc : w.io.pc = .serving i) (he : w.io.table[i]? = some e) :
    w.endsRound (.session a) = decide (e.2 = .passEnd) := by
  rw [endsRound_serving hpc, he]
  rfl

private theorem sessionsLeft_step (hR : w.io.Resting) (hpc : w.io.pc = .serving i) (h : w.step conf act = some w') :
    if w.endsRound act then w'.sessionsLeft < w.sessionsLeft else w'.sessionsLeft = w.sessionsLeft := by
  rw [sessionsLeft_serving hpc]
  cases step_sessionMove hR hpc h with
  | aside hact hpc' ht =>
    have hnot : w.endsRound act = false := by rw [endsRound_serving hpc, hact, Bool.false_and]
    rw [hnot, sessionsLeft_serving (i := i) (hpc'.trans hpc), ht]
    rfl
  | leaves hend =>
    have hends : w.endsRound .go = true := by
      rw [endsRound_serving hpc, hend]
      rfl
    rw [if_pos hends]
    exact Nat.succ_pos _
  | begun he hne hpc' ht =>
    rw [endsRound_at hpc he, sessionsLeft_serving hpc', ht, List.length_set]
    rfl
  | inside he hstart hend hne hpc' ht =>
    rw [endsRound_at hpc he, decide_eq_false hend, sessionsLeft_serving hpc', ht, List.length_set]
    rfl
  | kept he hpc' ht hall =>
    have hi := (List.getElem?_eq_some_iff.mp he).1
    rw [endsRound_at hpc he, sessionsLeft_serving hpc', ht, List.length_set, if_pos (decide_eq_true rfl)]
    omega
  | removed he hpc' ht hall =>
    have hi := (List.getElem?_eq_some_iff.mp he).1
    have hlen := length_swapRemove he
    rw [endsRound_at hpc he, sessionsLeft_serving hpc', ht, if_pos (decide_eq_true rfl)]
    omega

/-- A step of the thread on the session at the index. -/
theorem step_session {σ : State} (hpc : w.io.pc = .serving i) (hs : w.io.activeSessions[i]? = some s)
    (hσ : s.state.eventStep conf.session a = some σ) :
    ∃ io, w.step conf (.session a) = some { w.noteSession conf i a with io := io } := by
  obtain ⟨io, hio⟩ : ∃ io, w.io.serveSession conf i s a = some io := by
    unfold Io.serveSession
    rw [hσ]
    exact ⟨_, rfl⟩
  refine ⟨io, ?_⟩
  unfold step
  rw [step_ofThread rfl, threadStep_serving hpc, hs, Option.bind_some, hio, noted_session hpc]
  rfl

private theorem step_begins (hpc : w.io.pc = .serving i) (hs : w.io.activeSessions[i]? = some s)
    (hstart : s.state.pc = .passStart) :
    ∃ a w', w.step conf (.session a) = some w' ∧ w'.called = w.called ++ [s.qconn] := by
  obtain ⟨σ, hσ⟩ : ∃ σ, s.state.eventStep conf.session (.flag false) = some σ := by
    unfold State.eventStep
    rw [hstart]
    dsimp only
    split_ifs <;> exact ⟨_, rfl⟩
  obtain ⟨io, hio⟩ := step_session hpc hs hσ
  rw [noteSession_begins hs hstart] at hio
  exact ⟨.flag false, _, hio, rfl⟩

private theorem step_ends {destroyed : Bool} (hpc : w.io.pc = .serving i) (hs : w.io.activeSessions[i]? = some s)
    (hend : s.state.pc = .passEnd)
    (hd : destroyed = true → s.state.session.aborted = true ∧ s.state.session.activeTasks = 0) :
    ∃ a w', w.step conf (.session a) = some w' ∧ w'.sessions = w.sessions ++ [(s.qconn, destroyed)] := by
  have hanswer : ∃ σ, s.state.eventStep conf.session (.flag destroyed) = some σ ∧
      decide (σ.pc = .destroyed) = destroyed := by
    unfold State.eventStep
    rw [hend]
    dsimp only
    cases destroyed with
    | false =>
      rw [Bool.and_false, Bool.false_and]
      exact ⟨_, rfl, rfl⟩
    | true =>
      obtain ⟨haborted, hidle⟩ := hd rfl
      rw [haborted, hidle]
      exact ⟨_, rfl, rfl⟩
  obtain ⟨σ, hσ, hpc'⟩ := hanswer
  have hdestroyed : s.destroyedBy conf (.flag destroyed) = destroyed := by
    unfold ActiveSession.destroyedBy
    rw [hσ, Option.any_some]
    exact hpc'
  obtain ⟨io, hio⟩ := step_session hpc hs hσ
  rw [noteSession_ends hs hend, hdestroyed] at hio
  exact ⟨.flag destroyed, _, hio, rfl⟩

private theorem sessionTurn (hpc : w.io.pc = .serving i) : w.SessionTurn conf i where
  begin s hs hstart := step_begins hpc hs hstart
  any s destroyed hs hend hd := step_ends hpc hs hend hd
  last hnone := by
    refine ⟨{ w with io := { w.io with pc := .loop } }, ?_, rfl⟩
    have hgo : w.io.step conf .go = some { w.io with pc := .loop } := by
      rw [step_ofThread rfl]
      unfold Io.threadStep
      rw [hpc]
      dsimp only
      rw [hnone]
      rfl
    unfold step
    rw [hgo, noted_go hpc]
    rfl

/-- The loop over the sessions, which began with the connections `init`, is at the index `i`. -/
structure InSessions (init : List Conn) (w : Passing) (i : ℕ) : Prop where
  pc : w.io.pc = .serving i
  resting : w.io.Resting
  sweep : ∃ s : Sweep not init, s.array = w.io.table.map Prod.fst ∧ s.index = i ∧ s.rounds = w.sessions
  called : w.called = w.sessions.map Prod.fst ++ w.underway i

/-- The loop is over: one pass was made on each session, and those that were not destroyed are left. -/
structure SessionsDone (init : List Conn) (w : Passing) : Prop where
  pc : w.io.pc = .loop
  once : w.called.Perm init
  rounds : w.sessions.map Prod.fst = w.called
  left : w.io.activeSessions.map (·.qconn) = (w.sessions.filter fun r => !r.2).map Prod.fst

theorem table_conns (io : Io) : io.table.map Prod.fst = io.activeSessions.map (·.qconn) := by
  unfold Io.table
  rw [List.map_map]
  rfl

private theorem inSessions_start (hpc : io.pc = .serving 0) (hall : ∀ s ∈ io.activeSessions, s.state.pc = .passStart) :
    InSessions (io.activeSessions.map (·.qconn)) (start io) 0 := by
  have htable : ∀ e ∈ io.table, e.2 = .passStart := by
    intro e he
    obtain ⟨s, hs, rfl⟩ := List.mem_map.mp he
    exact hall s hs
  refine ⟨hpc, resting_of_all htable, ⟨.start _ _, (table_conns io).symm, rfl, rfl⟩, ?_⟩
  rw [underway_resting htable]
  rfl

theorem InSessions.sameRound {init : List Conn} (hI : InSessions init w i) (hpc : w'.io.pc = .serving i)
    (hresting : w'.io.Resting) (hconns : w'.io.table.map Prod.fst = w.io.table.map Prod.fst)
    (hrounds : w'.sessions = w.sessions) (hcalled : w'.called = w.sessions.map Prod.fst ++ w'.underway i) :
    InSessions init w' i := by
  obtain ⟨s, harray, hindex, hs⟩ := hI.sweep
  refine ⟨hpc, hresting, ⟨s, harray.trans hconns.symm, hindex, hs.trans hrounds.symm⟩, ?_⟩
  rw [hrounds]
  exact hcalled

theorem InSessions.called_unbegun {init : List Conn} {conn : Conn} (hI : InSessions init w i)
    (he : w.io.table[i]? = some (conn, .passStart)) : w.called = w.sessions.map Prod.fst := by
  have hnone : w.underway i = [] := by
    unfold underway
    rw [he]
    rfl
  rw [hI.called, hnone, List.append_nil]

theorem InSessions.called_ended {init : List Conn} {conn : Conn} {destroyed : Bool} (hI : InSessions init w i)
    (he : w.io.table[i]? = some (conn, .passEnd)) : w.called = (w.sessions ++ [(conn, destroyed)]).map Prod.fst := by
  rw [hI.called, underway_begun he nofun, List.map_append]
  rfl

theorem InSessions.step {init : List Conn} (hI : InSessions init w i) (h : w.step conf act = some w') :
    (∃ j, InSessions init w' j) ∨ SessionsDone init w' := by
  have hresting : w'.io.Resting := by
    obtain ⟨io, hio, rfl⟩ := Option.map_eq_some_iff.mp h
    exact hI.resting.step hio
  obtain ⟨s, harray, rfl, hrounds⟩ := hI.sweep
  cases step_sessionMove hI.resting hI.pc h with
  | aside hact hpc ht =>
    refine .inl ⟨s.index, hI.sameRound (hpc.trans hI.pc) hresting (congrArg _ ht) rfl ?_⟩
    have hcalled := hI.called
    unfold underway at hcalled ⊢
    rwa [ht]
  | leaves hend =>
    have hover : s.array[s.index]? = none := by rw [harray, List.getElem?_map, hend, Option.map_none]
    obtain ⟨honce, hleft⟩ := s.finish hover
    have hdone := hI.called
    unfold underway at hdone
    rw [hend, List.append_nil] at hdone
    rw [hrounds] at honce hleft
    rw [harray, table_conns] at hleft
    exact .inr ⟨rfl, hdone ▸ honce, hdone.symm, hleft⟩
  | begun he hne hpc ht =>
    have hi := (List.getElem?_eq_some_iff.mp he).1
    refine .inl ⟨s.index, hI.sameRound hpc hresting ?_ rfl ?_⟩
    · rw [ht]
      exact map_set_same he rfl
    · rw [underway_begun (by rw [ht, List.getElem?_set_self hi]) hne, hI.called_unbegun he]
  | inside he hstart hend hne hpc ht =>
    have hi := (List.getElem?_eq_some_iff.mp he).1
    refine .inl ⟨s.index, hI.sameRound hpc hresting ?_ rfl ?_⟩
    · rw [ht]
      exact map_set_same he rfl
    · rw [underway_begun (by rw [ht, List.getElem?_set_self hi]) hne, hI.called, underway_begun he hstart]
  | @kept a io conn he hpc ht hall =>
    have hentry : s.array[s.index]? = some conn := by rw [harray, List.getElem?_map, he, Option.map_some]
    refine .inl ⟨s.index + 1, hpc, hresting, ⟨s.keep hentry (o := false) rfl, ?_, rfl, ?_⟩, ?_⟩
    · rw [ht]
      exact harray.trans (Eq.symm (map_set_same he rfl))
    · exact congrArg (· ++ _) hrounds
    · rw [underway_resting hall, List.append_nil]
      exact hI.called_ended he
  | @removed a io conn he hpc ht hall =>
    have hentry : s.array[s.index]? = some conn := by rw [harray, List.getElem?_map, he, Option.map_some]
    refine .inl ⟨s.index, hpc, hresting, ⟨s.remove hentry (o := true) rfl, ?_, rfl, ?_⟩, ?_⟩
    · rw [ht, map_swapRemove, ← harray]
      rfl
    · exact congrArg (· ++ _) hrounds
    · rw [underway_resting hall, List.append_nil]
      exact hI.called_ended he

/-- One run of the loop, from its start on. -/
theorem sessions_reach (hpc : io.pc = .serving 0) (hall : ∀ s ∈ io.activeSessions, s.state.pc = .passStart)
    (h : Reach (step conf) (fun w _ => w.io.pc.inServing) (start io) w) :
    (∃ i, InSessions (io.activeSessions.map (·.qconn)) w i) ∨ SessionsDone (io.activeSessions.map (·.qconn)) w := by
  induction h with
  | start => exact .inl ⟨0, inSessions_start hpc hall⟩
  | next _ hok hs ih =>
    rcases ih with ⟨i, hI⟩ | hD
    · exact hI.step hs
    · rw [hD.pc] at hok
      cases hok

/-- The loop ends, if every pass does. -/
private theorem sessions_end {run : ℕ → Passing} {acts : ℕ → IoAct} (hpc : io.pc = .serving 0)
    (hall : ∀ s ∈ io.activeSessions, s.state.pc = .passStart)
    (hrun : RunsWhile (step conf) (fun w => w.io.pc.inServing) (start io) run acts)
    (hagain : ∀ n, ∃ m, n ≤ m ∧ ((run m).io.pc.inServing → (run m).endsRound (acts m))) :
    ∃ n, SessionsDone (io.activeSessions.map (·.qconn)) (run n) := by
  have hnear : ∀ w act w', Reach (step conf) (fun w _ => w.io.pc.inServing) (start io) w → w.io.pc.inServing →
      w.step conf act = some w' →
      if w.endsRound act then w'.sessionsLeft < w.sessionsLeft else w'.sessionsLeft = w.sessionsLeft := by
    intro w act w' hr hin hs
    rcases sessions_reach hpc hall hr with ⟨i, hI⟩ | hD
    · exact sessionsLeft_step hI.resting hI.pc hs
    · rw [hD.pc] at hin
      cases hin
  obtain ⟨n, hr, hout⟩ := hrun.leaves sessionsLeft endsRound hnear hagain
  rcases sessions_reach hpc hall hr with ⟨i, hI⟩ | hD
  · exact absurd (by rw [hI.pc]; rfl) hout
  · exact ⟨n, hD⟩

theorem InSessions.called_length {init : List Conn} (hI : InSessions init w i) : w.called.length ≤ init.length := by
  obtain ⟨s, harray, rfl, hrounds⟩ := hI.sweep
  have hlen := s.rounds_length
  rw [harray, hrounds, List.length_map] at hlen
  rw [hI.called, List.length_append, List.length_map]
  unfold underway
  split
  · rename_i he
    have hi := (List.getElem?_eq_some_iff.mp he).1
    split_ifs
    · rw [List.length_nil]
      omega
    · rw [List.length_singleton]
      omega
  · rw [List.length_nil]
    omega

/-- One run of the loop over the pending handshakes, of any table, and one of the loop over the sessions, of
any table in which no pass has begun; the thread enters the latter with no other table. As long as a run lasts,
it has come to no more entries than there were, and it has a turn to take. It ends, if the thread is scheduled
and the passes it makes are over at some time. At its end it has come to each entry once, and has left those
that were not to be removed. -/
theorem swap_removal_visits_once (conf : IoConf) :
    (∀ io now, io.pc = .progress now 0 →
      (∀ w, Reach (step conf) (fun w _ => w.io.pc.inProgress) (start io) w →
        w.handshakes.length ≤ io.pendingHandshakes.length ∧
          ((∃ i, w.io.pc = .progress now i ∧ w.HandshakeTurn conf now i) ∨
            HandshakesDone conf io.pendingHandshakes now w)) ∧
      ∀ run acts, RunsWhile (step conf) (fun w => w.io.pc.inProgress) (start io) run acts →
        (∀ n, ∃ m, n ≤ m ∧ ((run m).io.pc.inProgress → (acts m).ofThread)) →
        ∃ n, HandshakesDone conf io.pendingHandshakes now (run n)) ∧
    (∀ io, io.pc = .serving 0 → (∀ s ∈ io.activeSessions, s.state.pc = .passStart) →
      (∀ w, Reach (step conf) (fun w _ => w.io.pc.inServing) (start io) w →
        w.called.length ≤ io.activeSessions.length ∧
          ((∃ i, w.io.pc = .serving i ∧ w.SessionTurn conf i) ∨
            SessionsDone (io.activeSessions.map (·.qconn)) w)) ∧
      ∀ run acts, RunsWhile (step conf) (fun w => w.io.pc.inServing) (start io) run acts →
        (∀ n, ∃ m, n ≤ m ∧ ((run m).io.pc.inServing → (run m).endsRound (acts m))) →
        ∃ n, SessionsDone (io.activeSessions.map (·.qconn)) (run n)) ∧
    ∀ io act io' i, Reach (Io.step conf) anyStep .start io → io.pc.inServing = false →
      io.step conf act = some io' → io'.pc = .serving i →
      i = 0 ∧ ∀ s ∈ io'.activeSessions, s.state.pc = .passStart := by
  refine ⟨fun io now hpc => ⟨fun w h => ?_, fun run acts hrun hagain => handshakes_end hpc hrun hagain⟩,
    fun io hpc hall => ⟨fun w h => ?_, fun run acts hrun hagain => sessions_end hpc hall hrun hagain⟩,
    fun io act io' i h hout hs hin => enters_serving h hout hs hin⟩
  · rcases handshakes_reach hpc h with ⟨i, hI⟩ | hD
    · exact ⟨hI.rounds_length, .inl ⟨i, hI.pc, handshakeTurn hI.pc⟩⟩
    · have hlen := hD.once.length_eq
      rw [List.length_map] at hlen
      exact ⟨Nat.le_of_eq hlen, .inr hD⟩
  · rcases sessions_reach hpc hall h with ⟨i, hI⟩ | hD
    · have hlen := hI.called_length
      rw [List.length_map] at hlen
      exact ⟨hlen, .inl ⟨i, hI.pc, sessionTurn hI.pc⟩⟩
    · have hlen := hD.once.length_eq
      rw [List.length_map] at hlen
      exact ⟨Nat.le_of_eq hlen, .inr hD⟩

/-- Three handshakes: the first has timed out, the last was closed, and the other one waits. -/
def threeHandshakes : Io :=
  { Io.start with pendingHandshakes := [⟨5, 0⟩, ⟨6, 9⟩, ⟨7, 9⟩], pc := .progress 10 0 }

/-- Three sessions, of which the first and the last have been aborted. -/
def threeSessions : Io :=
  let running : State := { State.start with pc := .passStart }
  let aborted : State := { running with session := { running.session with aborted := true } }
  { Io.start with activeSessions := [⟨5, aborted⟩, ⟨6, running⟩, ⟨7, aborted⟩], pc := .serving 0 }

theorem swap_removal_visits_once_three :
    (∃ w, Reach (step sampleIoConf) (fun w _ => w.io.pc.inProgress) (start threeHandshakes) w ∧
      w.handshakes = [(⟨5, 0⟩, .timedOut), (⟨7, 9⟩, .closed), (⟨6, 9⟩, .waiting)] ∧
      HandshakesDone sampleIoConf threeHandshakes.pendingHandshakes 10 w) ∧
    (∃ run acts, RunsWhile (step sampleIoConf) (fun w => w.io.pc.inProgress) (start threeHandshakes) run acts ∧
      ∃ n, HandshakesDone sampleIoConf threeHandshakes.pendingHandshakes 10 (run n)) ∧
    (∃ w, Reach (step sampleIoConf) (fun w _ => w.io.pc.inServing) (start threeSessions) w ∧
      w.sessions = [(5, true), (7, true), (6, false)] ∧ SessionsDone [5, 6, 7] w) ∧
    (∃ run acts, RunsWhile (step sampleIoConf) (fun w => w.io.pc.inServing) (start threeSessions) run acts ∧
      ∃ n, SessionsDone [5, 6, 7] (run n)) ∧
    ∃ io', Reach (Io.step sampleIoConf) anyStep .start io' ∧ io'.activeSessions.length = 1 ∧
      ∀ s ∈ io'.activeSessions, s.state.pc = .passStart := by
  obtain ⟨hhandshakes, hsessions, henters⟩ := swap_removal_visits_once sampleIoConf
  obtain ⟨hturns, hends⟩ := hhandshakes threeHandshakes 10 rfl
  obtain ⟨hpasses, hover⟩ := hsessions threeSessions rfl (by simp [threeSessions])
  have hrunH : (runChecked (step sampleIoConf) (fun w _ => w.io.pc.inProgress) (start threeHandshakes)
      [.go, .handshake .closed, .handshake .waiting, .go]).map (fun w => (w.io.pc, w.handshakes)) =
        some (.serving 0, [(⟨5, 0⟩, .timedOut), (⟨7, 9⟩, .closed), (⟨6, 9⟩, .waiting)]) := by decide +kernel
  have hrunS : (runChecked (step sampleIoConf) (fun w _ => w.io.pc.inServing) (start threeSessions)
      [.session (.flag false), .session (.flag true), .session (.flag false), .session (.flag true),
        .session (.flag false), .session .nothing, .session (.flag true), .go]).map
          (fun w => (w.io.pc, w.sessions)) = some (.loop, [(5, true), (7, true), (6, false)]) := by decide +kernel
  have hrunE : ((runActions (Io.step sampleIoConf) .start (oneConnection.take 6)).bind fun io =>
      (io.step sampleIoConf .go).map fun io' => (io.pc.inServing, io'.pc, io'.activeSessions.length)) =
        some (false, .serving 0, 1) := by decide +kernel
  obtain ⟨w, hw, he⟩ := Option.map_eq_some_iff.mp hrunH
  obtain ⟨hpcw, hroundsw⟩ := Prod.mk.inj he
  obtain ⟨v, hv, he⟩ := Option.map_eq_some_iff.mp hrunS
  obtain ⟨hpcv, hroundsv⟩ := Prod.mk.inj he
  have houtw : ¬w.io.pc.inProgress = true := by rw [hpcw]; nofun
  have houtv : ¬v.io.pc.inServing = true := by rw [hpcv]; nofun
  refine ⟨⟨w, .of_runChecked _ hw, hroundsw, ?_⟩, ?_, ⟨v, .of_runChecked _ hv, hroundsv, ?_⟩, ?_, ?_⟩
  · rcases (hturns w (.of_runChecked _ hw)).2 with ⟨i, hi, -⟩ | hD
    · cases hpcw.symm.trans hi
    · exact hD
  · obtain ⟨run, acts, hrun, hrest⟩ := RunsWhile.of_runChecked IoAct.go _ hw houtw
    refine ⟨run, acts, hrun, hends run acts hrun fun n => ⟨max n 4, le_max_left n 4, fun hin => ?_⟩⟩
    rw [hrest _ (le_max_right n 4)] at hin
    exact absurd hin houtw
  · rcases (hpasses v (.of_runChecked _ hv)).2 with ⟨i, hi, -⟩ | hD
    · cases hpcv.symm.trans hi
    · exact hD
  · obtain ⟨run, acts, hrun, hrest⟩ := RunsWhile.of_runChecked IoAct.go _ hv houtv
    refine ⟨run, acts, hrun, hover run acts hrun fun n => ⟨max n 8, le_max_left n 8, fun hin => ?_⟩⟩
    rw [hrest _ (le_max_right n 8)] at hin
    exact absurd hin houtv
  · obtain ⟨io, hio, h⟩ := Option.bind_eq_some_iff.mp hrunE
    obtain ⟨io', hio', he⟩ := Option.map_eq_some_iff.mp h
    simp only [Prod.mk.injEq] at he
    obtain ⟨hout, hin, hlen⟩ := he
    have hr := Reach.of_runActions _ hio
    exact ⟨io', hr.next trivial hio', hlen, (henters io .go io' 0 hr hout hio' hin).2⟩

end

end Passing

end ModHttp3.Process
