import ModHttp3.Process.Handshakes
import ModHttp3.System.Live

/-! How the event thread sleeps and is woken: `wait_for_event`, the pair of connected sockets behind
`h3_wakeup_signal` and `h3_wakeup_drain`, and the threads that signal after they have changed something. -/
namespace ModHttp3.Session

/-- The call of a worker leaves something to send and then wakes the event thread. -/
def H3Stream.wakes (gone : Bool) (call : RespondCall) (o : H3Stream) : Bool :=
  match call with
  | .submit accepted => !(o.responseSubmitted || o.responseCancelled || gone) && accepted
  | .append stored => !(o.responseCancelled || gone) && stored
  | .complete => true

end ModHttp3.Session

namespace ModHttp3.Process
open Session ModHttp3.System Lib

/-- Where the thread is between the test of its loop and what follows `h3q_engine_pump`; `draining` counts the
receives that are left of `h3_wakeup_drain`. -/
inductive WaitPc
  | waiting
  | draining (left : ℕ)
  | pumping
  | ready
  deriving DecidableEq, Repr

/-- Who is to call `h3_wakeup_signal`: a worker, or the thread that stops or drains the child. -/
inductive Signaller
  | worker (conn : Conn) (task : ℕ)
  | child
  deriving DecidableEq, Repr

/-- The thread with its wakeup sockets: `queued` datagrams wait at the reader. `dataRead` is the variable of
`service_session_pass`. The last three fields record who has yet to signal, and the connections with output that
no flush has followed or with a drain that ran out of its budget. -/
structure Waking where
  io : Io
  queued : ℕ
  wait : WaitPc
  workPending : Bool
  dataRead : Bool
  owed : List Signaller
  unflushed : List Conn
  unread : List Conn

/-- `poll` tells whether `h3_poll` fails; `pump` has the result of `h3q_engine_pump`. -/
inductive WakeAct
  | io (act : IoAct)
  | signal (who : Signaller)
  | poll (failed : Bool)
  | recv
  | pump (result : Option Bool)

/-- The child drains or stops. -/
def Io.stopping (io : Io) : Bool := io.draining || !io.threadRunning

/-- The receives of one `h3_wakeup_drain`. -/
def h3WakeupDrainLimit : ℕ := 64

/-- `h3_wakeup_signal`: a send that finds the reader's buffer full is lost. -/
def h3WakeupSignal (capacity queued : ℕ) : ℕ := if queued < capacity then queued + 1 else queued

namespace Waking

def start : Waking := ⟨.start, 0, .ready, false, false, [], [], []⟩

/-- The worker's call leaves something to send. -/
def workerWakes (io : Io) (j k : ℕ) (call : RespondCall) : Option Conn := do
  let s ← io.activeSessions[j]?
  let t ← s.state.tasks[k]?
  let o ← s.state.session.obj t.sid
  if o.wakes s.state.session.flags.gone call then some s.qconn else none

/-- What the step of the thread from `s` to `σ` does to the records: a flush that begins sends what there is,
and a drain reads what its budget allows. -/
def noteSession (w : Waking) (s : ActiveSession) (σ : State) : Waking :=
  let w := if s.state.pc.flushes || !σ.pc.sending then w
    else { w with unflushed := w.unflushed.filter (· ≠ s.qconn) }
  match s.state.pc with
  | .passStart => { w with dataRead := false }
  | .accepting => if σ.pc = .accepting then w else { w with unread := w.unread.filter (· ≠ s.qconn) }
  | .drain d .returned =>
    { w with dataRead := d.dataRead, unread := if d.exhausted then s.qconn :: w.unread else w.unread }
  | .idleCheck => { w with workPending := w.workPending || w.dataRead }
  | _ => w

/-- What a step of the thread or of another one means for the waiting. -/
def after (conf : IoConf) (w : Waking) (act : IoAct) (io : Io) : Waking :=
  match act, w.io.pc with
  | .stop, _ => { w with io := io, owed := .child :: w.owed }
  | .drain, _ => if w.io.draining then { w with io := io } else { w with io := io, owed := .child :: w.owed }
  | .worker j k (.respond call), _ =>
    match workerWakes w.io j k call with
    | some conn => { w with io := io, owed := .worker conn k :: w.owed, unflushed := conn :: w.unflushed }
    | none => { w with io := io }
  | .go, .loop =>
    { w with
      io := io
      wait := if io.pc = .leaving then .ready else if w.workPending then .pumping else .waiting
      workPending := false }
  | .session a, .serving i =>
    match w.io.activeSessions[i]?.bind fun s => (s.state.eventStep conf.session a).map (Prod.mk s) with
    | some (s, σ) => { w.noteSession s σ with io := io }
    | none => { w with io := io }
  | _, _ => { w with io := io }

/-- The step has to wait: the thread for the end of `wait_for_event` or `h3q_engine_pump`, a worker for its
signal. -/
def holds (w : Waking) : IoAct → Bool
  | .worker j k _ => (w.io.activeSessions[j]?).any fun s => w.owed.contains (.worker s.qconn k)
  | act => act.ofThread && w.wait != .ready

/-- A pass reads the flags of the child. -/
def reads (w : Waking) (act : IoAct) : Bool :=
  match act, w.io.pc with
  | .session (.flag stopping), .serving i =>
    (w.io.activeSessions[i]?).all fun s =>
      s.state.pc != .passStart || s.state.session.aborted || stopping == w.io.stopping
  | _, _ => true

def step (conf : IoConf) (capacity : ℕ) (w : Waking) : WakeAct → Option Waking
  | .io act => if w.holds act || !w.reads act then none else (w.io.step conf act).map (w.after conf act)
  | .signal who =>
    if who ∈ w.owed then
      some { w with owed := w.owed.erase who, queued := h3WakeupSignal capacity w.queued }
    else none
  | .poll failed =>
    if w.wait = .waiting then
      some { w with wait := if !failed && decide (0 < w.queued) then .draining h3WakeupDrainLimit else .pumping }
    else none
  | .recv => match w.wait with
    | .draining (left + 1) =>
      if 0 < w.queued then some { w with queued := w.queued - 1, wait := .draining left }
      else some { w with wait := .pumping }
    | .draining 0 => some { w with wait := .pumping }
    | _ => none
  | .pump result =>
    if w.wait = .pumping then some { w with wait := .ready, workPending := result.getD false } else none

/-- The thread is on its way to the sessions, and each of them will have a pass. -/
def awake (w : Waking) : Bool :=
  match w.io.pc with
  | .pumped => w.wait != .waiting
  | .accepting | .progress _ _ => true
  | _ => false

end Waking

/-- What a step is to the sessions. -/
inductive WakeMove (conf : IoConf) (w : Waking) : WakeAct → Waking → Prop
  | awake {act : WakeAct} {w' : Waking} (h : w'.awake) : WakeMove conf w act w'
  | rests {act : WakeAct} {w' : Waking} (hact : ∀ a, act ≠ .io (.session a)) (hpc : w'.io.pc = w.io.pc) (hwait : w'.wait = w.wait)
      (hs : w'.io.activeSessions = w.io.activeSessions) : WakeMove conf w act w'
  | sleeps {act : WakeAct} {w' : Waking} (hpc : w.io.pc = .loop) (hpc' : w'.io.pc = .pumped)
      (hs : w'.io.activeSessions = w.io.activeSessions) : WakeMove conf w act w'
  | leaves {act : WakeAct} {w' : Waking} (hs : w'.io.activeSessions = []) : WakeMove conf w act w'
  | enters {act : WakeAct} {w' : Waking} (hpc' : w'.io.pc = .serving 0)
      (hall : ∀ s ∈ w'.io.activeSessions, s.state.pc = .passStart) : WakeMove conf w act w'
  | worker {j k : ℕ} {wa : WorkerAct} {s : ActiveSession} {σ : State} {w' : Waking}
      (hs : w.io.activeSessions[j]? = some s) (hσ : s.state.step conf.session (.worker k wa) = some σ)
      (hpc : w'.io.pc = w.io.pc) (hwait : w'.wait = w.wait)
      (hs' : w'.io.activeSessions = w.io.activeSessions.set j { s with state := σ }) :
      WakeMove conf w (.io (.worker j k wa)) w'
  | inside {i : ℕ} {s : ActiveSession} {a : Answer} {σ : State} {w' : Waking} (hpc : w.io.pc = .serving i)
      (hs : w.io.activeSessions[i]? = some s) (hσ : s.state.eventStep conf.session a = some σ)
      (hend : s.state.pc ≠ .passEnd) (hpc' : w'.io.pc = .serving i)
      (hs' : w'.io.activeSessions = w.io.activeSessions.set i { s with state := σ }) :
      WakeMove conf w (.io (.session a)) w'
  | kept {i : ℕ} {s : ActiveSession} {a : Answer} {σ : State} {w' : Waking} (hpc : w.io.pc = .serving i)
      (hs : w.io.activeSessions[i]? = some s) (hσ : s.state.eventStep conf.session a = some σ)
      (hend : s.state.pc = .passEnd) (hpc' : w'.io.pc = .serving (i + 1))
      (hs' : w'.io.activeSessions = w.io.activeSessions.set i { s with state := σ }) :
      WakeMove conf w (.io (.session a)) w'
  | removed {i : ℕ} {s : ActiveSession} {a : Answer} {w' : Waking} (hpc : w.io.pc = .serving i)
      (hs : w.io.activeSessions[i]? = some s) (hpc' : w'.io.pc = .serving i)
      (hs' : w'.io.activeSessions = swapRemove w.io.activeSessions i) : WakeMove conf w (.io (.session a)) w'
  | done {i : ℕ} {act : WakeAct} {w' : Waking} (hpc : w.io.pc = .serving i)
      (hs : w.io.activeSessions[i]? = none) (hpc' : w'.io.pc = .loop)
      (hs' : w'.io.activeSessions = w.io.activeSessions) : WakeMove conf w act w'

section
variable {conf : IoConf} {capacity : ℕ} {w w' : Waking} {act : WakeAct}

theorem noteSession_frame (w : Waking) (s : ActiveSession) (σ : State) :
    (w.noteSession s σ).io = w.io ∧ (w.noteSession s σ).wait = w.wait ∧ (w.noteSession s σ).queued = w.queued ∧
      (w.noteSession s σ).owed = w.owed := by
  unfold Waking.noteSession
  dsimp only
  split <;> split_ifs <;> exact ⟨rfl, rfl, rfl, rfl⟩

theorem after_io (act : IoAct) (io : Io) : (w.after conf act io).io = io := by
  unfold Waking.after
  split
  · rfl
  · split_ifs <;> rfl
  · split <;> rfl
  · rfl
  · split <;> rfl
  · rfl

theorem after_pc (act : IoAct) (io : Io) : (w.after conf act io).io.pc = io.pc := by rw [after_io]

theorem after_sessions (act : IoAct) (io : Io) : (w.after conf act io).io.activeSessions = io.activeSessions := by
  rw [after_io]

theorem after_wait {act : IoAct} (io : Io) (hloop : w.io.pc ≠ .loop ∨ act ≠ .go) :
    (w.after conf act io).wait = w.wait := by
  unfold Waking.after
  split
  · rfl
  · split_ifs <;> rfl
  · split <;> rfl
  · exact absurd rfl (hloop.resolve_left (not_not.mpr ‹_›))
  · split
    · exact (noteSession_frame w _ _).2.1
    · rfl
  · rfl

/-- A step of the thread or of another one, a signal, or a step inside `wait_for_event` and `h3q_engine_pump`. -/
inductive WakeStep (conf : IoConf) (capacity : ℕ) (w : Waking) : WakeAct → Waking → Prop
  | io {act : IoAct} {io : Io} (hholds : w.holds act = false) (hreads : w.reads act)
      (hio : w.io.step conf act = some io) : WakeStep conf capacity w (.io act) (w.after conf act io)
  | signal {who : Signaller} (hwho : who ∈ w.owed) :
      WakeStep conf capacity w (.signal who)
        { w with owed := w.owed.erase who, queued := h3WakeupSignal capacity w.queued }
  | waits {act : WakeAct} {queued : ℕ} {wait : WaitPc} {workPending : Bool} (hwait : w.wait ≠ .ready)
      (hne : wait ≠ .waiting) :
      WakeStep conf capacity w act { w with queued := queued, wait := wait, workPending := workPending }

theorem Waking.step_cases (h : w.step conf capacity act = some w') : WakeStep conf capacity w act w' := by
  unfold Waking.step at h
  split at h
  · split_ifs at h with hgate
    obtain ⟨io, hio, rfl⟩ := Option.map_eq_some_iff.mp h
    simp only [Bool.or_eq_true, Bool.not_eq_true', not_or, Bool.not_eq_true, Bool.not_eq_false] at hgate
    exact .io hgate.1 hgate.2 hio
  · split_ifs at h with hwho
    cases h
    exact .signal hwho
  · split_ifs at h with hwait <;> cases h
    · exact .waits (hwait ▸ WaitPc.noConfusion) WaitPc.noConfusion
    · exact .waits (hwait ▸ WaitPc.noConfusion) WaitPc.noConfusion
  · split at h
    · rename_i hwait
      split_ifs at h <;> cases h
      · exact .waits (hwait ▸ WaitPc.noConfusion) WaitPc.noConfusion
      · exact .waits (hwait ▸ WaitPc.noConfusion) WaitPc.noConfusion
    · rename_i hwait
      cases h
      exact .waits (hwait ▸ WaitPc.noConfusion) WaitPc.noConfusion
    · cases h
  · split_ifs at h with hwait
    cases h
    exact .waits (hwait ▸ WaitPc.noConfusion) WaitPc.noConfusion

/-- While the thread is not between the test of its loop and the sessions, it does not wait. -/
def Waking.Poised (w : Waking) : Prop := w.io.pc ≠ .pumped → w.wait = .ready

/-- What is known of the thread in every run. -/
structure Orderly (conf : IoConf) (w : Waking) : Prop where
  io : Reach (Io.step conf) anyStep .start w.io
  poised : w.Poised

theorem Orderly.resting (h : Orderly conf w) : w.io.Resting := resting_reach h.io

theorem Orderly.pumped (h : Orderly conf w) (hwait : w.wait ≠ .ready) : w.io.pc = .pumped :=
  not_not.mp fun hne => hwait (h.poised hne)

/-- Before the sessions the thread goes through the accept loop and the handshakes, or past both. -/
private theorem threadStep_approach {io io' : Io} {act : IoAct} (h : io.threadStep conf act = some io')
    (hpc : io.pc = .pumped ∨ io.pc = .accepting ∨ ∃ now i, io.pc = .progress now i) :
    io'.pc = .accepting ∨ (∃ now i, io'.pc = .progress now i) ∨ io'.pc = .serving 0 := by
  unfold Io.threadStep at h
  rcases hpc with hpc | hpc | ⟨now, i, hpc⟩
  · rw [hpc] at h
    cases act with
    | go =>
      cases h
      dsimp only
      split_ifs
      · exact .inl rfl
      · exact .inr (.inr rfl)
    | _ => cases h
  · rw [hpc] at h
    cases act with
    | accept conn prepared now =>
      cases conn with
      | none =>
        cases h
        exact .inr (.inl ⟨now, 0, rfl⟩)
      | some conn =>
        dsimp only at h
        split_ifs at h
        cases h
        exact .inl ((accept_table conf io conn prepared now).2.trans hpc)
    | _ => cases h
  · rw [hpc] at h
    dsimp only at h
    split at h
    · rename_i p hp
      obtain ⟨o, -, -, ⟨-, hpc', -⟩ | ⟨-, hpc', -⟩⟩ := progress_round hpc hp h
      · exact .inr (.inl ⟨_, _, hpc'⟩)
      · exact .inr (.inl ⟨_, _, hpc'⟩)
    · cases h
      exact .inr (.inr rfl)

theorem Orderly.approach (h : Orderly conf w) {act : IoAct} {io : Io} (hstep : w.io.threadStep conf act = some io)
    (hpc : w.io.pc = .pumped ∨ w.io.pc = .accepting ∨ ∃ now i, w.io.pc = .progress now i) :
    WakeMove conf w (.io act) (w.after conf act io) := by
  have hout : w.io.pc.inServing = false := by
    rcases hpc with hpc | hpc | ⟨now, i, hpc⟩ <;> rw [hpc] <;> rfl
  rcases threadStep_approach hstep hpc with hpc' | ⟨now, i, hpc'⟩ | hpc'
  · refine .awake ?_
    unfold Waking.awake
    rw [after_io, hpc']
  · refine .awake ?_
    unfold Waking.awake
    rw [after_io, hpc']
  · refine .enters ((after_pc act io).trans hpc') fun s hs => ?_
    rw [after_io] at hs
    exact h.resting.outside hout hstep _ (List.mem_map_of_mem hs)

/-- The test of the loop: the thread leaves it when no session is left, waits, or goes on without waiting. -/
theorem Orderly.tested {act : IoAct} {io : Io} (hstep : w.io.threadStep conf act = some io)
    (hpc : w.io.pc = .loop) : WakeMove conf w (.io act) (w.after conf act io) := by
  unfold Io.threadStep at hstep
  rw [hpc] at hstep
  cases act with
  | go =>
    cases hstep
    by_cases htest : (w.io.threadRunning || !w.io.activeSessions.isEmpty) = true
    · rw [if_pos htest]
      cases hw : w.workPending with
      | true =>
        refine .awake ?_
        unfold Waking.awake Waking.after
        rw [hpc, hw]
        rfl
      | false => exact .sleeps hpc (after_pc _ _) (after_sessions _ _)
    · rw [if_neg htest]
      refine .leaves ((after_sessions _ _).trans ?_)
      simp only [Bool.or_eq_true, Bool.not_eq_true', not_or] at htest
      exact List.isEmpty_iff.mp (Bool.not_eq_false _ ▸ htest.2)
  | _ => cases hstep

theorem Orderly.serves {act : IoAct} {i : ℕ} {io : Io} (hstep : w.io.threadStep conf act = some io)
    (hpc : w.io.pc = .serving i) : WakeMove conf w (.io act) (w.after conf act io) := by
  rcases threadStep_inServing hpc hstep with ⟨s, a, rfl, hs, hserve⟩ | ⟨rfl, hnone, rfl⟩
  · obtain ⟨σ, hσ, he⟩ := Option.map_eq_some_iff.mp hserve
    split_ifs at he with hdestroyed hend
    · rw [removeSession_eq] at he
      subst he
      exact .removed hpc hs ((after_pc _ _).trans hpc) (after_sessions _ _)
    · subst he
      exact .kept hpc hs hσ hend (after_pc _ _) (after_sessions _ _)
    · subst he
      exact .inside hpc hs hσ hend (after_pc _ _) (after_sessions _ _)
  · exact .done hpc hnone (after_pc _ _) (after_sessions _ _)

/-- A thread that has left its loop has no session. -/
theorem Orderly.left (h : Orderly conf w) {act : IoAct} {io : Io} (hact : act.ofThread = true)
    (hstep : w.io.threadStep conf act = some io) (hpc : w.io.pc = .leaving) :
    WakeMove conf w (.io act) (w.after conf act io) := by
  have hA : Accounted conf io :=
    accounted_reach (h.io.next (a := act) trivial ((step_ofThread hact).trans hstep))
  refine .leaves ((after_sessions act io).trans ?_)
  unfold Io.threadStep at hstep
  rw [hpc] at hstep
  cases act with
  | go =>
    dsimp only at hstep
    split_ifs at hstep
    · cases hstep
      exact (hA.exited rfl).1
    · cases hstep
      exact hA.leaving ((removePending_table conf w.io 0 true).2.trans hpc)
  | _ => cases hstep

theorem Orderly.thread_move (h : Orderly conf w) {act : IoAct} {io : Io} (hact : act.ofThread = true)
    (hstep : w.io.threadStep conf act = some io) : WakeMove conf w (.io act) (w.after conf act io) := by
  cases hpc : w.io.pc with
  | loop => exact Orderly.tested hstep hpc
  | pumped => exact h.approach hstep (.inl hpc)
  | accepting => exact h.approach hstep (.inr (.inl hpc))
  | progress now i => exact h.approach hstep (.inr (.inr ⟨now, i, hpc⟩))
  | serving i => exact Orderly.serves hstep hpc
  | leaving => exact h.left hact hstep hpc
  | exited =>
    unfold Io.threadStep at hstep
    rw [hpc] at hstep
    cases act <;> cases hstep

theorem Orderly.io_move (h : Orderly conf w) {act : IoAct} {io : Io} (hstep : w.io.step conf act = some io) :
    WakeMove conf w (.io act) (w.after conf act io) := by
  cases act with
  | stop =>
    cases hstep
    exact .rests (fun a he => by cases he) (after_pc _ _) (after_wait _ (.inr nofun)) (after_sessions _ _)
  | drain =>
    cases hstep
    exact .rests (fun a he => by cases he) (after_pc _ _) (after_wait _ (.inr nofun)) (after_sessions _ _)
  | worker j k wa =>
    obtain ⟨s, hs, hstep⟩ := Option.bind_eq_some_iff.mp hstep
    obtain ⟨σ, hσ, hstep⟩ := Option.bind_eq_some_iff.mp hstep
    cases hstep
    exact .worker hs hσ (after_pc _ _) (after_wait _ (.inr nofun)) (after_sessions _ _)
  | _ => exact h.thread_move rfl hstep

theorem Orderly.move (h : Orderly conf w) (hstep : w.step conf capacity act = some w') :
    WakeMove conf w act w' := by
  cases Waking.step_cases hstep with
  | io hholds hreads hio => exact h.io_move hio
  | signal hwho => exact .rests (fun a he => by cases he) rfl rfl rfl
  | waits hwait hne =>
    refine .awake ?_
    unfold Waking.awake
    dsimp only
    rw [h.pumped hwait]
    exact bne_iff_ne.mpr hne

theorem Orderly.after_ready (h : Orderly conf w) {act : IoAct} {io : Io} (hholds : w.holds act = false)
    (hio : w.io.step conf act = some io) (hne : io.pc ≠ .pumped) : (w.after conf act io).wait = .ready := by
  by_cases hloop : w.io.pc ≠ .loop ∨ act ≠ .go
  · rw [after_wait io hloop]
    cases hact : act.ofThread with
    | false =>
      rw [(step_aside hact hio).1] at hne
      exact h.poised hne
    | true =>
      cases act <;> first | exact not_not.mp (bne_iff_ne.not.mp (Bool.eq_false_iff.mp hholds)) | cases hact
  · simp only [not_or, not_not] at hloop
    obtain ⟨hpc, rfl⟩ := hloop
    change w.io.threadStep conf .go = some io at hio
    unfold Io.threadStep at hio
    rw [hpc] at hio
    cases hio
    dsimp only at hne
    split_ifs at hne with htest
    · exact absurd rfl hne
    · unfold Waking.after
      rw [hpc, if_neg htest]
      rfl

theorem Orderly.step (h : Orderly conf w) (hstep : w.step conf capacity act = some w') : Orderly conf w' := by
  cases Waking.step_cases hstep with
  | @io act io hholds hreads hio =>
    refine ⟨?_, fun hne => ?_⟩
    · rw [after_io]
      exact h.io.next (a := act) trivial hio
    · rw [after_pc] at hne
      exact h.after_ready hholds hio hne
  | signal hwho => exact ⟨h.io, h.poised⟩
  | waits hwait hne => exact ⟨h.io, fun hpc => absurd (h.pumped hwait) hpc⟩

/-- Two sessions of the table have different connections. -/
theorem Orderly.conns (h : Orderly conf w) : (w.io.activeSessions.map ActiveSession.qconn).Nodup := by
  have hA := accounted_reach h.io
  refine List.nodup_iff_count_le_one.mpr fun c => ?_
  have howned := hA.books.owned c
  have hfresh := List.nodup_iff_count_le_one.mp hA.fresh c
  unfold Io.owners at howned
  omega

theorem Orderly.other_conn (h : Orderly conf w) {i j : ℕ} {s t : ActiveSession}
    (hs : w.io.activeSessions[i]? = some s) (ht : w.io.activeSessions[j]? = some t) (hne : i ≠ j) :
    s.qconn ≠ t.qconn := by
  intro he
  have hi := (List.getElem?_eq_some_iff.mp hs).1
  refine hne ((List.getElem?_inj ?_ h.conns).mp ?_)
  · rwa [List.length_map]
  · rw [List.getElem?_map, List.getElem?_map, hs, ht, Option.map_some, Option.map_some, he]

/-- Only the session at the index is in its pass. -/
theorem Orderly.others_rest (h : Orderly conf w) {i j : ℕ} {s : ActiveSession} (hpc : w.io.pc = .serving i)
    (hs : w.io.activeSessions[j]? = some s) (hne : i ≠ j) : s.state.pc = .passStart := by
  have hmem : (s.qconn, s.state.pc) ∈ w.io.table.eraseIdx i :=
    List.mem_eraseIdx_iff_getElem?.mpr ⟨j, Ne.symm hne, table_getElem hs⟩
  exact (h.resting.at hpc).1 _ hmem

/-- Where a session has been removed, no pass has begun. -/
theorem Orderly.removed_rest (h : Orderly conf w) {i : ℕ} {s t : ActiveSession} (hpc : w.io.pc = .serving i)
    (ht : w.io.activeSessions[i]? = some t) (hs' : w'.io.activeSessions = swapRemove w.io.activeSessions i)
    (hs : s ∈ w'.io.activeSessions) : s.state.pc = .passStart := by
  have htable : w'.io.table = swapRemove w.io.table i := by
    unfold Io.table
    rw [hs', map_swapRemove]
  exact h.resting.swapRemove hpc ht htable _ (List.mem_map_of_mem hs)

end

end ModHttp3.Process
