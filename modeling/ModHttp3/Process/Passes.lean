import ModHttp3.Process.Handshakes

/-! The loops of the thread over a table that loses entries on the way, with a record of their rounds; one run
of the loop in `progress_pending_handshakes`. -/
namespace ModHttp3.Process
open Session ModHttp3.System Lib

def ThreadPc.inProgress : ThreadPc → Bool
  | .progress _ _ => true
  | _ => false

/-- The thread with the rounds of its loops that are over: the entries, with the outcome of each or with
whether the session was destroyed. `called` are the calls of `service_session_pass`. -/
structure Passing where
  io : Io
  handshakes : List (PendingHandshake × HandshakeOutcome)
  called : List Conn
  sessions : List (Conn × Bool)

namespace Passing

def start (io : Io) : Passing := ⟨io, [], [], []⟩

def noteHandshake (w : Passing) (i : ℕ) (act : IoAct) : Passing :=
  match w.io.pendingHandshakes[i]?, act.outcome with
  | some p, some o => { w with handshakes := w.handshakes ++ [(p, o)] }
  | _, _ => w

def noteSession (conf : IoConf) (w : Passing) (i : ℕ) (a : Answer) : Passing :=
  match w.io.activeSessions[i]? with
  | none => w
  | some s => match s.state.pc with
    | .passStart => { w with called := w.called ++ [s.qconn] }
    | .passEnd => { w with sessions := w.sessions ++ [(s.qconn, s.destroyedBy conf a)] }
    | _ => w

def noted (conf : IoConf) (w : Passing) (act : IoAct) : Passing :=
  match w.io.pc, act with
  | .progress _ i, act => w.noteHandshake i act
  | .serving i, .session a => w.noteSession conf i a
  | _, _ => w

def step (conf : IoConf) (w : Passing) (act : IoAct) : Option Passing :=
  (w.io.step conf act).map fun io => { w.noted conf act with io := io }

/-- At the index `i` of the loop over the pending handshakes the entry may have any outcome, and behind the
last entry the loop is left. -/
structure HandshakeTurn (conf : IoConf) (w : Passing) (now : ℤ) (i : ℕ) : Prop where
  any : ∀ p o, w.io.pendingHandshakes[i]? = some p → (o = .timedOut ↔ p.overdue conf now = true) →
    ∃ act w', act.ofThread = true ∧ w.step conf act = some w' ∧ w'.handshakes = w.handshakes ++ [(p, o)]
  last : w.io.pendingHandshakes[i]? = none → ∃ w', w.step conf .go = some w' ∧ w'.io.pc = .serving 0

end Passing

section
variable {conf : IoConf} {io io' : Io} {w w' : Passing} {now : ℤ} {i : ℕ} {act : IoAct}

namespace Passing

private theorem noteHandshake_silent (ho : act.outcome = none) : w.noteHandshake i act = w := by
  unfold noteHandshake
  rw [ho]
  split
  · cases ‹none = some _›
  · rfl

theorem noted_aside (hact : act.ofThread = false) : w.noted conf act = w := by
  have hout : act.outcome = none := by cases act <;> first | rfl | cases hact
  unfold noted
  split
  · exact noteHandshake_silent hout
  · cases hact
  · rfl

theorem noteHandshake_none (hp : w.io.pendingHandshakes[i]? = none) : w.noteHandshake i act = w := by
  unfold noteHandshake
  rw [hp]

theorem noteHandshake_some {p : PendingHandshake} {o : HandshakeOutcome}
    (hp : w.io.pendingHandshakes[i]? = some p) (ho : act.outcome = some o) :
    w.noteHandshake i act = { w with handshakes := w.handshakes ++ [(p, o)] } := by
  unfold noteHandshake
  rw [hp, ho]

theorem noted_progress (hpc : w.io.pc = .progress now i) : w.noted conf act = w.noteHandshake i act := by
  unfold noted
  rw [hpc]

/-- What a step can be inside the loop over the pending handshakes. -/
inductive HandshakeMove (conf : IoConf) (w : Passing) (now : ℤ) (i : ℕ) : IoAct → Passing → Prop
  | aside {act : IoAct} {io : Io} (hact : act.ofThread = false) (hpc : io.pc = w.io.pc)
      (hpend : io.pendingHandshakes = w.io.pendingHandshakes) : HandshakeMove conf w now i act { w with io := io }
  | leaves {act : IoAct} (hact : act.ofThread = true) (hend : w.io.pendingHandshakes[i]? = none) :
      HandshakeMove conf w now i act { w with io := { w.io with pc := .serving 0 } }
  | kept {act : IoAct} {io : Io} {p : PendingHandshake} (hact : act.ofThread = true)
      (hp : w.io.pendingHandshakes[i]? = some p) (hover : ¬p.overdue conf now = true)
      (hpc : io.pc = .progress now (i + 1)) (hpend : io.pendingHandshakes = w.io.pendingHandshakes) :
      HandshakeMove conf w now i act { w with io := io, handshakes := w.handshakes ++ [(p, .waiting)] }
  | removed {act : IoAct} {io : Io} {p : PendingHandshake} {o : HandshakeOutcome} (hact : act.ofThread = true)
      (hp : w.io.pendingHandshakes[i]? = some p) (hover : o = .timedOut ↔ p.overdue conf now = true)
      (ho : o ≠ .waiting) (hpc : io.pc = .progress now i)
      (hpend : io.pendingHandshakes = swapRemove w.io.pendingHandshakes i) :
      HandshakeMove conf w now i act { w with io := io, handshakes := w.handshakes ++ [(p, o)] }

end Passing

theorem threadStep_progress (hpc : io.pc = .progress now i) :
    io.threadStep conf act = match io.pendingHandshakes[i]? with
      | some p => io.progressPendingHandshake conf now i p act
      | none => some { io with pc := .serving 0 } := by
  cases io
  cases hpc
  cases act <;> rfl

namespace Passing

private theorem threadStep_handshakeMove (hpc : w.io.pc = .progress now i) (hact : act.ofThread = true)
    (h : w.io.threadStep conf act = some io) :
    HandshakeMove conf w now i act { w.noteHandshake i act with io := io } := by
  rw [threadStep_progress hpc] at h
  cases hp : w.io.pendingHandshakes[i]? with
  | none =>
    rw [hp] at h
    cases h
    rw [noteHandshake_none hp]
    exact .leaves hact hp
  | some p =>
    rw [hp] at h
    obtain ⟨o, ho, hover, ⟨rfl, hpc', hpend⟩ | ⟨hne, hpc', hpend⟩⟩ := progress_round hpc hp h
    · rw [noteHandshake_some hp ho]
      exact .kept hact hp (hover.not.mp nofun) hpc' hpend
    · rw [noteHandshake_some hp ho]
      exact .removed hact hp hover hne hpc' hpend

theorem step_handshakeMove (hpc : w.io.pc = .progress now i) (h : w.step conf act = some w') :
    HandshakeMove conf w now i act w' := by
  obtain ⟨io, hio, rfl⟩ := Option.map_eq_some_iff.mp h
  cases hact : act.ofThread with
  | false =>
    obtain ⟨hpc', hpend, -⟩ := step_aside hact hio
    rw [noted_aside hact]
    exact .aside hact hpc' hpend
  | true =>
    rw [step_ofThread hact] at hio
    rw [noted_progress hpc]
    exact threadStep_handshakeMove hpc hact hio

/-- The rounds that are left to the loop over the pending handshakes, with the exit of the loop. -/
def handshakesLeft (w : Passing) : ℕ :=
  match w.io.pc with
  | .progress _ i => w.io.pendingHandshakes.length - i + 1
  | _ => 0

theorem handshakesLeft_progress (hpc : w.io.pc = .progress now i) :
    w.handshakesLeft = w.io.pendingHandshakes.length - i + 1 := by
  unfold handshakesLeft
  rw [hpc]

private theorem handshakesLeft_step (hpc : w.io.pc = .progress now i) (h : w.step conf act = some w') :
    if act.ofThread then w'.handshakesLeft < w.handshakesLeft else w'.handshakesLeft = w.handshakesLeft := by
  rw [handshakesLeft_progress hpc]
  cases step_handshakeMove hpc h with
  | aside hact hpc' hpend =>
    rw [if_neg (by rw [hact]; nofun), handshakesLeft_progress (i := i) (hpc'.trans hpc), hpend]
  | leaves hact hend =>
    rw [if_pos hact]
    exact Nat.succ_pos _
  | kept hact hp hover hpc' hpend =>
    have hi := (List.getElem?_eq_some_iff.mp hp).1
    rw [if_pos hact, handshakesLeft_progress hpc', hpend]
    omega
  | removed hact hp hover ho hpc' hpend =>
    have hi := (List.getElem?_eq_some_iff.mp hp).1
    have hlen := length_swapRemove hp
    rw [if_pos hact, handshakesLeft_progress hpc', hpend]
    omega

/-- Every outcome of an entry is that of some answer. -/
private theorem step_outcome {p : PendingHandshake} {o : HandshakeOutcome} (hpc : w.io.pc = .progress now i)
    (hp : w.io.pendingHandshakes[i]? = some p) (ho : o = .timedOut ↔ p.overdue conf now = true) :
    ∃ act w', act.ofThread = true ∧ w.step conf act = some w' ∧ w'.handshakes = w.handshakes ++ [(p, o)] := by
  have hstep : ∀ act io, act.outcome = some o → act.ofThread = true →
      w.io.progressPendingHandshake conf now i p act = some io →
      ∃ act w', act.ofThread = true ∧ w.step conf act = some w' ∧ w'.handshakes = w.handshakes ++ [(p, o)] := by
    intro act io hout hact hio
    refine ⟨act, { w.noteHandshake i act with io := io }, hact, ?_, ?_⟩
    · unfold step
      rw [step_ofThread hact, threadStep_progress hpc, hp, noted_progress hpc]
      exact congrArg (Option.map _) hio
    · rw [noteHandshake_some hp hout]
  cases hover : p.overdue conf now with
  | true =>
    obtain rfl := ho.mpr hover
    exact hstep .go _ rfl rfl (if_pos (of_decide_eq_true hover))
  | false =>
    have hnot : ¬conf.handshakeTimeout ≤ now - p.acceptedAt := of_decide_eq_false hover
    cases o with
    | timedOut => exact absurd (ho.mp rfl) (by rw [hover]; nofun)
    | closed => exact hstep (.handshake .closed) _ rfl rfl (if_neg hnot)
    | finished => exact hstep (.handshake (.done .noPool)) _ rfl rfl (if_neg hnot)
    | waiting => exact hstep (.handshake .waiting) _ rfl rfl (if_neg hnot)

theorem handshakeTurn (hpc : w.io.pc = .progress now i) : w.HandshakeTurn conf now i where
  any p o hp ho := step_outcome hpc hp ho
  last hend := by
    refine ⟨{ w with io := { w.io with pc := .serving 0 } }, ?_, rfl⟩
    have hgo : w.io.step conf .go = some { w.io with pc := .serving 0 } := by
      rw [step_ofThread rfl, threadStep_progress hpc, hend]
    unfold step
    rw [hgo, noted_progress hpc, noteHandshake_none hend]
    rfl

/-- The loop over the pending handshakes, which began with the entries `init`, is at the index `i`. -/
structure InHandshakes (conf : IoConf) (init : List PendingHandshake) (now : ℤ) (w : Passing) (i : ℕ) : Prop where
  pc : w.io.pc = .progress now i
  sweep : ∃ s : Sweep (fun o : HandshakeOutcome => decide (o = .waiting)) init,
    s.array = w.io.pendingHandshakes ∧ s.index = i ∧ s.rounds = w.handshakes
  overdue : ∀ r ∈ w.handshakes, r.2 = .timedOut ↔ r.1.overdue conf now = true

/-- The loop is over: it came to each entry once, and those that still wait are left. -/
structure HandshakesDone (conf : IoConf) (init : List PendingHandshake) (now : ℤ) (w : Passing) : Prop where
  pc : w.io.pc = .serving 0
  once : (w.handshakes.map Prod.fst).Perm init
  left : w.io.pendingHandshakes = (w.handshakes.filter fun r => r.2 = .waiting).map Prod.fst
  overdue : ∀ r ∈ w.handshakes, r.2 = .timedOut ↔ r.1.overdue conf now = true

private theorem inHandshakes_start (hpc : io.pc = .progress now 0) :
    InHandshakes conf io.pendingHandshakes now (start io) 0 where
  pc := hpc
  sweep := ⟨.start _ _, rfl, rfl, rfl⟩
  overdue _ hr := absurd hr List.not_mem_nil

theorem overdue_concat {rounds : List (PendingHandshake × HandshakeOutcome)} {p : PendingHandshake}
    {o : HandshakeOutcome} (h : ∀ r ∈ rounds, r.2 = .timedOut ↔ r.1.overdue conf now = true)
    (ho : o = .timedOut ↔ p.overdue conf now = true) :
    ∀ r ∈ rounds ++ [(p, o)], r.2 = .timedOut ↔ r.1.overdue conf now = true := by
  intro r hr
  rcases List.mem_append.mp hr with hr | hr
  · exact h r hr
  · rw [List.mem_singleton.mp hr]
    exact ho

theorem InHandshakes.step {init : List PendingHandshake} (hI : InHandshakes conf init now w i)
    (h : w.step conf act = some w') : (∃ j, InHandshakes conf init now w' j) ∨ HandshakesDone conf init now w' := by
  obtain ⟨s, harray, rfl, hrounds⟩ := hI.sweep
  cases step_handshakeMove hI.pc h with
  | aside hact hpc hpend =>
    exact .inl ⟨s.index, hpc.trans hI.pc, ⟨s, harray.trans hpend.symm, rfl, hrounds⟩, hI.overdue⟩
  | leaves hact hend =>
    rw [← harray] at hend
    obtain ⟨honce, hleft⟩ := s.finish hend
    rw [hrounds] at honce hleft
    rw [harray] at hleft
    exact .inr ⟨rfl, honce, hleft, hI.overdue⟩
  | kept hact hp hover hpc hpend =>
    rw [← harray] at hp
    refine .inl ⟨s.index + 1, hpc, ⟨s.keep hp (o := .waiting) rfl, harray.trans hpend.symm, rfl, ?_⟩, ?_⟩
    · exact congrArg (· ++ _) hrounds
    · exact overdue_concat hI.overdue (iff_of_false nofun hover)
  | removed hact hp hover ho hpc hpend =>
    rw [← harray] at hp hpend
    refine .inl ⟨s.index, hpc, ⟨s.remove hp (decide_eq_false ho), hpend.symm, rfl, ?_⟩, ?_⟩
    · exact congrArg (· ++ _) hrounds
    · exact overdue_concat hI.overdue hover

theorem InHandshakes.rounds_length {init : List PendingHandshake}
    (hI : InHandshakes conf init now w i) : w.handshakes.length ≤ init.length := by
  obtain ⟨s, -, -, hrounds⟩ := hI.sweep
  have hlen := s.rounds_length
  rw [hrounds] at hlen
  omega

/-- One run of the loop, from its start on. -/
theorem handshakes_reach (hpc : io.pc = .progress now 0)
    (h : Reach (step conf) (fun w _ => w.io.pc.inProgress) (start io) w) :
    (∃ i, InHandshakes conf io.pendingHandshakes now w i) ∨ HandshakesDone conf io.pendingHandshakes now w := by
  induction h with
  | start => exact .inl ⟨0, inHandshakes_start hpc⟩
  | next _ hok hs ih =>
    rcases ih with ⟨i, hI⟩ | hD
    · exact hI.step hs
    · rw [hD.pc] at hok
      cases hok

/-- The loop ends, if the thread is scheduled again and again. -/
theorem handshakes_end {run : ℕ → Passing} {acts : ℕ → IoAct} (hpc : io.pc = .progress now 0)
    (hrun : RunsWhile (step conf) (fun w => w.io.pc.inProgress) (start io) run acts)
    (hagain : ∀ n, ∃ m, n ≤ m ∧ ((run m).io.pc.inProgress → (acts m).ofThread)) :
    ∃ n, HandshakesDone conf io.pendingHandshakes now (run n) := by
  have hnear : ∀ w act w', Reach (step conf) (fun w _ => w.io.pc.inProgress) (start io) w → w.io.pc.inProgress →
      w.step conf act = some w' →
      if act.ofThread then w'.handshakesLeft < w.handshakesLeft else w'.handshakesLeft = w.handshakesLeft := by
    intro w act w' hr hin hs
    rcases handshakes_reach hpc hr with ⟨i, hI⟩ | hD
    · exact handshakesLeft_step hI.pc hs
    · rw [hD.pc] at hin
      cases hin
  obtain ⟨n, hr, hout⟩ := hrun.leaves handshakesLeft (fun _ => IoAct.ofThread) hnear hagain
  rcases handshakes_reach hpc hr with ⟨i, hI⟩ | hD
  · exact absurd (by rw [hI.pc]; rfl) hout
  · exact ⟨n, hD⟩

end Passing

end

end ModHttp3.Process
