import ModHttp3.Process.Resting

/-! When pending handshakes expire. The thread looks for overdue entries only in an iteration that
also accepts connections, so while it drains, or winds up its sessions after a stop, they stay. -/
namespace ModHttp3.Process
open Session ModHttp3.System Lib

/-- `now - pending->accepted_at >= timeout`. -/
def PendingHandshake.overdue (conf : IoConf) (now : ℤ) (p : PendingHandshake) : Bool :=
  decide (conf.handshakeTimeout ≤ now - p.acceptedAt)

/-- How a round of the loop in `progress_pending_handshakes` finds its entry. -/
inductive HandshakeOutcome
  | timedOut
  | closed
  | finished
  | waiting
  deriving DecidableEq, Repr

def IoAct.outcome : IoAct → Option HandshakeOutcome
  | .go => some .timedOut
  | .handshake .closed => some .closed
  | .handshake (.done _) => some .finished
  | .handshake .waiting => some .waiting
  | _ => none

/-- Some entry has been pending for the timeout or longer. -/
def Io.overdue (conf : IoConf) (io : Io) (now : ℤ) : Bool :=
  io.pendingHandshakes.any (·.overdue conf now)

/-- The test before the branch that accepts connections and progresses handshakes. -/
def Io.accepts (io : Io) : Bool := io.threadRunning && !io.draining

/-- The thread with the clock of its iteration: what `progress_pending_handshakes` reads or, where
it is not called, the time of the test. `missed` records that the test of this iteration failed
while an entry was overdue. -/
structure Timed where
  io : Io
  iteration : ℤ
  missed : Bool

namespace Timed

def start : Timed := ⟨.start, 0, false⟩

/-- The record after a step to `io` at the time `time`. -/
def stamp (conf : IoConf) (t : Timed) (time : ℤ) (io : Io) (act : IoAct) : Timed :=
  match t.io.pc, act with
  | .pumped, .go => ⟨io, time, !t.io.accepts && t.io.overdue conf time⟩
  | .accepting, .accept none _ now => ⟨io, now, t.missed⟩
  | _, _ => ⟨io, t.iteration, t.missed⟩

/-- A step at the time `a.1`. -/
def step (conf : IoConf) (t : Timed) (a : ℤ × IoAct) : Option Timed :=
  (t.io.step conf a.2).map fun io => t.stamp conf a.1 io a.2

/-- The invariant: inside the loop over the entries, those before the index are not overdue. -/
def Expired (conf : IoConf) (t : Timed) : Prop :=
  match t.io.pc with
  | .loop | .serving _ => t.missed = t.io.overdue conf t.iteration
  | .accepting => t.missed = false
  | .progress now i =>
    t.iteration = now ∧ t.missed = false ∧
      (t.io.pendingHandshakes.take i).any (·.overdue conf now) = false
  | .pumped | .leaving | .exited => True

end Timed

section
variable {conf : IoConf} {io io' : Io} {t t' : Timed}

/-- A round on the entry at `i`: it stays and is passed, or it is removed and the index stays. -/
theorem progress_round {now : ℤ} {i : ℕ} {p : PendingHandshake} {act : IoAct}
    (hpc : io.pc = .progress now i) (hp : io.pendingHandshakes[i]? = some p)
    (h : io.progressPendingHandshake conf now i p act = some io') :
    ∃ o, act.outcome = some o ∧ (o = .timedOut ↔ p.overdue conf now = true) ∧
      (o = .waiting ∧ io'.pc = .progress now (i + 1) ∧ io'.pendingHandshakes = io.pendingHandshakes ∨
        o ≠ .waiting ∧ io'.pc = .progress now i ∧
          io'.pendingHandshakes = swapRemove io.pendingHandshakes i) := by
  unfold Io.progressPendingHandshake at h
  split at h
  · split_ifs at h with hover
    cases h
    rw [removePendingHandshake_eq hp]
    exact ⟨.timedOut, rfl, iff_of_true rfl (decide_eq_true hover), .inr ⟨nofun, hpc, rfl⟩⟩
  · split_ifs at h with hover
    have hnot : ¬p.overdue conf now = true := fun h => hover (of_decide_eq_true h)
    split at h
    · cases h
      rw [removePendingHandshake_eq hp]
      exact ⟨.closed, rfl, iff_of_false nofun hnot, .inr ⟨nofun, hpc, rfl⟩⟩
    · obtain ⟨io₁, hs, rfl⟩ := Option.map_eq_some_iff.mp h
      obtain ⟨hpc₁, hpend⟩ := spawn_frame hs
      have hp₁ : io₁.pendingHandshakes[i]? = some p := by rwa [hpend]
      rw [removePendingHandshake_eq hp₁, hpend]
      exact ⟨.finished, rfl, iff_of_false nofun hnot, .inr ⟨nofun, hpc₁.trans hpc, rfl⟩⟩
    · cases h
      exact ⟨.waiting, rfl, iff_of_false nofun hnot, .inl ⟨rfl, rfl, rfl⟩⟩
  · cases h

private theorem serve_frame {i : ℕ} {s : ActiveSession} {a : Answer} (hpc : io.pc = .serving i)
    (h : io.serveSession conf i s a = some io') :
    (∃ j, io'.pc = .serving j) ∧ io'.pendingHandshakes = io.pendingHandshakes := by
  obtain ⟨σ, -, rfl⟩ := Option.map_eq_some_iff.mp h
  split
  · rw [removeSession_eq]
    exact ⟨⟨i, hpc⟩, rfl⟩
  · refine ⟨?_, rfl⟩
    dsimp only
    split_ifs
    · exact ⟨i + 1, rfl⟩
    · exact ⟨i, rfl⟩

namespace Timed

theorem Expired.same (hE : t.Expired conf) (hpc : io'.pc = t.io.pc)
    (hp : io'.pendingHandshakes = t.io.pendingHandshakes) :
    Expired conf ⟨io', t.iteration, t.missed⟩ := by
  unfold Expired Io.overdue at *
  dsimp only
  rwa [hpc, hp]

/-- The entries before the index are not overdue, and the one at the index is removed or passed. -/
theorem Expired.progress {now : ℤ} {i : ℕ} {p : PendingHandshake} {act : IoAct} (hE : t.Expired conf)
    (hpc : t.io.pc = .progress now i) (hp : t.io.pendingHandshakes[i]? = some p)
    (h : t.io.progressPendingHandshake conf now i p act = some io') :
    Expired conf ⟨io', t.iteration, t.missed⟩ := by
  unfold Expired at hE ⊢
  rw [hpc] at hE
  obtain ⟨hclock, hmissed, hbefore⟩ := hE
  obtain ⟨o, -, hover, ⟨rfl, hpc', hpend⟩ | ⟨-, hpc', hpend⟩⟩ := progress_round hpc hp h
  · have hfresh : p.overdue conf now = false := by
      rw [← Bool.not_eq_true, ← hover]
      nofun
    have hpassed : (t.io.pendingHandshakes.take (i + 1)).any (·.overdue conf now) = false := by
      rw [List.take_add_one, hp, List.any_append, hbefore]
      simpa using hfresh
    dsimp only
    rw [hpc', hpend]
    exact ⟨hclock, hmissed, hpassed⟩
  · dsimp only
    rw [hpc', hpend]
    dsimp only
    rw [take_swapRemove hp]
    exact ⟨hclock, hmissed, hbefore⟩

/-- Past the last entry none is overdue. -/
theorem Expired.finish {now : ℤ} {i : ℕ} (hE : t.Expired conf) (hpc : t.io.pc = .progress now i)
    (hp : t.io.pendingHandshakes[i]? = none) :
    Expired conf ⟨{ t.io with pc := .serving 0 }, t.iteration, t.missed⟩ := by
  unfold Expired at hE ⊢
  rw [hpc] at hE
  obtain ⟨hclock, hmissed, hbefore⟩ := hE
  rw [List.take_of_length_le (List.getElem?_eq_none_iff.mp hp)] at hbefore
  dsimp only
  rw [hmissed, hclock]
  exact hbefore.symm

/-- The test of the iteration: if it fails, the entries stay as they are until the next one. -/
theorem Expired.test (t : Timed) (time : ℤ) :
    Expired conf ⟨{ t.io with pc := if t.io.accepts then .accepting else .serving 0 }, time,
      !t.io.accepts && t.io.overdue conf time⟩ := by
  unfold Expired
  cases t.io.accepts <;> rfl

theorem Expired.accept (hE : t.Expired conf) (hpc : t.io.pc = .accepting) (conn : Conn)
    (prepared : Bool) (now : ℤ) :
    Expired conf ⟨t.io.acceptConnection conf conn prepared now, t.iteration, t.missed⟩ := by
  have hpc' : (t.io.acceptConnection conf conn prepared now).pc = .accepting := by
    unfold Io.acceptConnection
    dsimp only
    split_ifs
    · exact hpc
    · rw [noteConnAdded_eq]
      exact hpc
  unfold Expired at hE ⊢
  rw [hpc] at hE
  dsimp only
  rw [hpc']
  exact hE

theorem Expired.serve {i : ℕ} {s : ActiveSession} {a : Answer} (hE : t.Expired conf)
    (hpc : t.io.pc = .serving i) (h : t.io.serveSession conf i s a = some io') :
    Expired conf ⟨io', t.iteration, t.missed⟩ := by
  obtain ⟨⟨j, hpc'⟩, hpend⟩ := serve_frame hpc h
  unfold Expired Io.overdue at *
  rw [hpc] at hE
  dsimp only
  rw [hpc', hpend]
  exact hE

private theorem stamp_pumped (hpc : t.io.pc = .pumped) (time : ℤ) (io : Io) :
    t.stamp conf time io .go = ⟨io, time, !t.io.accepts && t.io.overdue conf time⟩ := by
  unfold stamp
  rw [hpc]

private theorem stamp_accepting (hpc : t.io.pc = .accepting) (time now : ℤ) (prepared : Bool) (io : Io) :
    t.stamp conf time io (.accept none prepared now) = ⟨io, now, t.missed⟩ := by
  unfold stamp
  rw [hpc]

theorem stamp_other (h₁ : t.io.pc ≠ .pumped) (h₂ : t.io.pc ≠ .accepting) (time : ℤ) (io : Io)
    (act : IoAct) : t.stamp conf time io act = ⟨io, t.iteration, t.missed⟩ := by
  unfold stamp
  split
  · exact absurd ‹_› h₁
  · exact absurd ‹_› h₂
  · rfl

theorem stamp_silent {act : IoAct} (h₁ : act ≠ .go) (h₂ : ∀ b n, act ≠ .accept none b n) (time : ℤ)
    (io : Io) : t.stamp conf time io act = ⟨io, t.iteration, t.missed⟩ := by
  unfold stamp
  split
  · exact absurd rfl h₁
  · exact absurd rfl (h₂ _ _)
  · rfl

theorem Expired.threadStep {time : ℤ} {act : IoAct} (hE : t.Expired conf)
    (h : t.io.threadStep conf act = some io') : Expired conf (t.stamp conf time io' act) := by
  unfold Io.threadStep at h
  split at h
  case h_1 hpc =>
    cases h
    rw [stamp_other (by simp [hpc]) (by simp [hpc])]
    unfold Expired
    dsimp only
    split_ifs <;> trivial
  case h_2 hpc =>
    cases h
    rw [stamp_pumped hpc]
    exact Expired.test t time
  case h_3 hpc =>
    cases h
    rw [stamp_accepting hpc]
    unfold Expired at hE
    rw [hpc] at hE
    exact ⟨rfl, hE, rfl⟩
  case h_4 hpc =>
    split_ifs at h
    cases h
    rw [stamp_silent (by nofun) (by nofun)]
    exact hE.accept hpc _ _ _
  case h_5 now i hpc =>
    rw [stamp_other (by simp [hpc]) (by simp [hpc])]
    split at h
    · exact hE.progress hpc ‹_› h
    · cases h
      exact hE.finish hpc ‹_›
  case h_6 i a hpc =>
    rw [stamp_other (by simp [hpc]) (by simp [hpc])]
    obtain ⟨s, -, hserve⟩ := Option.bind_eq_some_iff.mp h
    exact hE.serve hpc hserve
  case h_7 i hpc =>
    rw [stamp_other (by simp [hpc]) (by simp [hpc])]
    split_ifs at h
    cases h
    unfold Expired at hE
    rw [hpc] at hE
    exact hE
  case h_8 hpc =>
    rw [stamp_other (by simp [hpc]) (by simp [hpc])]
    split_ifs at h
    · cases h
      trivial
    · cases h
      have hpc' : (t.io.removePendingHandshake conf 0 true).pc = .leaving := by
        unfold Io.removePendingHandshake
        split
        · exact hpc
        · dsimp only
          rw [noteConnRemoved_eq]
          exact hpc
      unfold Expired
      dsimp only
      rw [hpc']
      trivial
  · cases h

theorem Expired.step {a : ℤ × IoAct} (hE : t.Expired conf) (h : t.step conf a = some t') :
    t'.Expired conf := by
  obtain ⟨io', hio, rfl⟩ := Option.map_eq_some_iff.mp h
  obtain ⟨time, act⟩ := a
  dsimp only at hio ⊢
  cases hact : act.ofThread with
  | false =>
    obtain ⟨hpc, hpend, -⟩ := step_aside hact hio
    rw [stamp_silent (by rintro rfl; cases hact) (by rintro b n rfl; cases hact)]
    exact hE.same hpc hpend
  | true =>
    rw [step_ofThread hact] at hio
    exact hE.threadStep hio

private theorem expired_start (conf : IoConf) : Expired conf .start := by
  unfold Expired
  rfl

private theorem expired_reach (h : Reach (Timed.step conf) anyStep .start t) : t.Expired conf :=
  h.invariant (expired_start conf) fun _ _ _ hE _ hs => hE.step hs

/-- After an iteration no entry is overdue by its clock unless its test failed over an overdue one. -/
theorem handshake_timeout_iff (h : Reach (Timed.step conf) anyStep .start t) (hpc : t.io.pc = .loop) :
    (∀ p ∈ t.io.pendingHandshakes, t.iteration - p.acceptedAt < conf.handshakeTimeout) ↔
      t.missed = false := by
  have hE := expired_reach h
  unfold Expired at hE
  rw [hpc] at hE
  dsimp only at hE
  rw [hE]
  unfold Io.overdue PendingHandshake.overdue
  simp only [List.any_eq_false, decide_eq_true_eq, Int.not_le]

end Timed

end

/-- An iteration in which a connection is taken, and whose clock shows `now`. -/
def firstIteration (now : ℤ) : List (ℤ × IoAct) :=
  [(0, .go), (0, .go), (0, .accept (some 5) true 0), (now, .accept none true now), (now, .handshake .waiting),
    (now, .go), (now, .go)]

theorem handshake_timeout_iff_firstIteration :
    ∃ t, Reach (Timed.step sampleIoConf) anyStep .start t ∧ t.io.pendingHandshakes = [⟨5, 0⟩] ∧
      t.iteration = 9 ∧ ∀ p ∈ t.io.pendingHandshakes, t.iteration - p.acceptedAt < 10 := by
  have hrun : (runActions (Timed.step sampleIoConf) .start (firstIteration 9)).map
      (fun t => (t.io.pc, t.io.pendingHandshakes, t.iteration, t.missed)) =
        some (.loop, [⟨5, 0⟩], 9, false) := by decide +kernel
  obtain ⟨t, ht, he⟩ := Option.map_eq_some_iff.mp hrun
  simp only [Prod.mk.injEq] at he
  obtain ⟨hpc, hpend, hclock, hmissed⟩ := he
  have hr := Reach.of_runActions _ ht
  exact ⟨t, hr, hpend, hclock, (Timed.handshake_timeout_iff hr hpc).mpr hmissed⟩

/-- The thread drains: ten times the timeout later the handshake is pending still, and the MPM counts
its connection although no session is left. -/
theorem draining_keeps_handshake :
    ∃ t, Reach (Timed.step sampleIoConf) anyStep .start t ∧ t.io.pc = .loop ∧ t.io.threadRunning ∧
      t.io.draining ∧ t.io.activeSessions.length = 0 ∧ t.io.balance = 1 ∧
      ¬ ∀ p ∈ t.io.pendingHandshakes, t.iteration - p.acceptedAt < sampleIoConf.handshakeTimeout := by
  have hrun : (runActions (Timed.step sampleIoConf) .start
      (firstIteration 0 ++ [(1, .drain), (100, .go), (100, .go), (100, .go)])).map
      (fun t => ((t.io.pc, t.io.threadRunning, t.io.draining), (t.io.activeSessions.length, t.io.balance),
        t.io.pendingHandshakes, t.iteration)) =
        some ((.loop, true, true), (0, 1), [⟨5, 0⟩], 100) := by decide +kernel
  obtain ⟨t, ht, he⟩ := Option.map_eq_some_iff.mp hrun
  simp only [Prod.mk.injEq] at he
  obtain ⟨⟨hpc, hrunning, hdraining⟩, ⟨hsessions, hbalance⟩, hpend, hclock⟩ := he
  refine ⟨t, Reach.of_runActions _ ht, hpc, hrunning, hdraining, hsessions, hbalance, ?_⟩
  rw [hpend, hclock]
  decide

end ModHttp3.Process
