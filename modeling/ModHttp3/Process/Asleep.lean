import ModHttp3.Process.Watch

/-! What is true of the sessions while the event thread sleeps: the output of the workers has been flushed, a
child that drains or stops has sent its GOAWAY, and no drain has left data behind for want of budget. -/
namespace ModHttp3.Process
open Session ModHttp3.System Lib

/-- Something was signalled, or will be. -/
def Waking.signalled (w : Waking) : Prop := 0 < w.queued ∨ w.owed ≠ []

section
variable {conf : IoConf} {capacity : ℕ} {w w' : Waking} {act : WakeAct}

private theorem after_session {i : ℕ} {s : ActiveSession} {a : Answer} {σ : State} (hpc : w.io.pc = .serving i)
    (hs : w.io.activeSessions[i]? = some s) (hσ : s.state.eventStep conf.session a = some σ) (io : Io) :
    w.after conf (.session a) io = { w.noteSession s σ with io := io } := by
  unfold Waking.after
  rw [hpc]
  dsimp only
  rw [hs, Option.bind_some, hσ]
  rfl

theorem step_session {i : ℕ} {s : ActiveSession} {a : Answer} {σ : State}
    (h : w.step conf capacity (.io (.session a)) = some w') (hpc : w.io.pc = .serving i)
    (hs : w.io.activeSessions[i]? = some s) (hσ : s.state.eventStep conf.session a = some σ) :
    w.reads (.session a) ∧ ∃ io, w.io.step conf (.session a) = some io ∧ w' = { w.noteSession s σ with io := io } := by
  unfold Waking.step at h
  dsimp only at h
  split_ifs at h with hgate
  obtain ⟨io, hio, rfl⟩ := Option.map_eq_some_iff.mp h
  simp only [Bool.or_eq_true, Bool.not_eq_true', not_or, Bool.not_eq_true, Bool.not_eq_false] at hgate
  exact ⟨hgate.2, io, hio, after_session hpc hs hσ io⟩

/-- The flags that other threads set. -/
def Io.flags (io : Io) : Bool × Bool := (io.threadRunning, io.draining)

/-- The thread has left its loop. -/
def ThreadPc.left : ThreadPc → Bool
  | .leaving | .exited => true
  | _ => false

end

/-! One session with one request, as the threads take their turns. -/
section

def WakeAct.ofAction : Action → WakeAct
  | .event a => .io (.session a)
  | .worker k w => .io (.worker 0 k w)

/-- The rest of a pass with nothing to read, after which the thread waits. -/
def quietPass : List WakeAct :=
  List.map .ofAction ([.event (.flag false), .event (.noMore [0, 3, 7, 11]), .event .go,
    .event (.state .ok .ok), .event .nothing, .event .go, .event .go, .event .go, .event .go, .event .go,
    .event .go] ++ endPass) ++ [.io .go, .io .go]

end

section
variable {conf : IoConf} {capacity : ℕ} {w : Waking}

end

end ModHttp3.Process
