import ModHttp3.System.Safety

/-! The idle check of `service_session_pass`: the session beside a clock, the activity seen in a
pass, and the responses that no flush has followed yet. -/
namespace ModHttp3.System
open Session Lib

structure IdleConf where
  session : SessionConf
  idleTimeout : ℤ

/-- `hadActivity` is the variable of the pass. `unflushed` records the streams whose response a
worker has submitted, appended to or completed since `flush_nghttp3` last returned. -/
structure Timed where
  sys : State
  now : ℤ
  lastActivity : ℤ
  threadRunning : Bool
  hadActivity : Bool
  unflushed : List ℤ

def Timed.start (now : ℤ) : Timed := ⟨.start, now, now, true, false, []⟩

/-- `sent` tells whether a call of `h3q_stream_write` accepts anything. -/
inductive TimedAct
  | tick (d : ℕ)
  | stop
  | step (act : Action) (sent : Bool)

def EventPc.flushes : EventPc → Bool
  | .flush _ _ => true
  | _ => false

/-- The stream whose response the step changes. -/
def State.respondsOn (σ : State) : Action → Option ℤ
  | .worker i (.respond _) => σ.tasks[i]?.map Task.sid
  | _ => none

namespace Timed

/-- The test of the idle check. -/
def isIdle (conf : IdleConf) (w : Timed) : Bool :=
  !w.hadActivity && w.threadRunning && w.sys.session.activeTasks == 0 &&
    decide (conf.idleTimeout ≤ w.now - w.lastActivity)

/-- The answer of the idle check is that of its test. -/
def admits (conf : IdleConf) (w : Timed) (act : Action) : Bool :=
  match w.sys.pc, act with
  | .idleCheck, .event (.flag idle) => idle == w.isIdle conf
  | _, _ => true

def activityAfter (w : Timed) (act : Action) : Bool :=
  match w.sys.pc, act with
  | .connCheck, .event _ => false
  | .accepting, .event (.accepted _ _ _) => true
  | .drain d .returned, .event _ => w.hadActivity || d.dataRead || !d.completed.isEmpty
  | _, _ => w.hadActivity

def lastActivityAfter (w : Timed) (act : Action) (sent : Bool) : ℤ :=
  match w.sys.pc, act with
  | .flush _ (.write _), .event _ => if sent then w.now else w.lastActivity
  | .idleCheck, .event _ => if w.hadActivity then w.now else w.lastActivity
  | _, _ => w.lastActivity

def after (w : Timed) (act : Action) (sent : Bool) (σ : State) : Timed :=
  { w with
    sys := σ
    lastActivity := w.lastActivityAfter act sent
    hadActivity := w.activityAfter act
    unflushed :=
      if w.sys.pc.flushes && !σ.pc.flushes then []
      else (w.sys.respondsOn act).toList ++ w.unflushed }

def step (conf : IdleConf) (w : Timed) : TimedAct → Option Timed
  | .tick d => some { w with now := w.now + d }
  | .stop => some { w with threadRunning := false }
  | .step act sent =>
    if w.admits conf act then (w.sys.step conf.session act).map (w.after act sent) else none

end Timed

/-- The worker has the response in hand. -/
def Phase.responds : Phase → Bool
  | .processing | .marking | .marked => true
  | _ => false

namespace Timed

/-- The event thread stands before an idle check that would find the session idle at this time, if there were no
tasks. -/
def expiresAt (conf : IdleConf) (w : Timed) (now : ℤ) : Bool :=
  w.sys.pc == .idleCheck && !w.hadActivity && w.threadRunning && decide (conf.idleTimeout ≤ now - w.lastActivity)

/-- For every response that no flush has followed, a worker is still counted. -/
def accounted (w : Timed) : Bool :=
  w.unflushed.all fun sid => w.sys.tasks.any fun t => t.sid == sid && t.phase.responds

/-- Before an idle check that finds the timeout over, a worker gives back its count though no flush has followed its
response, or the timeout ends after that. -/
def finishesUnseen (conf : IdleConf) (w : Timed) : TimedAct → Bool
  | .step (.worker i .go) _ =>
    w.expiresAt conf w.now && w.sys.tasks[i]?.any fun t => t.phase == .marked && w.unflushed.contains t.sid
  | .tick d => w.expiresAt conf (w.now + d) && !w.accounted
  | _ => false

end Timed

private theorem isCounted_of_responds {p : Phase} (h : p.responds) : p.isCounted := by
  cases p <;> first | rfl | cases h

section
variable {conf : SessionConf} {σ σ' : State} {act : Action}

/-- Only the return of a flush leads to the idle check. -/
private theorem eventStep_idleCheck {a : Answer} (h : σ.eventStep conf a = some σ') (hpc' : σ'.pc = .idleCheck) :
    σ.pc.flushes := by
  have hl := eventStep_leads h
  rw [hpc'] at hl
  generalize σ.pc = pc at hl ⊢
  cases hl
  rfl

theorem workerStep_aborted {s s' : H3Session} {free : Bool} {t : Task} {w : WorkerAct} {p : Phase}
    (h : workerStep s free t w = some (s', p)) : s'.aborted = s.aborted := by
  cases workerStep_work h <;> rfl

/-- The idle branch has found no task. -/
private theorem idle_no_task (hpc : σ.pc = .idleCheck) (h : σ.step conf act = some σ')
    (hbefore : σ.session.aborted = false) (hset : σ'.session.aborted) :
    act = .event (.flag true) ∧ σ.session.activeTasks = 0 := by
  cases act with
  | event a =>
    change σ.eventStep conf a = some σ' at h
    unfold State.eventStep at h
    rw [hpc] at h
    cases a with
    | flag idle =>
      dsimp only at h
      split_ifs at h with hidle hnone
      · exact ⟨by rw [hidle], hnone⟩
      · cases h
        rw [hbefore] at hset
        cases hset
    | _ => cases h
  | worker i w =>
    obtain ⟨t, -, h⟩ := Option.bind_eq_some_iff.mp h
    obtain ⟨⟨s, p⟩, hw, h⟩ := Option.bind_eq_some_iff.mp h
    cases h
    rw [workerStep_aborted hw, hbefore] at hset
    cases hset

/-- A worker that has its response in hand keeps it, or gives back its count. -/
private theorem workerStep_responds {s s' : H3Session} {free : Bool} {t : Task} {w : WorkerAct} {p : Phase}
    (h : workerStep s free t w = some (s', p)) (ht : t.phase.responds) :
    p.responds ∨ t.phase = .marked ∧ w = .go := by
  cases workerStep_work h with
  | respond | answered | mark => exact .inl rfl
  | leave hq => exact .inr ⟨hq, rfl⟩
  | begin hq | created _ hq | built _ hq | unreserve hq | release hq =>
    rw [hq] at ht
    cases ht

private theorem respond_responds {s s' : H3Session} {free : Bool} {t : Task} {call : RespondCall} {p : Phase}
    (h : workerStep s free t (.respond call) = some (s', p)) : p.responds := by
  cases workerStep_work h with
  | respond => rfl

end

section
variable {conf : IdleConf} {w w' : Timed} {act : TimedAct}

theorem Timed.accounted_iff :
    w.accounted ↔ ∀ sid ∈ w.unflushed, ∃ t ∈ w.sys.tasks, Task.sid t = sid ∧ t.phase.responds := by
  simp only [Timed.accounted, List.all_eq_true, List.any_eq_true, Bool.and_eq_true, beq_iff_eq]

/-- Before an idle check that would close the session, a worker is still counted for every response that no flush has
followed. -/
structure Watched (conf : IdleConf) (w : Timed) : Prop where
  lifetime : Lifetime w.sys
  counted : w.expiresAt conf w.now → ∀ sid ∈ w.unflushed, ∃ t ∈ w.sys.tasks, Task.sid t = sid ∧ t.phase.responds

private theorem watched_start (conf : IdleConf) (now : ℤ) : Watched conf (.start now) := ⟨lifetime_start, nofun⟩

theorem Timed.idleCheck_of_expiresAt {now : ℤ} (h : w.expiresAt conf now) : w.sys.pc = .idleCheck := by
  simp only [Timed.expiresAt, Bool.and_eq_true, beq_iff_eq] at h
  exact h.1.1.1

/-- Workers leave the variables of the idle check alone. -/
theorem Timed.expiresAt_worker {i : ℕ} {wa : WorkerAct} {sent : Bool} {σ : State} (hpc : w.sys.pc = σ.pc) :
    (w.after (.worker i wa) sent σ).expiresAt conf w.now = w.expiresAt conf w.now := by
  have hactivity : w.activityAfter (.worker i wa) = w.hadActivity := by
    unfold Timed.activityAfter
    split <;> first | rfl | (rename_i he; cases he)
  have hlast : w.lastActivityAfter (.worker i wa) sent = w.lastActivity := by
    unfold Timed.lastActivityAfter
    split <;> first | rfl | (rename_i he; cases he)
  unfold Timed.expiresAt Timed.after
  dsimp only
  rw [hactivity, hlast, hpc]

theorem Watched.worker {i : ℕ} {wa : WorkerAct} {sent : Bool} {σ : State} (hW : Watched conf w)
    (hok : w.finishesUnseen conf (.step (.worker i wa) sent) = false)
    (h : w.sys.step conf.session (.worker i wa) = some σ) (hexp : w.expiresAt conf w.now) :
    ∀ sid ∈ (w.sys.respondsOn (.worker i wa)).toList ++ w.unflushed,
      ∃ t ∈ σ.tasks, Task.sid t = sid ∧ t.phase.responds := by
  obtain ⟨t, ht, h⟩ := Option.bind_eq_some_iff.mp h
  obtain ⟨⟨s, p⟩, hw, h⟩ := Option.bind_eq_some_iff.mp h
  cases h
  have hi := (List.getElem?_eq_some_iff.mp ht).1
  have hself : (⟨t.sid, p⟩ : Task) ∈ w.sys.tasks.set i ⟨t.sid, p⟩ := List.mem_set hi _
  intro sid hmem
  rcases List.mem_append.mp hmem with hsid | hsid
  · -- the response of this step
    cases wa with
    | respond call =>
      change sid ∈ (w.sys.tasks[i]?.map Task.sid).toList at hsid
      rw [ht, Option.map_some, Option.mem_toList] at hsid
      exact ⟨_, hself, Option.some.inj hsid, respond_responds hw⟩
    | _ => cases hsid
  · obtain ⟨u, hu, hus, hur⟩ := hW.counted hexp sid hsid
    obtain ⟨j, hj⟩ := List.mem_iff_getElem?.mp hu
    by_cases hji : j = i
    · subst hji
      cases hj.symm.trans ht
      rcases workerStep_responds hw hur with hp | ⟨hm, rfl⟩
      · exact ⟨_, hself, hus, hp⟩
      · -- this worker gives back its count unseen
        have hbad : w.finishesUnseen conf (.step (.worker j .go) sent) = true := by
          simp [Timed.finishesUnseen, hexp, ht, hm, hus, hsid]
        rw [hbad] at hok
        cases hok
    · refine ⟨u, ?_, hus, hur⟩
      apply List.mem_of_getElem? (i := j)
      rw [List.getElem?_set_ne (Ne.symm hji), hj]

theorem Watched.step (hW : Watched conf w) (hok : w.finishesUnseen conf act = false)
    (h : w.step conf act = some w') : Watched conf w' := by
  cases act with
  | tick d =>
    cases h
    refine ⟨hW.lifetime, fun hexp => ?_⟩
    have hexp' : w.expiresAt conf (w.now + d) = true := hexp
    have haccounted : w.accounted = true := by simpa [Timed.finishesUnseen, hexp'] using hok
    exact Timed.accounted_iff.mp haccounted
  | stop =>
    cases h
    refine ⟨hW.lifetime, fun hexp => ?_⟩
    simp [Timed.expiresAt] at hexp
  | step act sent =>
    unfold Timed.step at h
    dsimp only at h
    split_ifs at h
    obtain ⟨σ, hσ, rfl⟩ := Option.map_eq_some_iff.mp h
    refine ⟨hW.lifetime.step hσ, fun hexp => ?_⟩
    have hpc' : σ.pc = .idleCheck := Timed.idleCheck_of_expiresAt hexp
    have hout : σ.pc.flushes = false := by
      rw [hpc']
      rfl
    cases act with
    | event a =>
      unfold Timed.after
      dsimp only
      rw [eventStep_idleCheck hσ hpc', hout]
      exact nofun
    | worker i wa =>
      have hpc : w.sys.pc = σ.pc := by
        obtain ⟨t, -, h⟩ := Option.bind_eq_some_iff.mp hσ
        obtain ⟨next, -, h⟩ := Option.bind_eq_some_iff.mp h
        cases h
        rfl
      have hold : w.expiresAt conf w.now := (Timed.expiresAt_worker hpc).symm.trans hexp
      unfold Timed.after
      dsimp only
      rw [hpc, hout]
      exact hW.worker hok hσ hold

private theorem watched_reach {now : ℤ}
    (h : Reach (Timed.step conf) (fun w act => w.finishesUnseen conf act = false) (.start now) w) : Watched conf w :=
  h.invariant (watched_start conf now) fun _ _ _ hW hok hs => hW.step hok hs

/-- The idle branch sets `aborted` only with its test. -/
theorem Timed.expires_of_aborted (hpc : w.sys.pc = .idleCheck) (hbefore : w.sys.session.aborted = false)
    (hs : w.step conf act = some w') (hset : w'.sys.session.aborted) :
    w.expiresAt conf w.now ∧ w.sys.session.activeTasks = 0 := by
  cases act with
  | tick d =>
    cases hs
    cases hbefore.symm.trans hset
  | stop =>
    cases hs
    cases hbefore.symm.trans hset
  | step act sent =>
    unfold Timed.step at hs
    dsimp only at hs
    split_ifs at hs with hadmits
    obtain ⟨σ, hσ, rfl⟩ := Option.map_eq_some_iff.mp hs
    obtain ⟨rfl, hnone⟩ := idle_no_task hpc hσ hbefore hset
    refine ⟨?_, hnone⟩
    unfold Timed.admits at hadmits
    rw [hpc] at hadmits
    have hidle : w.isIdle conf = true := (beq_iff_eq.mp hadmits).symm
    simp only [Timed.isIdle, Bool.and_eq_true] at hidle
    simp [Timed.expiresAt, hpc, hidle.1.1.1, hidle.1.1.2, of_decide_eq_true hidle.2]

/-- If no worker whose response has not been seen by a flush gives back its count before an idle
check that finds the timeout over, then that check drops no such response. -/
theorem idle_after_flush {now : ℤ}
    (h : Reach (Timed.step conf) (fun w act => w.finishesUnseen conf act = false) (.start now) w)
    (hpc : w.sys.pc = .idleCheck) (hbefore : w.sys.session.aborted = false)
    (hs : w.step conf act = some w') (hset : w'.sys.session.aborted) : w.unflushed = [] := by
  have hW := watched_reach h
  obtain ⟨hexp, hnone⟩ := Timed.expires_of_aborted hpc hbefore hs hset
  apply List.eq_nil_iff_forall_not_mem.mpr
  intro sid hsid
  obtain ⟨t, ht, -, hr⟩ := hW.counted hexp sid hsid
  have hzero := hW.lifetime.counted.symm.trans hnone
  exact List.countP_eq_zero.mp hzero t ht (isCounted_of_responds hr)

end

def sampleIdleConf : IdleConf := ⟨sampleConf, 300⟩

/-- A pass up to its idle check, in which nothing arrives. -/
def quietPass : List Action :=
  [.event (.flag false), .event (.flag false), .event (.noMore [0, 3, 7, 11]), .event .go,
    .event (.state .finished .ok), .event .go, .event .go, .event .go, .event .go, .event .go, .event .go,
    .event .writevEmpty, .event .go, .event .go, .event .go, .event .writevEmpty, .event (.stalled [])]

/-- A request arrives, and its worker starts on it. -/
def startRequest : List Action :=
  openSession ++ receiveRequest ++ [.worker 0 .go, .worker 0 (.flag true), .worker 0 (.flag true)]

/-- The worker answers, marks its stream and gives back its count. -/
def finishRequest : List Action :=
  [.worker 0 (.respond (.submit true)), .worker 0 (.respond (.append true)), .worker 0 (.respond .complete),
    .worker 0 .go, .worker 0 .go, .worker 0 .go]

def untilIdle (acts : List Action) : List TimedAct := acts.map (.step · false) ++ [.tick 300]

/-- The answer is flushed in a quiet pass, and the session closed as idle after it. -/
theorem idle_after_flush_answered :
    ∃ w w', Reach (Timed.step sampleIdleConf) (fun w act => w.finishesUnseen sampleIdleConf act = false) (.start 0) w ∧
      w.sys.pc = .idleCheck ∧ w.step sampleIdleConf (.step (.event (.flag true)) false) = some w' ∧
      w'.sys.session.aborted ∧ w.unflushed = [] := by
  have hrun : ((runChecked (Timed.step sampleIdleConf) (fun w act => w.finishesUnseen sampleIdleConf act = false)
      (.start 0) (untilIdle (startRequest ++ finishRequest ++ quietPass))).bind fun w =>
        (w.step sampleIdleConf (.step (.event (.flag true)) false)).map fun w' =>
          (w.sys.pc, w.sys.session.aborted, w'.sys.session.aborted)) = some (.idleCheck, false, true) := by
    decide +kernel
  obtain ⟨w, hw, h⟩ := Option.bind_eq_some_iff.mp hrun
  obtain ⟨w', hw', he⟩ := Option.map_eq_some_iff.mp h
  simp only [Prod.mk.injEq] at he
  have hr := Reach.of_runChecked _ hw
  exact ⟨w, w', hr, he.1, hw', he.2.2, idle_after_flush hr he.1 he.2.1 hw' he.2.2⟩

/-- The worker of a long silent request answers between the last flush of a pass and its idle
check, which closes the session. -/
theorem answered_before_idle_check :
    ∃ w w', Reach (Timed.step sampleIdleConf) anyStep (.start 0) w ∧ w.sys.pc = .idleCheck ∧
      w.sys.session.aborted = false ∧
      w.step sampleIdleConf (.step (.event (.flag true)) false) = some w' ∧ w'.sys.session.aborted ∧
      (w.sys.session.has 0 fun o => o.responseSubmitted && o.responseComplete && !o.responseCancelled) ∧
      0 ∈ w.unflushed := by
  have hrun : ((runActions (Timed.step sampleIdleConf) (.start 0)
      (untilIdle (startRequest ++ quietPass) ++ finishRequest.map (.step · false))).bind fun w =>
        (w.step sampleIdleConf (.step (.event (.flag true)) false)).map fun w' =>
          (w.sys.pc, w.sys.session.aborted, w'.sys.session.aborted,
            w.sys.session.has 0 fun o => o.responseSubmitted && o.responseComplete && !o.responseCancelled,
            w.unflushed)) = some (.idleCheck, false, true, true, [0, 0, 0]) := by
    decide +kernel
  obtain ⟨w, hw, h⟩ := Option.bind_eq_some_iff.mp hrun
  obtain ⟨w', hw', he⟩ := Option.map_eq_some_iff.mp h
  simp only [Prod.mk.injEq] at he
  obtain ⟨hpc, hbefore, hset, hans, hun⟩ := he
  refine ⟨w, w', Reach.of_runActions _ hw, hpc, hbefore, hw', hset, hans, ?_⟩
  rw [hun]
  exact List.mem_cons_self

end ModHttp3.System
