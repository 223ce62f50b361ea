import ModHttp3.Session.Streams
import ModHttp3.System.Custody
import ModHttp3.System.Moves

/-! What is left in the stream table after `drain_ready_streams`. -/
namespace ModHttp3.System
open Session Lib

/-- A client's bidirectional stream. -/
def requestStream (sid : ℤ) : Bool := h3SidIsBidi sid && !h3SidIsServer sid

/-- The next statement of this phase takes back the reservation. -/
def Phase.undoes : Phase → Bool
  | poolFailed | pushFailed | gaveUp => true
  | _ => false

/-- The task that goes on in this step without needing an answer. -/
def State.goesOn (σ : State) : Action → Option Task
  | .event .go => match σ.pc with
    | .pushing i _ => σ.tasks[i]?
    | _ => none
  | .worker i .go => σ.tasks[i]?
  | _ => none

/-- nghttp3 takes the handle of a request stream that was dispatched, if of any. -/
def releasesDispatched (σ : State) : Action → Bool
  | .event (.callback cb) => !cb.releases || !requestStream cb.sid || σ.session.has cb.sid (·.dispatched)
  | _ => true

/-- The reservation taken back, if any, is of a stream that has its handle. -/
def undoesOpen (σ : State) (act : Action) : Bool :=
  (σ.goesOn act).all fun t => !t.phase.undoes || (σ.session.qstream t.sid).isSome

/-- No request stream is closed before it was dispatched or gets undispatched after it. -/
def dispatchedFirst (σ : State) (act : Action) : Bool := releasesDispatched σ act && undoesOpen σ act

/-- A request stream without a handle is dispatched. -/
structure Tended (sid : ℤ) (o : H3Stream) : Prop where
  streamId : o.streamId = sid
  isBidi : o.isBidi = h3SidIsBidi sid
  dispatched : requestStream sid → o.qstream = none → o.dispatched

section
variable {sid : ℤ} {o o' : H3Stream}

private theorem tended_none : H3Session.new.Each Tended := by
  intro sid o ho
  cases ho

theorem tended_new (sid : ℤ) (h : Handle) : Tended sid (.new sid h) := ⟨rfl, rfl, nofun⟩

theorem Tended.kept (ht : Tended sid o) (hk : Kept o o') (hq : o'.qstream = o.qstream) :
    Tended sid o' := by
  refine ⟨hk.streamId.trans ht.streamId, hk.isBidi.trans ht.isBidi, ?_⟩
  rw [hq, hk.dispatched]
  exact ht.dispatched

theorem Tended.respond (ht : Tended sid o) (gone : Bool) (call : RespondCall) :
    Tended sid (o.respond gone call) := by
  obtain ⟨_, _, _, he⟩ := respond_eq gone call o
  rw [he]
  exact ⟨ht.streamId, ht.isBidi, ht.dispatched⟩

end

section
variable {conf : SessionConf} {s s' : H3Session} {V R : ℤ → Prop}

/-- Elementary changes that release the handles of dispatched streams only. -/
private theorem tended_change (hc : Change V R s s')
    (h : s.Each fun sid o => Tended sid o ∧ (R sid → requestStream sid → o.dispatched)) :
    s'.Each fun sid o => Tended sid o ∧ (R sid → requestStream sid → o.dispatched) := by
  cases hc with
  | op o sid => exact h.of_obj (H3Session.logOp_obj s o _)
  | note e he => exact h
  | mark sid f hk hq hu =>
    apply h.modify
    intro o _ ⟨ht, hr⟩
    refine ⟨ht.kept (hk o) (hq o), ?_⟩
    rw [(hk o).dispatched]
    exact hr
  | attach sid hf =>
    apply h.modify
    exact fun o _ ⟨ht, hr⟩ => ⟨⟨ht.streamId, ht.isBidi, ht.dispatched⟩, hr⟩
  | release sid f hR hf hk hq hd hu =>
    apply h.release
    intro o _ ⟨ht, hr⟩
    have hdisp := (hk o).dispatched
    refine ⟨⟨(hk o).streamId.trans ht.streamId, (hk o).isBidi.trans ht.isBidi, ?_⟩, ?_⟩
    · exact fun hreq _ => hdisp.trans (hr hR hreq)
    · exact fun _ hreq => hdisp.trans (hr hR hreq)
  | free => exact h
  | other _ hs hp => exact h.of_obj hs.obj

theorem tended_changes (hc : Changes V R s s') (h : s.Each Tended)
    (hR : ∀ sid, R sid → requestStream sid → s.has sid (·.dispatched)) : s'.Each Tended := by
  have hstart : s.Each fun sid o => Tended sid o ∧ (R sid → requestStream sid → o.dispatched) := by
    intro sid o ho
    refine ⟨h sid o ho, fun hr hreq => ?_⟩
    have hd := hR sid hr hreq
    rwa [H3Session.has_of_obj ho] at hd
  have hend := hc.preserve (P := fun s => s.Each fun sid o =>
    Tended sid o ∧ (R sid → requestStream sid → o.dispatched)) (fun _ _ => tended_change) hstart
  exact fun sid o ho => (hend sid o ho).1

theorem tended_undo (h : s.Each Tended) {sid : ℤ} (hq : (s.qstream sid).isSome) :
    (s.setStreamDispatched sid false).Each Tended := by
  apply h.modify
  intro o ho ht
  refine ⟨ht.streamId, ht.isBidi, fun _ hnone => ?_⟩
  have hnone' : s.qstream sid = none := by
    unfold H3Session.qstream
    rw [ho]
    exact hnone
  rw [hnone'] at hq
  cases hq

private theorem tended_pushStep {t : Task} {a : Answer} {p : Phase} {back : Bool}
    (hp : pushStep s t a = some (s', p, back)) (h : s.Each Tended)
    (hq : a = .go → t.phase.undoes → (s.qstream t.sid).isSome) : s'.Each Tended := by
  cases pushStep_push hp with
  | count | noPool | queue | noThread | uncount => exact h
  | undo hph | unreserve hph => exact tended_undo h (hq rfl (by rw [hph]; rfl))

private theorem tended_workerStep {free : Bool} {t : Task} {w : WorkerAct} {p : Phase}
    (hw : workerStep s free t w = some (s', p)) (h : s.Each Tended)
    (hq : w = .go → t.phase.undoes → (s.qstream t.sid).isSome) : s'.Each Tended := by
  cases workerStep_work hw with
  | begin | created | built | answered | release | leave => exact h
  | respond call => exact h.modify fun o _ ht => ht.respond _ call
  | unreserve hph => exact tended_undo h (hq rfl (by rw [hph]; rfl))
  | mark => exact h.modify fun o _ ht => ⟨ht.streamId, ht.isBidi, ht.dispatched⟩

/-- A worker changes no stream while the event thread holds the lock. -/
private theorem workerStep_locked {t : Task} {w : WorkerAct} {p : Phase}
    (hw : workerStep s false t w = some (s', p)) : s'.obj = s.obj ∧ s'.streams = s.streams := by
  cases workerStep_work hw with
  | respond _ _ hfree | unreserve _ hfree | mark _ hfree => cases hfree
  | _ => exact ⟨rfl, rfl⟩

end

/-- The table in a drain: the snapshot covers it, and at the end nothing is left to reclaim. -/
structure Swept (σ : State) : Prop where
  covered : ∀ d pc, σ.pc = .drain d pc → σ.session.streams ⊆ d.snapshot
  complete : ∀ d, σ.pc = .drain d .returned → ∀ sid ∈ σ.session.streams,
    σ.session.has sid (·.reclaimable) = false

section
variable {conf : SessionConf} {σ σ' : State} {act : Action}

theorem Swept.of_pc {pc : EventPc} {s : H3Session} {ts : List Task} (hpc : ∀ d q, pc ≠ .drain d q) :
    Swept ⟨s, pc, ts⟩ :=
  ⟨fun d q he => absurd he (hpc d q), fun d he => absurd he (hpc d _)⟩

private theorem swept_start : Swept .start := .of_pc nofun

theorem Swept.step (hS : Swept σ) (h : σ.step conf act = some σ') : Swept σ' := by
  cases step_move h with
  | @turn a s pc hpc hpc' hs hc =>
    refine .of_pc fun d q he => ?_
    rw [he] at hpc'
    cases hpc'
  | accepted hpc hans =>
    refine .of_pc fun d q he => ?_
    rw [hpc] at he
    cases he
  | drainStart hpc horder =>
    refine ⟨fun d pc he => ?_, nofun⟩
    cases he
    exact horder.symm.subset
  | @drain a d d' pc pc' s hpc hd =>
    have hsnap := (drainStep_completed conf hd).1
    obtain ⟨s₁, hs, hlast⟩ := drainStep_changes (V := fun _ => True) (R := fun _ => True) conf
      (fun _ _ => trivial) (fun _ _ _ => trivial) hd
    have hcov : s₁.streams ⊆ d'.snapshot := by
      rw [(changes_sameCustody hs).streams, hsnap]
      exact hS.covered d pc hpc
    rcases hlast with ⟨rfl, -⟩ | ⟨rfl, hne⟩
    · have hsub := H3Session.reclaim_streams_subset d.snapshot s₁
      constructor
      · intro _ _ he
        cases he
        exact List.Subset.trans hsub hcov
      · intro _ _ sid hin
        refine H3Session.reclaim_complete ?_ hin
        rw [← hsnap]
        exact hcov (hsub hin)
    · constructor
      · intro _ _ he
        cases he
        exact hcov
      · intro _ he
        cases he
        exact absurd rfl hne
  | @push a i rest t s p back hpc ht hp =>
    refine .of_pc fun d q he => ?_
    cases back <;> cases he
  | @worker i w t s p ht hw =>
    have hsame : ∀ d pc, σ.pc = .drain d pc → s.obj = σ.session.obj ∧ s.streams = σ.session.streams := by
      intro d pc he
      rw [he] at hw
      exact workerStep_locked hw
    constructor
    · intro d pc he
      rw [(hsame d pc he).2]
      exact hS.covered d pc he
    · intro d he sid hin
      obtain ⟨hobj, hstreams⟩ := hsame d _ he
      unfold H3Session.has
      rw [hobj]
      exact hS.complete d he sid (hstreams ▸ hin)
  | _ => exact .of_pc nofun

theorem undoesOpen_spec (hok : undoesOpen σ act) {t : Task} (ht : σ.goesOn act = some t)
    (hu : t.phase.undoes) : (σ.session.qstream t.sid).isSome := by
  unfold undoesOpen at hok
  rw [ht, Option.all_some, hu] at hok
  exact hok

theorem releasesDispatched_spec {a : Answer} (hok : releasesDispatched σ (.event a)) :
    ∀ cb, a = .callback cb → cb.releases →
      (requestStream cb.sid → σ.session.has cb.sid (·.dispatched)) := by
  rintro cb rfl hr hreq
  simp only [releasesDispatched, hr, hreq, Bool.not_true, Bool.false_or] at hok
  exact hok

private theorem tended_step (hT : σ.session.Each Tended) (hok : dispatchedFirst σ act)
    (h : σ.step conf act = some σ') : σ'.session.Each Tended := by
  obtain ⟨hrel, hundo⟩ := Bool.and_eq_true_iff.mp hok
  have hcancel : ∀ sid o, Tended sid o → Tended sid o.responseCancel :=
    fun _ _ ht => ⟨ht.streamId, ht.isBidi, ht.dispatched⟩
  -- the streams whose handle nghttp3 may take
  let R : ℤ → Prop := fun sid => requestStream sid → σ.session.has sid (·.dispatched)
  cases step_move h with
  | opened hpc hans hall => exact hT.controlStreams hans tended_new
  | openFailed hpc hans hall => exact (hT.controlStreams hans tended_new).destroy hcancel
  | destroyed hpc => exact hT.destroy hcancel
  | turn hpc hpc' hs hc => rcases hs with rfl | rfl | rfl <;> exact hT
  | accepted hpc hans => exact hT.accept hans tended_new
  | drainStart hpc horder => exact hT
  | drain hpc hd =>
    obtain ⟨s₁, hs, hlast⟩ := drainStep_changes (V := fun _ => True) (R := R) conf
      (fun _ _ => trivial) (releasesDispatched_spec hrel) hd
    have h₁ := tended_changes hs hT fun _ hr => hr
    rcases hlast with ⟨rfl, -⟩ | ⟨rfl, -⟩
    · exact h₁.reclaim _ fun _ _ ht => ⟨ht.streamId, ht.isBidi, ht.dispatched⟩
    · exact h₁
  | flush hpc hf =>
    have hs := flushStep_changes (V := fun _ => True) (R := R) conf (releasesDispatched_spec hrel) hf
    exact tended_changes hs hT fun _ hr => hr
  | abandon hpc => exact hT.modifyAll _ hcancel
  | reserved hpc hfree => exact hT.modify fun o _ ht => ⟨ht.streamId, ht.isBidi, fun _ _ => rfl⟩
  | push hpc ht hp =>
    apply tended_pushStep hp hT
    rintro rfl hu
    refine undoesOpen_spec hundo ?_ hu
    unfold State.goesOn
    dsimp only
    rw [hpc]
    exact ht
  | worker ht hw =>
    apply tended_workerStep hw hT
    rintro rfl hu
    exact undoesOpen_spec hundo ht hu

/-- The request on stream 0 has a `:path` longer than `LimitRequestFieldSize`; it is rejected, and
the drain goes on to its end. -/
def rejectRequest : List Action :=
  [.event (.accepted 20 0 true), .event (.noMore [0, 3, 7, 11]), .event .go,
    .event (.state .ok .ok), .event (.data 100), .event (.callback (.beginHeaders 0)),
    .event (.callback (.recvHeader 0 ⟨.path, [58], List.replicate 60 47⟩)), .event (.returned none),
    .event (.returned none), .event (.callback (.streamClose 0)), .event (.returned none),
    .event .go, .event .go, .event .go, .event .go, .event .go]

/-- If request streams are dispatched before they are closed, and no closed one is undispatched,
then after each `drain_ready_streams` every request stream still in the table that is done and
has no handle has an outstanding worker. -/
theorem closed_streams_have_workers
    (h : Reach (State.step conf) (fun σ act => dispatchedFirst σ act) .start σ) {d : Drain}
    (hpc : σ.pc = .drain d .returned) {sid : ℤ} (hin : sid ∈ σ.session.streams)
    (hreq : h3SidIsBidi sid ∧ h3SidIsServer sid = false)
    (hclosed : σ.session.has sid fun o => o.done && o.qstream.isNone) :
    σ.session.has sid fun o => o.dispatched && !o.workerDone := by
  obtain ⟨hT, hS⟩ := h.invariant (I := fun σ => σ.session.Each Tended ∧ Swept σ)
    ⟨tended_none, swept_start⟩ fun _ _ _ hI hok hs => ⟨tended_step hI.1 hok hs, hI.2.step hs⟩
  obtain ⟨o, ho, hclosed⟩ := H3Session.has_iff.mp hclosed
  simp only [Bool.and_eq_true, Option.isNone_iff_eq_none] at hclosed
  have ht := hT sid o ho
  have hdisp : o.dispatched := ht.dispatched (by simp [requestStream, hreq]) hclosed.2
  have hleft := hS.complete d hpc sid hin
  rw [H3Session.has_of_obj ho] at hleft ⊢
  simp only [H3Stream.reclaimable, ht.streamId, ht.isBidi, hreq, hclosed, hdisp, Option.isNone_none,
    Bool.not_false, Bool.true_and, Bool.and_true] at hleft
  rw [hdisp, hleft]
  rfl

/-- A request is closed while its worker has not yet begun. -/
theorem closed_streams_have_workers_oneRequest :
    ∃ σ, Reach (State.step sampleConf) (fun σ act => dispatchedFirst σ act) .start σ ∧
      0 ∈ σ.session.streams ∧ σ.session.has 0 (fun o => o.done && o.qstream.isNone) ∧
      σ.session.has 0 (fun o => o.dispatched && !o.workerDone) := by
  have hrun : (runChecked (State.step sampleConf) (fun σ act => dispatchedFirst σ act) .start
      (openSession ++ receiveRequest ++ closeRequest.take 12)).map (fun σ =>
        (σ.pc, decide (0 ∈ σ.session.streams), σ.session.has 0 fun o => o.done && o.qstream.isNone)) =
      some (.drain ⟨[0, 3, 7, 11], 0, 4, [], 256, 1048576, false⟩ .returned, true, true) := by
    decide +kernel
  obtain ⟨σ, hσ, he⟩ := Option.map_eq_some_iff.mp hrun
  simp only [Prod.mk.injEq, decide_eq_true_eq] at he
  obtain ⟨hpc, hin, hclosed⟩ := he
  have hreach := Reach.of_runChecked _ hσ
  exact ⟨σ, hreach, hin, hclosed, closed_streams_have_workers hreach hpc hin (by decide) hclosed⟩

/-- A malformed request is rejected before it is dispatched; its stream stays in the table. -/
theorem rejected_stream_stays :
    ¬ ∀ σ, Reach (State.step sampleConf) anyStep .start σ → ∀ d, σ.pc = .drain d .returned →
      ∀ sid ∈ σ.session.streams, h3SidIsBidi sid ∧ h3SidIsServer sid = false →
      σ.session.has sid (fun o => o.done && o.qstream.isNone) →
      σ.session.has sid (fun o => o.dispatched && !o.workerDone) := by
  intro hall
  have hrun : (runActions (State.step sampleConf) .start
      (openSession ++ rejectRequest)).map (fun σ =>
        (σ.pc, decide (0 ∈ σ.session.streams), σ.session.has 0 (fun o => o.done && o.qstream.isNone),
        σ.session.has 0 fun o => o.dispatched && !o.workerDone)) =
      some (.drain ⟨[0, 3, 7, 11], 0, 4, [], 255, 1048476, true⟩ .returned, true, true, false) := by
    decide +kernel
  obtain ⟨σ, hσ, he⟩ := Option.map_eq_some_iff.mp hrun
  simp only [Prod.mk.injEq, decide_eq_true_eq] at he
  obtain ⟨hpc, hin, hclosed, hidle⟩ := he
  have hworker := hall σ (Reach.of_runActions _ hσ) _ hpc 0 hin (by decide) hclosed
  cases hidle.symm.trans hworker

end

end ModHttp3.System
