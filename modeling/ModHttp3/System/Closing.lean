import ModHttp3.Session.Course
import ModHttp3.System.Errors
import ModHttp3.System.Idle

/-! How the connection of a session is closed: the calls of `h3q_conn_shutdown` that end its passes once it is
aborted, and the error they tell the peer. -/
namespace ModHttp3.Session

/-- The functions of nghttp3 that say what an error is. -/
structure ErrorNames where
  inferQuicAppErrorCode : LibErr → ℕ
  strerror : LibErr → String

def nghttp3H3ExcessiveLoad : ℕ := 0x107

/-- `abort_quic_error_code`. -/
def H3Session.abortQuicErrorCode (names : ErrorNames) (s : H3Session) : ℕ :=
  match s.abortCause with
  | none => 0
  | some (.lib err) => names.inferQuicAppErrorCode err
  | some .excessiveLoad => nghttp3H3ExcessiveLoad

/-- `abort_reason`. -/
def H3Session.abortReason (names : ErrorNames) (s : H3Session) : Option String :=
  match s.abortCause with
  | none => none
  | some (.lib err) => some (names.strerror err)
  | some .excessiveLoad => some "too many malformed requests"

/-- The call of OpenSSL in `h3q_conn_shutdown`: `SSL_shutdown_ex` or `SSL_shutdown`. -/
inductive SslShutdown
  | ex (rapid : Bool) (quicErrorCode : ℕ) (quicReason : Option String)
  | plain
  deriving DecidableEq, Repr

/-- `h3q_conn_shutdown` up to its call; without a reason the code is not passed on. -/
def h3qConnShutdown (isRapid : Bool) (appError : ℕ) (reason : Option String) : SslShutdown :=
  if reason.isSome then .ex isRapid appError reason
  else if isRapid then .ex true 0 none
  else .plain

inductive SslError
  | wantRead
  | wantWrite
  | failed
  deriving DecidableEq, Repr

/-- What `h3q_conn_shutdown` returns. -/
def shutdownDone (ret : ℤ) (err : SslError) : Bool :=
  ret == 1 || decide (ret < 0) && err == .failed

/-- The error code and the reason that the peer is told. -/
def SslShutdown.told : SslShutdown → ℕ × Option String
  | .ex _ code reason => (code, reason)
  | .plain => (0, none)

end ModHttp3.Session

namespace ModHttp3.System
open Session Lib

/-- The session with the shutdown calls on its connection, the last one first. -/
structure Closing where
  sys : State
  shutdowns : List SslShutdown

/-- `close` is the end of a pass on an aborted session: `rapid` tells that the thread is stopping, the other
two are the answers of OpenSSL. -/
inductive ClosingAct
  | step (act : Action)
  | close (rapid : Bool) (ret : ℤ) (err : SslError)

namespace Closing

def start : Closing := ⟨.start, []⟩

/-- The event thread is about to call `h3q_conn_shutdown`. -/
def closes (w : Closing) : Bool := w.sys.pc == .passEnd && w.sys.session.aborted

def shutdownCall (names : ErrorNames) (s : H3Session) (rapid : Bool) : SslShutdown :=
  h3qConnShutdown rapid (s.abortQuicErrorCode names) (if s.ngh3Dead then s.abortReason names else none)

def step (names : ErrorNames) (conf : SessionConf) (w : Closing) : ClosingAct → Option Closing
  | .step act =>
    -- an event of the thread at this place is the call
    if w.closes && act matches .event _ then none
    else (w.sys.step conf act).map fun σ => { w with sys := σ }
  | .close rapid ret err =>
    if w.closes then
      (w.sys.step conf (.event (.flag (shutdownDone ret err)))).map fun σ =>
        ⟨σ, shutdownCall names w.sys.session rapid :: w.shutdowns⟩
    else none

end Closing

/-- The thread only comes back to the session to close its connection. -/
def State.ended (σ : State) : Prop :=
  σ.session.aborted ∧ (σ.pc = .passStart ∨ σ.pc = .passEnd ∨ σ.pc = .destroyed)

/-- A fatal error is on record as soon as nghttp3 is given up, and before that nghttp3 may be called. -/
structure OnRecord (σ : State) : Prop where
  cause : σ.session.ngh3Dead = σ.session.abortCause.isSome
  live : σ.pc.live → σ.session.ngh3Dead = false

section
variable {conf : SessionConf} {σ σ' : State} {act : Action}

theorem OnRecord.no_cause (hR : OnRecord σ) (hlive : σ.pc.live) : σ.session.abortCause = none := by
  have hdead := hR.live hlive
  rw [hR.cause] at hdead
  exact Option.isNone_iff_eq_none.mp (Option.isSome_eq_false_iff.mp hdead)

theorem OnRecord.step (hR : OnRecord σ) (h : σ.step conf act = some σ') : OnRecord σ' := by
  cases step_fault h with
  | same hr hf hlive hreads =>
    obtain ⟨-, hdead, hcause⟩ := Faults.mk.inj hf
    refine ⟨?_, fun hl => ?_⟩
    · rw [hdead, hcause]
      exact hR.cause
    · exact hdead.trans ((hlive hl).elim hR.live id)
  | died err hr hlive hf hlive' hreads' =>
    obtain ⟨-, hdead, hcause⟩ := Faults.mk.inj hf
    refine ⟨?_, fun hl => ?_⟩
    · rw [hdead, hcause]
      rfl
    · rw [hlive'] at hl
      cases hl
  | counted sid hr hreads hf hlive' hreads' hdone =>
    refine ⟨?_, fun hl => ?_⟩
    · unfold Faults.count at hf
      split_ifs at hf
      · obtain ⟨-, hdead, hcause⟩ := Faults.mk.inj hf
        rw [hdead, hcause]
        rfl
      · obtain ⟨-, hdead, hcause⟩ := Faults.mk.inj hf
        rw [hdead, hcause]
        exact hR.cause
    · rw [hlive'] at hl
      cases hl

/-- The first fatal error stays on record. -/
theorem OnRecord.keeps (hR : OnRecord σ) (h : σ.step conf act = some σ') {cause : AbortCause}
    (hcause : σ.session.abortCause = some cause) : σ'.session.abortCause = some cause := by
  have hnot : ¬σ.pc.live := by
    intro hlive
    rw [hR.no_cause hlive] at hcause
    cases hcause
  cases step_fault h with
  | same hr hf hlive hreads => exact (Faults.mk.inj hf).2.2.trans hcause
  | died err hr hlive hf hlive' hreads' => exact absurd hlive hnot
  | counted sid hr hreads hf hlive' hreads' hdone => exact absurd (live_of_reads hreads) hnot

private theorem onRecord_start : OnRecord .start := ⟨rfl, fun h => by cases h⟩

/-- On a session that has ended, the thread changes neither its flags nor its faults. -/
theorem State.ended.step (hE : σ.ended) (h : σ.step conf act = some σ') :
    σ'.ended ∧ σ'.session.faults = σ.session.faults := by
  obtain ⟨haborted, hpc⟩ := hE
  cases act with
  | event a =>
    change σ.eventStep conf a = some σ' at h
    unfold State.eventStep at h
    rcases hpc with hpc | hpc | hpc
    · rw [hpc] at h
      cases a <;> simp only [haborted, if_true, Option.some.injEq, reduceCtorEq] at h
      subst h
      exact ⟨⟨haborted, .inr (.inl rfl)⟩, rfl⟩
    · rw [hpc] at h
      cases a <;> simp only [haborted, Bool.true_and, Bool.and_eq_true, beq_iff_eq, reduceCtorEq] at h
      split_ifs at h <;> cases h
      · exact ⟨⟨(congrArg Course.aborted (destroy_course _)).trans haborted, .inr (.inr rfl)⟩, destroy_faults _⟩
      · exact ⟨⟨haborted, .inl rfl⟩, rfl⟩
    · rw [hpc] at h
      cases a <;> cases h
  | worker i w =>
    obtain ⟨t, ht, h⟩ := Option.bind_eq_some_iff.mp h
    obtain ⟨⟨s, p⟩, hw, h⟩ := Option.bind_eq_some_iff.mp h
    cases h
    exact ⟨⟨(workerStep_aborted hw).trans haborted, hpc⟩, workerStep_faults hw⟩

end

section
variable {names : ErrorNames} {conf : SessionConf} {w w' : Closing} {act : ClosingAct}

/-- A step of the thread or of a worker that closes nothing, or a shutdown call. -/
theorem Closing.step_cases (h : w.step names conf act = some w') :
    (∃ act', w.sys.step conf act' = some w'.sys ∧ w'.shutdowns = w.shutdowns) ∨
    ∃ rapid ret err, w.closes ∧ w.sys.step conf (.event (.flag (shutdownDone ret err))) = some w'.sys ∧
      w'.shutdowns = shutdownCall names w.sys.session rapid :: w.shutdowns := by
  unfold Closing.step at h
  split at h
  · split_ifs at h
    obtain ⟨σ, hσ, rfl⟩ := Option.map_eq_some_iff.mp h
    exact .inl ⟨_, hσ, rfl⟩
  · rename_i rapid ret err
    split_ifs at h with hc
    obtain ⟨σ, hσ, rfl⟩ := Option.map_eq_some_iff.mp h
    exact .inr ⟨rapid, ret, err, hc, hσ, rfl⟩

/-- Every call so far has told what the session has on record, which has not changed since the first. -/
structure Told (names : ErrorNames) (w : Closing) : Prop where
  recorded : OnRecord w.sys
  calls : ∀ call ∈ w.shutdowns, ∃ rapid, call = Closing.shutdownCall names w.sys.session rapid
  ended : w.shutdowns ≠ [] → w.sys.ended

theorem shutdownCall_congr {s s' : H3Session} (h : s'.faults = s.faults) (rapid : Bool) :
    Closing.shutdownCall names s' rapid = Closing.shutdownCall names s rapid := by
  obtain ⟨-, hdead, hcause⟩ := Faults.mk.inj h
  unfold Closing.shutdownCall H3Session.abortQuicErrorCode H3Session.abortReason
  rw [hdead, hcause]

theorem Told.step (hT : Told names w) (h : w.step names conf act = some w') : Told names w' := by
  have hkept : ∀ {act σ'}, w.sys.step conf act = some σ' → w.sys.ended →
      ∀ call ∈ w.shutdowns, ∃ rapid, call = Closing.shutdownCall names σ'.session rapid := by
    intro act σ' hσ hended call hcall
    obtain ⟨rapid, hrapid⟩ := hT.calls call hcall
    exact ⟨rapid, hrapid.trans (shutdownCall_congr (hended.step hσ).2 rapid).symm⟩
  rcases Closing.step_cases h with ⟨act, hσ, hs⟩ | ⟨rapid, ret, err, hc, hσ, hs⟩
  · refine ⟨hT.recorded.step hσ, ?_, ?_⟩
    · intro call hcall
      rw [hs] at hcall
      exact hkept hσ (hT.ended (List.ne_nil_of_mem hcall)) call hcall
    · rw [hs]
      exact fun hne => ((hT.ended hne).step hσ).1
  · have hended : w.sys.ended := by
      simp only [Closing.closes, Bool.and_eq_true, beq_iff_eq] at hc
      exact ⟨hc.2, .inr (.inl hc.1)⟩
    refine ⟨hT.recorded.step hσ, ?_, fun _ => (hended.step hσ).1⟩
    intro call hcall
    rw [hs] at hcall
    rcases List.mem_cons.mp hcall with rfl | hcall
    · exact ⟨rapid, (shutdownCall_congr (hended.step hσ).2 rapid).symm⟩
    · exact hkept hσ hended call hcall

private theorem told_reach (h : Reach (Closing.step names conf) anyStep .start w) : Told names w :=
  h.invariant ⟨onRecord_start, fun _ hcall => absurd hcall List.not_mem_nil, fun hne => absurd rfl hne⟩
    fun _ _ _ hT _ hs => hT.step hs

private theorem told_shutdownCall {s : H3Session} (hcause : s.ngh3Dead = s.abortCause.isSome) (rapid : Bool) :
    (Closing.shutdownCall names s rapid).told = (s.abortQuicErrorCode names, s.abortReason names) := by
  unfold Closing.shutdownCall h3qConnShutdown H3Session.abortQuicErrorCode H3Session.abortReason
  rw [hcause]
  rcases s.abortCause with _ | _ | _ <;> cases rapid <;> rfl

/-- The first fatal error of a session is its last one: nghttp3 is neither read nor written to after it, it
stays on record, and whatever call closes the connection tells the peer this error and no other. -/
theorem closed_with_first_error (h : Reach (Closing.step names conf) anyStep .start w) :
    (w.sys.pc.live → w.sys.session.abortCause = none) ∧
    (∀ cause, w.sys.session.abortCause = some cause →
      ∀ w', Reach (Closing.step names conf) anyStep w w' → w'.sys.session.abortCause = some cause) ∧
    ∀ call ∈ w.shutdowns,
      call.told = (w.sys.session.abortQuicErrorCode names, w.sys.session.abortReason names) := by
  have hT := told_reach h
  refine ⟨hT.recorded.no_cause, fun cause hcause w' hr => ?_, fun call hcall => ?_⟩
  · have hkeep : OnRecord w'.sys ∧ w'.sys.session.abortCause = some cause := by
      refine hr.invariant (I := fun w => OnRecord w.sys ∧ w.sys.session.abortCause = some cause)
        ⟨hT.recorded, hcause⟩ fun v act v' hv _ hs => ?_
      rcases Closing.step_cases hs with ⟨act, hσ, -⟩ | ⟨rapid, ret, err, -, hσ, -⟩
      · exact ⟨hv.1.step hσ, hv.1.keeps hσ hv.2⟩
      · exact ⟨hv.1.step hσ, hv.1.keeps hσ hv.2⟩
    exact hkeep.2
  · obtain ⟨rapid, rfl⟩ := hT.calls call hcall
    exact told_shutdownCall hT.recorded.cause rapid

end

/-- nghttp3 fails in the first read of the session; the connection is closed in two calls. -/
def failedRead : List ClosingAct :=
  ((openSession ++
    ([.event (.accepted 20 0 true), .event (.noMore [0, 3, 7, 11]), .event .go, .event (.state .ok .ok),
      .event (.data 10), .event (.returned (some (.other (-601)))), .event .go, .event .go, .event .go,
      .event .go, .event .go] : List Action)).map .step) ++
    [.close false 0 .wantRead, .step (.event (.flag false)), .close false 1 .failed]

def sampleNames : ErrorNames := ⟨fun _ => 0x106, fun _ => "ERR_H3_FRAME_ERROR"⟩

theorem closed_with_first_error_failedRead :
    ∃ w, Reach (Closing.step sampleNames sampleConf) anyStep .start w ∧ w.sys.pc = .destroyed ∧
      w.shutdowns.length = 2 ∧ ∀ call ∈ w.shutdowns, call.told = (0x106, some "ERR_H3_FRAME_ERROR") := by
  have hrun : (runActions (Closing.step sampleNames sampleConf) .start failedRead).map
      (fun w => (w.sys.pc, w.shutdowns.length, w.sys.session.abortCause)) =
        some (.destroyed, 2, some (.lib (.other (-601)))) := by decide +kernel
  obtain ⟨w, hw, heq⟩ := Option.map_eq_some_iff.mp hrun
  simp only [Prod.mk.injEq] at heq
  obtain ⟨hpc, hlen, hcause⟩ := heq
  have hr := Reach.of_runActions _ hw
  refine ⟨w, hr, hpc, hlen, fun call hcall => ?_⟩
  rw [(closed_with_first_error hr).2.2 call hcall]
  unfold H3Session.abortQuicErrorCode H3Session.abortReason
  rw [hcause]
  rfl

end ModHttp3.System
