import ModHttp3.System.Effect
import ModHttp3.System.Alter

/-! Which stream pays for a malformed request. `drain_one_stream` rejects the stream it is reading,
while nghttp3 may have found the error in another one that was waiting for QPACK inserts. -/
namespace ModHttp3.System
open Session Lib

def VisitPc.feeding : VisitPc → Bool
  | .inside .read | .inside (.fin _) => true
  | _ => false

def VisitPc.rejecting : VisitPc → Bool
  | .inside (.shutdown _) | .inside (.close _) => true
  | _ => false

/-- The stream whose data or fin nghttp3 is reading. -/
def EventPc.feeding (pc : EventPc) : Option ℤ :=
  pc.visit.bind fun x => if VisitPc.feeding x.2 then some x.1 else none

/-- The stream for which `reject_malformed_stream` has been called. -/
def EventPc.rejecting (pc : EventPc) : Option ℤ :=
  pc.visit.bind fun x => if VisitPc.rejecting x.2 then some x.1 else none

/-- The request that nghttp3 reports as malformed: the second component of the action, where the
first one is such a report. -/
def reportedBy (pc : EventPc) (a : Action × ℤ) : Option ℤ :=
  match pc.feeding, a.1 with
  | some _, .event (.returned (some e)) => if isMalformedRequestError e then some a.2 else none
  | _, _ => none

/-- The system with the requests that nghttp3 reported as malformed, and the streams that
`reject_malformed_stream` was called for. -/
structure Blaming where
  sys : State
  reported : List ℤ
  charged : List ℤ

namespace Blaming

def start : Blaming := ⟨.start, [], []⟩

def step (conf : SessionConf) (w : Blaming) (a : Action × ℤ) : Option Blaming :=
  (w.sys.step conf a.1).map fun σ =>
    ⟨σ, (reportedBy w.sys.pc a).toList ++ w.reported,
      (if w.sys.pc.rejecting.isNone then σ.pc.rejecting else none).toList ++ w.charged⟩

/-- The request on the stream is malformed, for nghttp3 or by the module's own flag. -/
def malformed (w : Blaming) (sid : ℤ) : Prop := sid ∈ w.reported ∨ w.sys.session.has sid (·.malformed)

end Blaming

/-- nghttp3 delivers header fields of request streams only, and calls back for no other stream than
the one it is told to close. -/
def callbackFits (pc : EventPc) (cb : Callback) : Bool :=
  (match cb with
    | .recvHeader sid _ => h3SidIsBidi sid
    | _ => true) &&
  pc.rejecting.all (· == cb.sid)

/-- What is malformed is a request. -/
def requestErrors (w : Blaming) (a : Action × ℤ) : Bool :=
  (reportedBy w.sys.pc a).all h3SidIsBidi &&
  match a.1 with
  | .event (.callback cb) => callbackFits w.sys.pc cb
  | _ => true

/-- A malformed request is reported while its own stream is read. -/
def ownError (w : Blaming) (a : Action × ℤ) : Bool :=
  (reportedBy w.sys.pc a).all fun sid => w.sys.pc.feeding == some sid

section
variable {conf : SessionConf} {σ σ' : State} {act : Action}

theorem rejecting_finDone (s : H3Session) (sid : ℤ) (origin : FinFrom) (d : Drain) :
    (EventPc.drain d (.visit sid (s.finDone sid origin).2)).rejecting = none := by
  rcases finDone_snd s sid origin with he | ⟨he, -⟩ <;> rw [he] <;> rfl

/-- A rejection begins when nghttp3 has returned an error or the stream has the flag. -/
structure Rejects (s s' : H3Session) (sid : ℤ) (err : Option LibErr) : Prop where
  obj : s'.obj = s.obj
  cause : (∃ e, err = some e ∧ isMalformedRequestError e) ∨ s.has sid (·.malformed)

theorem has_malformed {s : H3Session} {sid : ℤ} (h : s.has sid fun o => o.malformed && !o.done) :
    s.has sid (·.malformed) := by
  obtain ⟨o, ho, hm⟩ := H3Session.has_iff.mp h
  exact H3Session.has_iff.mpr ⟨o, ho, (Bool.and_eq_true_iff.mp hm).1⟩

private theorem readReturned_rejects {s : H3Session} {sid x : ℤ} {err : Option LibErr} {d : Drain}
    (h : (EventPc.drain d (.visit sid (s.readReturned sid err).2)).rejecting = some x) :
    x = sid ∧ Rejects s (s.readReturned sid err).1 sid err := by
  unfold H3Session.readReturned at h ⊢
  cases err with
  | none =>
    dsimp only at h ⊢
    split at h
    · rename_i hflag
      cases h
      rw [if_pos hflag]
      exact ⟨rfl, H3Session.logOp_obj _ _ _, .inr (has_malformed hflag)⟩
    · dsimp only at h
      split_ifs at h
      · cases h
      · cases h
  | some e =>
    dsimp only at h ⊢
    split at h
    · rename_i hbad
      cases h
      rw [if_pos hbad]
      exact ⟨rfl, H3Session.logOp_obj _ _ _, .inl ⟨e, rfl, hbad⟩⟩
    · cases h

private theorem finReturned_rejects {s : H3Session} {sid x : ℤ} {origin : FinFrom} {err : Option LibErr} {d : Drain}
    (h : (EventPc.drain d (.visit sid (s.finReturned sid origin err).2)).rejecting = some x) :
    x = sid ∧ Rejects s (s.finReturned sid origin err).1 sid err := by
  unfold H3Session.finReturned at h ⊢
  cases err with
  | none =>
    dsimp only at h ⊢
    split at h
    · rename_i hflag
      cases h
      rw [if_pos hflag]
      exact ⟨rfl, H3Session.logOp_obj _ _ _, .inr (has_malformed hflag)⟩
    · rw [rejecting_finDone] at h
      cases h
  | some e =>
    dsimp only at h ⊢
    split at h
    · rename_i hbad
      cases h
      rw [if_pos hbad]
      exact ⟨rfl, H3Session.logOp_obj _ _ _, .inl ⟨e, rfl, hbad⟩⟩
    · rw [rejecting_finDone] at h
      cases h

/-- How a step comes to be inside a rejection: it was there, or nghttp3 has returned from reading
that stream. -/
theorem rejecting_step {x : ℤ} (h : σ.step conf act = some σ') (hx : σ'.pc.rejecting = some x) :
    σ.pc.rejecting = some x ∨ σ.pc.rejecting = none ∧ σ.pc.feeding = some x ∧
      ∃ err, act = .event (.returned err) ∧ Rejects σ.session σ'.session x err := by
  have hsame : σ'.pc.visit = σ.pc.visit → σ.pc.rejecting = some x := by
    intro he
    unfold EventPc.rejecting at hx ⊢
    rwa [he] at hx
  have hnone : σ'.pc.visit ≠ none := by
    intro he
    unfold EventPc.rejecting at hx
    rw [he] at hx
    cases hx
  cases step_effect h with
  | added hs hvisit hc => exact absurd hvisit.1 hnone
  | still hs hdead hvisit hc =>
    rcases hvisit with ⟨he, -⟩ | ⟨he, -⟩
    · exact absurd he hnone
    · exact .inl (hsame he)
  | callback hpc => exact .inl hx
  | begin hpc hdone hq hclient => cases hx
  | @enter d sid rstate wstate hpc =>
    have hv : VisitPc.rejecting (σ.session.visitEnter sid rstate wstate).2 = false := by
      apply visitEnter_cases sid rstate wstate (P := fun next => VisitPc.rejecting next.2 = false)
      · exact fun _ _ => rfl
      · intro _
        unfold H3Session.closeIfFinished
        split_ifs <;> rfl
      · exact fun _ _ => rfl
    unfold EventPc.rejecting at hx
    simp only [EventPc.visit, Option.bind_some, hv, Bool.false_eq_true, if_false, reduceCtorEq] at hx
  | @loop a d d' sid s v hpc hv hc =>
    cases visitLoop_looped conf hv <;> cases hx
  | @returned d sid call err hpc =>
    rw [hpc]
    cases call with
    | read =>
      obtain ⟨rfl, hr⟩ := readReturned_rejects hx
      exact .inr ⟨rfl, rfl, err, rfl, hr⟩
    | fin origin =>
      obtain ⟨rfl, hr⟩ := finReturned_rejects hx
      exact .inr ⟨rfl, rfl, err, rfl, hr⟩
    | shutdown origin => exact .inl hx
    | close origin =>
      cases origin with
      | read => cases hx
      | fin origin =>
        have hleft := rejecting_finDone (σ.session.rejectCounted conf sid) sid origin d
        cases hleft.symm.trans hx
    | closeEnded => cases hx
  | leave hpc hs hdead hvisit hc => exact absurd hvisit hnone

/-- While the event thread holds the lock, no worker changes a stream. -/
private theorem workerStep_obj {s s' : H3Session} {t : Task} {w : WorkerAct} {p : Phase}
    (h : workerStep s false t w = some (s', p)) : s'.obj = s.obj := by
  cases workerStep_work h with
  | begin | created | built | answered | release | leave => rfl
  | respond call hq hfree => cases hfree
  | unreserve hq hfree => cases hfree
  | mark hq hfree => cases hfree

private theorem rejecting_pc {pc : EventPc} {x : ℤ} (h : pc.rejecting = some x) :
    ∃ d call, pc = .drain d (.visit x (.inside call)) ∧ VisitPc.rejecting (.inside call) := by
  obtain ⟨⟨sid, v⟩, hv, he⟩ := Option.bind_eq_some_iff.mp h
  dsimp only at he
  split_ifs at he with hr
  cases he
  cases pc with
  | drain d pc =>
    cases pc with
    | visit sid v' =>
      cases hv
      cases v with
      | inside call => exact ⟨d, call, rfl, hr⟩
      | _ => cases hr
    | _ => cases hv
  | _ => cases hv

/-- The calls of nghttp3 in a rejection: what they return does not matter. -/
private theorem callReturned_frame {s : H3Session} {x y : ℤ} {err : Option LibErr} {call : LibCall}
    (hcall : VisitPc.rejecting (.inside call)) (hy : y ≠ x) :
    (s.callReturned conf x err call).1.obj y = s.obj y := by
  cases call with
  | shutdown origin => rfl
  | close origin =>
    have hret := callReturned_returned conf s x err (.close origin)
    generalize s.callReturned conf x err (.close origin) = next at hret ⊢
    obtain ⟨s', v⟩ := next
    cases hret with
    | reject ho hd hcall => exact congrFun ho y
    | rejected ho hd hv => exact (congrFun ho y).trans (H3Session.modify_obj_ne s _ hy)
  | _ => cases hcall

private theorem callback_frame {s : H3Session} {cb : Callback} {y : ℤ} (hy : y ≠ cb.sid) :
    (s.callback conf cb).obj y = s.obj y := by
  unfold H3Session.callback
  split_ifs
  · rw [deliver_obj]
    exact H3Session.modify_obj_ne s _ hy
  · rfl

/-- Beginning, going on with and ending the rejection of a stream leaves all others as they are. -/
private theorem rejection_frame {x : ℤ} (h : σ.step conf act = some σ')
    (hx : σ.pc.rejecting = some x ∨ σ'.pc.rejecting = some x)
    (hcb : ∀ cb, act = .event (.callback cb) → σ.pc.rejecting.all (· == cb.sid)) :
    ∀ y, y ≠ x → σ'.session.obj y = σ.session.obj y := by
  intro y hy
  have hin : σ.pc.rejecting = some x ∨ σ'.session.obj = σ.session.obj := by
    rcases hx with hx | hx
    · exact .inl hx
    · rcases rejecting_step h hx with hold | ⟨-, -, err, -, hr⟩
      · exact .inl hold
      · exact .inr hr.obj
  rcases hin with hin | hobj
  · obtain ⟨d, call, hpc, hcall⟩ := rejecting_pc hin
    cases act with
    | worker i w =>
      obtain ⟨t, -, h⟩ := Option.bind_eq_some_iff.mp h
      obtain ⟨⟨s, p⟩, hw, h⟩ := Option.bind_eq_some_iff.mp h
      cases h
      rw [hpc] at hw
      exact congrFun (workerStep_obj hw) y
    | event a =>
      change σ.eventStep conf a = some σ' at h
      unfold State.eventStep at h
      rw [hpc] at h
      obtain ⟨⟨s, d', pc'⟩, hd, rfl⟩ := Option.map_eq_some_iff.mp h
      cases a with
      | callback cb =>
        cases hd
        have hsid := hcb cb rfl
        rw [hin, Option.all_some, beq_iff_eq] at hsid
        exact callback_frame (hsid ▸ hy)
      | returned err =>
        cases hd
        exact callReturned_frame hcall hy
      | _ => cases hd
  · rw [hobj]

private theorem sets_malformed {f : H3Stream → H3Stream} (hf : Sets f) (o : H3Stream) :
    (f o).malformed = o.malformed := by
  cases hf with
  | touch hf =>
    cases hf with
    | respond gone call => exact (respond_sameRequest gone call o).malformed
    | _ => rfl
  | _ => rfl

/-- Only header callbacks set the flag. -/
private theorem onStream_malformed {cb : Callback} {o : H3Stream} (h : (cb.onStream conf o).malformed) :
    o.malformed ∨ ∃ sid field, cb = .recvHeader sid field := by
  cases cb with
  | recvHeader sid field => exact .inr ⟨sid, field, rfl⟩
  | endHeaders sid fin =>
    simp only [Callback.onStream, onEndHeaders] at h
    split_ifs at h <;> exact .inl h
  | recvData sid data => exact .inl ((onRecvData_sameRequest conf data o).malformed.symm.trans h)
  | _ => exact .inl h

end

section
variable {conf : SessionConf} {w w' : Blaming} {a : Action × ℤ}

/-- The invariant: only requests are malformed, and only malformed ones are charged. -/
structure Fair (w : Blaming) : Prop where
  charged : ∀ sid ∈ w.charged, w.malformed sid
  reported : ∀ sid ∈ w.reported, h3SidIsBidi sid
  flagged : w.sys.session.Each fun sid o => o.malformed → h3SidIsBidi sid

theorem fair_start : Fair .start := by
  refine ⟨nofun, nofun, fun sid o ho => ?_⟩
  cases ho

theorem Fair.flagged_step {σ : State} {act : Action} (hF : Fair w)
    (hcb : ∀ cb, act = .event (.callback cb) → callbackFits w.sys.pc cb)
    (h : w.sys.step conf act = some σ) : σ.session.Each fun sid o => o.malformed → h3SidIsBidi sid := by
  have halters : Alters conf (fun cb => callbackFits w.sys.pc cb) (fun _ _ => True) w.sys.session σ.session :=
    step_alters hcb (fun _ _ => trivial) h
  refine halters.each (fun sid g => nofun) (fun f hf sid o hP hm => ?_) (fun cb hfits o hP hm => ?_) hF.flagged
  · rw [sets_malformed hf] at hm
    exact hP hm
  · rcases onStream_malformed hm with hold | ⟨sid, field, rfl⟩
    · exact hP hold
    · exact (Bool.and_eq_true_iff.mp hfits).1

theorem malformed_step (h : w.step conf a = some w') {sid : ℤ} (hm : w.malformed sid) : w'.malformed sid := by
  obtain ⟨σ, hσ, rfl⟩ := Option.map_eq_some_iff.mp h
  rcases hm with hrep | hflag
  · exact .inl (List.mem_append_right _ hrep)
  · obtain ⟨o, ho, hm⟩ := H3Session.has_iff.mp hflag
    obtain ⟨o', ho', hlater⟩ := step_later hσ ho
    exact .inr (H3Session.has_iff.mpr ⟨o', ho', hlater.malformed hm⟩)

/-- A stream that is charged now is the one nghttp3 reports, or has the flag. -/
private theorem charged_now {x : ℤ} (hown : ownError w a) (h : w.step conf a = some w')
    (hnone : w.sys.pc.rejecting = none) (hx : w'.sys.pc.rejecting = some x) : w'.malformed x := by
  obtain ⟨σ, hσ, rfl⟩ := Option.map_eq_some_iff.mp h
  obtain ⟨act, culprit⟩ := a
  rcases rejecting_step hσ hx with hold | ⟨-, hfeed, err, rfl, hr⟩
  · cases hnone.symm.trans hold
  · rcases hr.cause with ⟨e, rfl, hbad⟩ | hflag
    · have hrep : reportedBy w.sys.pc (.event (.returned (some e)), culprit) = some culprit := by
        unfold reportedBy
        rw [hfeed]
        exact if_pos hbad
      unfold ownError at hown
      rw [hrep, hfeed, Option.all_some, beq_iff_eq, Option.some.injEq] at hown
      subst hown
      refine .inl (List.mem_append_left _ ?_)
      rw [hrep]
      exact List.mem_singleton_self _
    · exact malformed_step h (.inr hflag)

theorem Fair.step (hF : Fair w) (hreq : requestErrors w a) (hown : ownError w a) (h : w.step conf a = some w') :
    Fair w' := by
  have h' := h
  obtain ⟨σ, hσ, rfl⟩ := Option.map_eq_some_iff.mp h
  obtain ⟨hbidi, hfits⟩ := Bool.and_eq_true_iff.mp hreq
  refine ⟨fun sid hsid => ?_, fun sid hsid => ?_, hF.flagged_step (fun cb he => ?_) hσ⟩
  · rcases List.mem_append.mp hsid with hnew | hold
    · rw [Option.mem_toList] at hnew
      split_ifs at hnew with hnone
      exact charged_now hown h' (Option.isNone_iff_eq_none.mp hnone) hnew
    · exact malformed_step h' (hF.charged sid hold)
  · rcases List.mem_append.mp hsid with hnew | hold
    · rw [Option.mem_toList] at hnew
      rw [hnew] at hbidi
      exact hbidi
    · exact hF.reported sid hold
  · rw [he] at hfits
    exact hfits

/-- If every malformed request is reported while its own stream is read, no other stream is
rejected for it, no unidirectional one at all, and a rejection changes no other stream. -/
theorem malformed_charged_to_own_stream
    (h : Reach (Blaming.step conf) (fun w a => requestErrors w a ∧ ownError w a) .start w) :
    (∀ sid ∈ w.charged, w.malformed sid ∧ h3SidIsBidi sid) ∧
    ∀ a w' x, requestErrors w a → w.step conf a = some w' →
      w.sys.pc.rejecting = some x ∨ w'.sys.pc.rejecting = some x →
      ∀ y, y ≠ x → w'.sys.session.obj y = w.sys.session.obj y := by
  have hF : Fair w := h.invariant fair_start fun _ _ _ hF hok hs => hF.step hok.1 hok.2 hs
  refine ⟨fun sid hsid => ⟨hF.charged sid hsid, ?_⟩, fun a w' x hreq hs hx => ?_⟩
  · rcases hF.charged sid hsid with hrep | hflag
    · exact hF.reported sid hrep
    · obtain ⟨o, ho, hm⟩ := H3Session.has_iff.mp hflag
      exact hF.flagged sid o ho hm
  · obtain ⟨σ, hσ, rfl⟩ := Option.map_eq_some_iff.mp hs
    apply rejection_frame hσ hx
    intro cb he
    have hfits := (Bool.and_eq_true_iff.mp hreq).2
    rw [he] at hfits
    exact (Bool.and_eq_true_iff.mp hfits).2

end

/-- The answers for a stream whose read ends in a malformed request of stream `culprit`. -/
def readMalformed (culprit : ℤ) : List (Action × ℤ) :=
  [(.event (.state .ok .ok), 0), (.event (.data 10), 0),
    (.event (.returned (some .malformedHttpHeader)), culprit), (.event (.returned none), 0),
    (.event (.returned none), 0), (.event .go, 0)]

theorem malformed_charged_to_own_stream_oneRequest :
    ∃ w, Reach (Blaming.step sampleConf) (fun w a => requestErrors w a ∧ ownError w a) .start w ∧
      w.charged = [0] ∧ ∀ sid ∈ w.charged, w.malformed sid ∧ h3SidIsBidi sid := by
  have hrun : (runChecked (Blaming.step sampleConf) (fun w a => requestErrors w a ∧ ownError w a) .start
      (openSession.map (·, 0) ++ [(.event (.accepted 20 0 true), 0), (.event (.noMore [0, 3, 7, 11]), 0),
        (.event .go, 0)] ++ readMalformed 0)).map (·.charged) = some [0] := by decide +kernel
  obtain ⟨w, hw, hcharged⟩ := Option.map_eq_some_iff.mp hrun
  have hr := Reach.of_runChecked _ hw
  exact ⟨w, hr, hcharged, (malformed_charged_to_own_stream hr).1⟩

/-- The field section of stream 0 waits for an insert, which the encoder stream brings; it turns out
to be malformed, and the encoder stream is reset, closed and done, while stream 0 is not. -/
def lateInsert : List (Action × ℤ) :=
  openSession.map (·, 0) ++
    ([(.event (.accepted 20 0 true), 0), (.event (.accepted 21 2 true), 0),
      (.event (.noMore [0, 2, 3, 7, 11]), 0), (.event .go, 0), (.event (.state .ok .ok), 0),
      (.event (.data 10), 0), (.event (.returned none), 0), (.event .nothing, 0), (.event .go, 0),
      (.event .go, 0)] : List (Action × ℤ)) ++ readMalformed 0

theorem encoder_stream_charged :
    ∃ w, Reach (Blaming.step sampleConf) (fun w a => requestErrors w a) .start w ∧
      w.sys.session.ngh3Dead = false ∧ w.reported = [0] ∧ w.sys.session.has 0 (·.done) = false ∧
      2 ∈ w.charged ∧ w.sys.session.has 2 (·.done) ∧ h3SidIsBidi 2 = false ∧ ¬ w.malformed 2 := by
  have hrun : (runChecked (Blaming.step sampleConf) (fun w a => requestErrors w a) .start lateInsert).map
      (fun w => (w.sys.session.ngh3Dead, (w.reported, w.charged),
        (w.sys.session.has 0 (·.done), w.sys.session.has 2 (·.done), w.sys.session.has 2 (·.malformed)))) =
        some (false, ([0], [2]), (false, true, false)) := by decide +kernel
  obtain ⟨w, hw, he⟩ := Option.map_eq_some_iff.mp hrun
  simp only [Prod.mk.injEq] at he
  obtain ⟨hdead, ⟨hreported, hcharged⟩, hdone, hdone', hflag⟩ := he
  refine ⟨w, Reach.of_runChecked _ hw, hdead, hreported, hdone, ?_, hdone', by decide, ?_⟩
  · rw [hcharged]
    exact List.mem_singleton_self 2
  · unfold Blaming.malformed
    rw [hreported, hflag]
    decide

end ModHttp3.System
