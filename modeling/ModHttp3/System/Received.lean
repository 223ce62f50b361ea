import ModHttp3.Request.Build
import ModHttp3.System.Alter
import ModHttp3.System.Malformed

/-! The request that a worker reads from its stream, without the lock of the session. It is what nghttp3 passed on
for this stream, in its order, and nothing changes it as long as the worker may read it. -/
namespace ModHttp3.Session

/-- The callbacks that bring a request. -/
def Callback.ofRequest : Callback → Bool
  | .beginHeaders _ | .recvHeader _ _ | .endHeaders _ _ | .recvData _ _ => true
  | _ => false

/-- The fields of a stream in which its request is stored. -/
structure RequestParts where
  isBidi : Bool
  method : Option Bytes
  scheme : Option Bytes
  authority : Option Bytes
  path : Option Bytes
  headers : Option (List (Bytes × Bytes))
  headerCount : ℕ
  headersTooLarge : Bool
  requestBody : Bytes
  requestBodyCapacity : ℕ
  requestBodyOverflow : Bool
  malformed : Bool
  deriving DecidableEq, Repr

def H3Stream.request (o : H3Stream) : RequestParts where
  isBidi := o.isBidi
  method := o.method
  scheme := o.scheme
  authority := o.authority
  path := o.path
  headers := o.headers
  headerCount := o.headerCount
  headersTooLarge := o.headersTooLarge
  requestBody := o.requestBody
  requestBodyCapacity := o.requestBodyCapacity
  requestBodyOverflow := o.requestBodyOverflow
  malformed := o.malformed

/-- A new stream after these callbacks. -/
def replay (conf : SessionConf) (sid : ℤ) (calls : List Callback) : H3Stream :=
  calls.foldl (fun o cb => cb.onStream conf o) (.new sid 0)

section
variable {conf : SessionConf} {o o' : H3Stream}

/-- The module itself sets nothing in the request of a stream. -/
theorem Sets.request {f : H3Stream → H3Stream} (hf : Sets f) (o : H3Stream) : (f o).request = o.request := by
  cases hf with
  | touch hf =>
    cases hf with
    | respond gone call =>
      obtain ⟨_, _, _, he⟩ := respond_eq gone call o
      rw [he]
      rfl
    | _ => rfl
  | _ => rfl

theorem onStream_request {cb : Callback} (hcb : cb.ofRequest = false) (o : H3Stream) :
    (cb.onStream conf o).request = o.request := by
  cases cb with
  | beginHeaders | recvHeader | endHeaders | recvData => cases hcb
  | _ => rfl

/-- What a callback makes of the request depends on the request alone. -/
private theorem onStream_request_congr (cb : Callback) (h : o.request = o'.request) :
    (cb.onStream conf o).request = (cb.onStream conf o').request := by
  cases hcb : cb.ofRequest with
  | false => rw [onStream_request hcb, onStream_request hcb, h]
  | true =>
    cases o
    cases o'
    simp only [H3Stream.request, RequestParts.mk.injEq] at h
    obtain ⟨rfl, rfl, rfl, rfl, rfl, rfl, rfl, rfl, rfl, rfl, rfl, rfl⟩ := h
    cases cb with
    | beginHeaders sid => rfl
    | recvHeader sid field =>
      dsimp only [Callback.onStream]
      unfold onRecvHeader
      by_cases ht : field.token ≠ .regular
      · rw [if_pos ht, if_pos ht]
        unfold setPseudo
        split_ifs
        · rfl
        · rfl
        · cases field.token <;> rfl
      · rw [if_neg ht, if_neg ht]
        dsimp only
        split
        · rfl
        · unfold addField
          dsimp only
          split_ifs <;> rfl
    | endHeaders sid fin =>
      dsimp only [Callback.onStream]
      unfold onEndHeaders
      split_ifs <;> rfl
    | recvData sid data =>
      dsimp only [Callback.onStream]
      unfold onRecvData
      dsimp only
      split_ifs <;> rfl
    | _ => cases hcb

end

end ModHttp3.Session

namespace ModHttp3.Request
open Session

/-- The `request_rec`, and how it is handled, depend on the request of the stream alone. -/
private theorem buildRequest_congr (httpd : Httpd) {o o' : H3Stream} (h : o.request = o'.request) :
    buildRequest httpd o = buildRequest httpd o' ∧
      handling o (buildRequest httpd o) = handling o' (buildRequest httpd o') := by
  simp only [H3Stream.request, RequestParts.mk.injEq] at h
  obtain ⟨-, hmethod, hscheme, hauthority, hpath, hheaders, -, -, hbody, -, hoverflow, -⟩ := h
  have hin : headersIn o = headersIn o' := by
    unfold headersIn
    rw [hscheme, hauthority, hheaders, hbody]
  have hbuild : buildRequest httpd o = buildRequest httpd o' := by
    unfold buildRequest
    rw [hmethod, hpath, hin]
  refine ⟨hbuild, ?_⟩
  unfold handling
  rw [hbuild, hoverflow]

end ModHttp3.Request

namespace ModHttp3.System
open Session Lib Request

/-- The session, the callbacks that brought the request of each stream, and the streams whose request was
complete when nghttp3 was last called. -/
structure Received where
  sys : State
  calls : ℤ → List Callback
  settled : ℤ → Bool

namespace Received

def start : Received := ⟨.start, fun _ => [], fun _ => false⟩

/-- The callback finds a stream and brings a part of its request. -/
def brings (w : Received) (cb : Callback) : Bool :=
  cb.ofRequest && (w.sys.session.obj cb.sid).isSome && w.sys.session.finds cb

def callsAfter (w : Received) : Action → ℤ → List Callback
  | .event (.callback cb) =>
    if w.brings cb then Function.update w.calls cb.sid (w.calls cb.sid ++ [cb]) else w.calls
  | _ => w.calls

def settledAfter (w : Received) (σ : State) : Action → ℤ → Bool
  | .event (.callback _) | .worker _ _ => w.settled
  | _ => fun sid => σ.session.has sid fun o => o.headersComplete && o.bodyComplete

def step (conf : SessionConf) (w : Received) (act : Action) : Option Received :=
  (w.sys.step conf act).map fun σ => ⟨σ, w.callsAfter act, w.settledAfter σ act⟩

/-- nghttp3 brings nothing for a request that was complete before it was called. -/
def inOrder (w : Received) : Action → Bool
  | .event (.callback cb) => !(cb.ofRequest && w.settled cb.sid)
  | _ => true

end Received

/-- The stream is known, and its request is complete. -/
def Complete (s : H3Session) (sid : ℤ) : Prop := ∃ o, s.obj sid = some o ∧ o.headersComplete ∧ o.bodyComplete

/-- Each stream has the request that its callbacks brought. -/
structure Stored (conf : SessionConf) (calls : ℤ → List Callback) (s : H3Session) : Prop where
  unknown : ∀ sid, s.obj sid = none → calls sid = []
  known : ∀ sid o, s.obj sid = some o → o.request = (replay conf sid (calls sid)).request

structure Faithful (conf : SessionConf) (w : Received) : Prop where
  stored : Stored conf w.calls w.sys.session
  settled : ∀ sid, w.settled sid → Complete w.sys.session sid
  completed : ∀ sid ∈ w.sys.pc.completed, w.settled sid
  tasks : ∀ t ∈ w.sys.tasks, w.settled (Task.sid t)

private theorem onStream_complete {conf : SessionConf} {o : H3Stream} (cb : Callback)
    (h : o.headersComplete ∧ o.bodyComplete) :
    (cb.onStream conf o).headersComplete ∧ (cb.onStream conf o).bodyComplete := by
  refine ⟨(onStream_later conf cb o).headersComplete h.1, ?_⟩
  cases cb with
  | recvHeader sid field => exact (onRecvHeader_sameRequest conf field o).bodyComplete.trans h.2
  | recvData sid data => exact (onRecvData_sameRequest conf data o).bodyComplete.trans h.2
  | endHeaders sid fin =>
    dsimp only [Callback.onStream]
    unfold onEndHeaders
    split_ifs
    · exact Bool.or_eq_true_iff.mpr (.inl h.2)
    · exact h.2
  | stopSending sid => rfl
  | _ => exact h.2

section
variable {conf : SessionConf} {w w' : Received} {act : Action} {σ : State}

private theorem faithful_start (conf : SessionConf) : Faithful conf .start where
  stored := ⟨fun _ _ => rfl, fun _ _ ho => by cases ho⟩
  settled _ hs := by cases hs
  completed _ hs := by cases hs
  tasks _ ht := by cases ht

/-- A complete request stays complete. -/
theorem Complete.step (h : w.sys.step conf act = some σ) {sid : ℤ} (hc : Complete w.sys.session sid) :
    Complete σ.session sid := by
  have halters : Alters conf (fun _ => True) (fun _ _ => True) w.sys.session σ.session :=
    step_alters (fun _ _ => trivial) (fun _ _ => trivial) h
  refine halters.persist (G := fun o => o.headersComplete ∧ o.bodyComplete) (fun f hf o hc => ?_)
    (fun cb _ o hc => onStream_complete cb hc) hc
  refine ⟨(hf.later o).headersComplete hc.1, ?_⟩
  cases hf with
  | touch hf =>
    cases hf with
    | respond gone call => exact (respond_sameRequest gone call o).bodyComplete.trans hc.2
    | bodyComplete => rfl
    | rejected => rfl
    | _ => exact hc.2
  | _ => exact hc.2

theorem Complete.has {s : H3Session} {sid : ℤ} (hc : Complete s sid) :
    s.has sid fun o => o.headersComplete && o.bodyComplete := by
  obtain ⟨o, ho, hheaders, hbody⟩ := hc
  rw [H3Session.has_of_obj ho, hheaders, hbody]
  rfl

/-- What was complete stays on record. -/
theorem Faithful.settled_mono (hF : Faithful conf w) (h : w.sys.step conf act = some σ) {sid : ℤ}
    (hs : w.settled sid) : w.settledAfter σ act sid := by
  unfold Received.settledAfter
  split
  · exact hs
  · exact hs
  · exact ((hF.settled sid hs).step h).has

private theorem replay_append (conf : SessionConf) (sid : ℤ) (calls : List Callback) (cb : Callback) :
    replay conf sid (calls ++ [cb]) = cb.onStream conf (replay conf sid calls) := by
  unfold replay
  rw [List.foldl_append]
  rfl

/-- The steps of the module itself keep what is stored; a new stream has no request yet. -/
theorem Stored.alters {calls : ℤ → List Callback} {B : ℤ → Bool → Prop} {s s' : H3Session}
    (hS : Stored conf calls s) (h : Alters conf (fun _ => False) B s s') : Stored conf calls s' := by
  refine h.preserve (P := Stored conf calls) (fun s₁ s₂ ha h₁ => ?_) hS
  constructor
  · intro sid hnone
    cases ha.obj sid with
    | same hy => exact h₁.unknown sid (hy.symm.trans hnone)
    | sets hf hy => exact h₁.unknown sid (Option.map_eq_none_iff.mp (hy.symm.trans hnone))
    | callback cb hC hsid hy => exact hC.elim
    | new g hx hy => cases hy.symm.trans hnone
  · intro sid o ho
    cases ha.obj sid with
    | same hy => exact h₁.known sid o (hy.symm.trans ho)
    | sets hf hy =>
      obtain ⟨o₁, ho₁, rfl⟩ := Option.map_eq_some_iff.mp (hy.symm.trans ho)
      rw [hf.request]
      exact h₁.known sid o₁ ho₁
    | callback cb hC hsid hy => exact hC.elim
    | new g hx hy =>
      cases hy.symm.trans ho
      rw [h₁.unknown sid hx]
      rfl

theorem callsAfter_ne {cb : Callback} {x : ℤ} (hx : x ≠ cb.sid) :
    w.callsAfter (.event (.callback cb)) x = w.calls x := by
  unfold Received.callsAfter
  dsimp only
  split_ifs
  · exact Function.update_of_ne hx ..
  · rfl

theorem callsAfter_self (cb : Callback) :
    w.callsAfter (.event (.callback cb)) cb.sid =
      if w.brings cb then w.calls cb.sid ++ [cb] else w.calls cb.sid := by
  unfold Received.callsAfter
  dsimp only
  split_ifs
  · exact Function.update_self ..
  · rfl

/-- A callback that brings a part of the request is recorded; another one changes no request. -/
theorem Stored.deliver (hS : Stored conf w.calls w.sys.session) {cb : Callback} (hf : w.sys.session.finds cb) :
    Stored conf (w.callsAfter (.event (.callback cb))) (w.sys.session.deliver conf cb) := by
  constructor
  · intro x hnone
    rw [deliver_obj] at hnone
    by_cases hx : x = cb.sid
    · subst hx
      rw [H3Session.modify_obj_self, Option.map_eq_none_iff] at hnone
      have hnot : w.brings cb = false := by
        unfold Received.brings
        rw [hnone, Option.isSome_none, Bool.and_false, Bool.false_and]
      rw [callsAfter_self, hnot]
      exact hS.unknown _ hnone
    · rw [H3Session.modify_obj_ne _ _ hx] at hnone
      rw [callsAfter_ne hx]
      exact hS.unknown x hnone
  · intro x o ho
    rw [deliver_obj] at ho
    by_cases hx : x = cb.sid
    · subst hx
      rw [H3Session.modify_obj_self] at ho
      obtain ⟨o₁, ho₁, rfl⟩ := Option.map_eq_some_iff.mp ho
      have hbrings : w.brings cb = cb.ofRequest := by
        unfold Received.brings
        rw [ho₁, hf, Option.isSome_some, Bool.and_true, Bool.and_true]
      rw [callsAfter_self, hbrings]
      split_ifs with hreq
      · rw [replay_append]
        exact onStream_request_congr cb (hS.known _ o₁ ho₁)
      · rw [onStream_request (Bool.not_eq_true _ ▸ hreq)]
        exact hS.known _ o₁ ho₁
    · rw [H3Session.modify_obj_ne _ _ hx] at ho
      rw [callsAfter_ne hx]
      exact hS.known x o ho

theorem Stored.step (hS : Stored conf w.calls w.sys.session) (h : w.sys.step conf act = some σ) :
    Stored conf (w.callsAfter act) σ.session := by
  by_cases hcb : ∃ cb, act = .event (.callback cb)
  · obtain ⟨cb, rfl⟩ := hcb
    rw [step_callback h]
    dsimp only
    unfold H3Session.callback
    split_ifs with hf
    · exact hS.deliver hf
    · have hsame : w.callsAfter (.event (.callback cb)) = w.calls := by
        unfold Received.callsAfter Received.brings
        dsimp only
        rw [(Bool.not_eq_true _).mp hf, Bool.and_false]
        rfl
      rw [hsame]
      exact hS
  · have hsame : w.callsAfter act = w.calls := by
      unfold Received.callsAfter
      split
      · exact absurd ⟨_, rfl⟩ hcb
      · rfl
    have halters : Alters conf (fun _ => False) (fun _ _ => True) w.sys.session σ.session :=
      step_alters (fun cb he => hcb ⟨cb, he⟩) (fun _ _ => trivial) h
    rw [hsame]
    exact hS.alters halters

/-- What was complete when nghttp3 was called gets nothing more. -/
private theorem calls_settled (hok : w.inOrder act) {sid : ℤ} (hs : w.settled sid) : w.callsAfter act sid = w.calls sid := by
  by_cases hcb : ∃ cb, act = .event (.callback cb)
  · obtain ⟨cb, rfl⟩ := hcb
    by_cases hx : sid = cb.sid
    · subst hx
      have hnot : w.brings cb = false := by
        unfold Received.inOrder at hok
        dsimp only at hok
        rw [hs, Bool.and_true, Bool.not_eq_true'] at hok
        unfold Received.brings
        rw [hok, Bool.false_and, Bool.false_and]
      rw [callsAfter_self, hnot]
      rfl
    · exact callsAfter_ne hx
  · unfold Received.callsAfter
    split
    · exact absurd ⟨_, rfl⟩ hcb
    · rfl

/-- The streams that wait for `h3_process_request` have a complete request. -/
theorem Faithful.listed_settled (hF : Faithful conf w) (h : w.sys.step conf act = some σ) :
    ∀ sid ∈ σ.pc.completed, w.settledAfter σ act sid := by
  intro sid hsid
  have hcases := completed_step h hsid
  unfold Received.settledAfter
  split
  · rw [step_callback h] at hsid
    exact hF.completed sid hsid
  · obtain ⟨t, -, h⟩ := Option.bind_eq_some_iff.mp h
    obtain ⟨next, -, h⟩ := Option.bind_eq_some_iff.mp h
    cases h
    exact hF.completed sid hsid
  · have hcomplete : Complete w.sys.session sid := by
      rcases hcases with hold | hready
      · exact hF.settled sid (hF.completed sid hold)
      · obtain ⟨o, ho, hr⟩ := H3Session.has_iff.mp hready
        simp only [H3Stream.ready, Bool.and_eq_true] at hr
        exact ⟨o, ho, hr.1.1.2, hr.1.2⟩
    exact (hcomplete.step h).has

theorem Faithful.step (hF : Faithful conf w) (h : w.step conf act = some w') : Faithful conf w' := by
  obtain ⟨σ, hσ, rfl⟩ := Option.map_eq_some_iff.mp h
  refine ⟨hF.stored.step hσ, fun sid hs => ?_, hF.listed_settled hσ, fun t ht => ?_⟩
  · unfold Received.settledAfter at hs
    dsimp only at hs
    split at hs
    · exact (hF.settled sid hs).step hσ
    · exact (hF.settled sid hs).step hσ
    · obtain ⟨o, ho, hc⟩ := H3Session.has_iff.mp hs
      exact ⟨o, ho, Bool.and_eq_true_iff.mp hc⟩
  · rcases tasks_step hσ ht with ⟨u, hu, he⟩ | hcompleted
    · rw [← he]
      exact hF.settled_mono hσ (hF.tasks u hu)
    · exact hF.settled_mono hσ (hF.completed _ hcompleted)

private theorem faithful_reach {ok : Received → Action → Prop} (h : Reach (Received.step conf) ok .start w) :
    Faithful conf w :=
  h.invariant (faithful_start conf) fun _ _ _ hF _ hs => hF.step hs

/-- If nghttp3 brings nothing for a request that was complete before it was called, the request of a task is
frozen: from its dispatch on, whatever the event thread and other workers do, the stream has the request that
nghttp3 brought for it, callback by callback, and the `request_rec` that the worker builds from it is the one for
these callbacks. -/
theorem request_as_received (httpd : Httpd)
    (h : Reach (Received.step conf) (fun w act => w.inOrder act) .start w) {t : Task} (ht : t ∈ w.sys.tasks)
    (h' : Reach (Received.step conf) (fun w act => w.inOrder act) w w') :
    w'.calls t.sid = w.calls t.sid ∧
    ∃ o, w'.sys.session.obj t.sid = some o ∧
      o.request = (replay conf t.sid (w.calls t.sid)).request ∧
      buildRequest httpd o = buildRequest httpd (replay conf t.sid (w.calls t.sid)) ∧
      handling o (buildRequest httpd o) =
        handling (replay conf t.sid (w.calls t.sid)) (buildRequest httpd (replay conf t.sid (w.calls t.sid))) := by
  have hF : Faithful conf w' ∧ w'.settled t.sid ∧ w'.calls t.sid = w.calls t.sid := by
    have hw := faithful_reach h
    refine h'.invariant (I := fun v => Faithful conf v ∧ v.settled t.sid ∧ v.calls t.sid = w.calls t.sid)
      ⟨hw, hw.tasks t ht, rfl⟩ fun v act v' ⟨hF, hs, hc⟩ hok hstep => ?_
    have hF' := hF.step hstep
    obtain ⟨σ, hσ, rfl⟩ := Option.map_eq_some_iff.mp hstep
    exact ⟨hF', hF.settled_mono hσ hs, (calls_settled hok hs).trans hc⟩
  obtain ⟨hF, hs, hc⟩ := hF
  obtain ⟨o, ho, -⟩ := hF.settled _ hs
  have hreq := hF.stored.known _ o ho
  rw [hc] at hreq
  exact ⟨hc, o, ho, hreq, buildRequest_congr httpd hreq⟩

end

/-- A worker has a request while the next pass closes its stream. -/
theorem request_as_received_closed :
    ∃ w w', Reach (Received.step sampleConf) (fun w act => w.inOrder act) .start w ∧
      w.sys.tasks = [⟨0, .queued⟩] ∧ (w.calls 0).length = 3 ∧
      Reach (Received.step sampleConf) (fun w act => w.inOrder act) w w' ∧
      (w'.sys.session.has 0 (·.done)) ∧ w'.calls 0 = w.calls 0 ∧
      ∃ o, w'.sys.session.obj 0 = some o ∧ o.request = (replay sampleConf 0 (w.calls 0)).request := by
  have hrun : (runChecked (Received.step sampleConf) (fun w act => w.inOrder act) .start
      (openSession ++ receiveRequest)).map (fun w => (w.sys.tasks, (w.calls 0).length,
        (runChecked (Received.step sampleConf) (fun w act => w.inOrder act) w closeRequest).map
          fun w' => w'.sys.session.has 0 (·.done))) = some ([⟨0, .queued⟩], 3, some true) := by
    decide +kernel
  obtain ⟨w, hw, he⟩ := Option.map_eq_some_iff.mp hrun
  simp only [Prod.mk.injEq] at he
  obtain ⟨htasks, hlen, he⟩ := he
  obtain ⟨w', hw', hdone⟩ := Option.map_eq_some_iff.mp he
  have hr := Reach.of_runChecked _ hw
  have hr' := Reach.of_runChecked _ hw'
  have hmem : (⟨0, .queued⟩ : Task) ∈ w.sys.tasks := by
    rw [htasks]
    exact List.mem_cons_self
  obtain ⟨hcalls, o, ho, hreq, -⟩ :=
    request_as_received ⟨fun path => (path, true), fun _ => true⟩ hr hmem hr'
  exact ⟨w, w', hr, htasks, hlen, hr', hdone, hcalls, o, ho, hreq⟩

end ModHttp3.System
