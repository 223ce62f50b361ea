import ModHttp3.Response.Queue
import ModHttp3.System.Alter
import ModHttp3.System.Effect

/-! Workers that wait in `h3_stream_response_append` for room in the buffer of their stream. Once
the stream or the session has come to an end, the next wake-up makes the call fail. -/
namespace ModHttp3.System
open Session Lib

/-- What holds of every stream object: without a handle its response is cancelled, and nghttp3
knows it by the end of its headers. -/
structure Attended (o : H3Stream) : Prop where
  handle : o.qstream = none → o.responseCancelled ∧ o.done
  userData : o.headersComplete → o.userData

theorem Attended.sets {f : H3Stream → H3Stream} (hf : Sets f) {o : H3Stream} (h : Attended o) :
    Attended (f o) := by
  have hlater := hf.later o
  have hkept : (f o).qstream = o.qstream ∧ (f o).headersComplete = o.headersComplete := by
    cases hf with
    | touch hf =>
      cases hf with
      | respond gone call =>
        obtain ⟨_, _, _, he⟩ := respond_eq gone call o
        rw [he]
        exact ⟨rfl, rfl⟩
      | _ => exact ⟨rfl, rfl⟩
    | _ => exact ⟨rfl, rfl⟩
  refine ⟨fun hq => ?_, fun hh => ?_⟩
  · obtain ⟨hcancelled, hdone⟩ := h.handle (hkept.1.symm.trans hq)
    exact ⟨hlater.responseCancelled hcancelled, hlater.done hdone⟩
  · exact hlater.userData (h.userData (hkept.2.symm.trans hh))

/-- A callback on a stream that nghttp3 knows, or comes to know by it. -/
theorem Attended.callback {conf : SessionConf} {cb : Callback} {o : H3Stream} (h : Attended o)
    (hu : (∃ sid, cb = .beginHeaders sid) ∨ o.userData) : Attended (cb.onStream conf o) := by
  have hlater := onStream_later conf cb o
  have hknown : (cb.onStream conf o).userData := by
    rcases hu with ⟨sid, rfl⟩ | hu
    · rfl
    · exact hlater.userData hu
  refine ⟨fun hq => ?_, fun _ => hknown⟩
  cases cb with
  | stopSending sid => exact ⟨rfl, rfl⟩
  | resetStream sid => exact ⟨rfl, rfl⟩
  | streamClose sid => exact ⟨rfl, rfl⟩
  | beginHeaders sid => exact h.handle hq
  | responseData sid => exact h.handle hq
  | recvHeader sid field =>
    obtain ⟨_, _, _, _, _, _, _, _, -, he⟩ := onRecvHeader_eq conf field o
    rw [Callback.onStream, he] at hq ⊢
    exact h.handle hq
  | endHeaders sid fin =>
    simp only [Callback.onStream, onEndHeaders] at hq ⊢
    split_ifs at hq ⊢ <;> exact h.handle hq
  | recvData sid data =>
    simp only [Callback.onStream, onRecvData] at hq ⊢
    split_ifs at hq ⊢ <;> exact h.handle hq

section
variable {conf : SessionConf} {σ σ' : State} {act : Action} {sid : ℤ}

private theorem attended_step (hI : σ.session.Each fun _ => Attended) (h : σ.step conf act = some σ') :
    σ'.session.Each fun _ => Attended := by
  by_cases hcb : ∃ cb, act = .event (.callback cb)
  · obtain ⟨cb, rfl⟩ := hcb
    rw [step_callback h]
    dsimp only
    unfold H3Session.callback
    split_ifs with hf
    · intro x o ho
      rw [deliver_obj] at ho
      refine modify_forall hI (fun _ _ _ ha => ha) (fun o₁ ho₁ ha => ha.callback ?_) x o ho
      exact (finds_userData ho₁).imp id (·.symm.trans hf)
    · exact hI
  · have halters : Alters conf (fun _ => False) (fun _ _ => True) σ.session σ'.session :=
      step_alters (fun cb he => hcb ⟨cb, he⟩) (fun _ _ => trivial) h
    exact halters.each (fun _ _ => ⟨nofun, nofun⟩) (fun f hf _ o ha => ha.sets hf) nofun hI

/-- The streams of a session are attended, those of tasks have their headers, and a stream that
nghttp3 has reported closed is cancelled. -/
structure Overseen (σ : State) : Prop where
  streams : σ.session.Each fun _ => Attended
  completed : ∀ sid ∈ σ.pc.completed, ∃ o, σ.session.obj sid = some o ∧ o.headersComplete
  tasks : ∀ t ∈ σ.tasks, ∃ o, σ.session.obj (Task.sid t) = some o ∧ o.headersComplete
  closed : ∀ sid, .closed sid ∈ σ.session.notes → ∃ o, σ.session.obj sid = some o ∧ o.responseCancelled

private theorem overseen_start : Overseen .start := by
  have hnone : ∀ sid, State.start.session.obj sid = none := fun _ => rfl
  refine ⟨fun sid o ho => ?_, nofun, nofun, nofun⟩
  cases (hnone sid).symm.trans ho

theorem cancelled_step (h : σ.step conf act = some σ') (hc : ∃ o, σ.session.obj sid = some o ∧ o.responseCancelled) :
    ∃ o, σ'.session.obj sid = some o ∧ o.responseCancelled := by
  obtain ⟨o, ho, hcancelled⟩ := hc
  obtain ⟨o', ho', hlater⟩ := step_later h ho
  exact ⟨o', ho', hlater.responseCancelled hcancelled⟩

theorem callback_cancels {s : H3Session} {cb : Callback} {o : H3Stream}
    (hcb : cb = .streamClose sid ∨ cb = .resetStream sid ∨ cb = .stopSending sid)
    (ho : s.obj sid = some o) (hu : o.userData) :
    ∃ o', (s.callback conf cb).obj sid = some o' ∧ o'.responseCancelled := by
  have hsid : cb.sid = sid := by rcases hcb with rfl | rfl | rfl <;> rfl
  have hfinds : s.finds cb := by
    rcases hcb with rfl | rfl | rfl <;> exact (H3Session.has_of_obj ho _).trans hu
  have hcancelled : (cb.onStream conf o).responseCancelled := by
    rcases hcb with rfl | rfl | rfl <;> rfl
  refine ⟨cb.onStream conf o, ?_, hcancelled⟩
  unfold H3Session.callback
  rw [if_pos hfinds, deliver_obj, hsid, H3Session.modify_obj_self, ho, Option.map_some]

theorem Overseen.step (hO : Overseen σ) (h : σ.step conf act = some σ') : Overseen σ' := by
  refine ⟨attended_step hO.streams h, completed_headers hO.completed h, fun t ht => ?_, fun sid hc => ?_⟩
  · have hbefore : ∃ o, σ.session.obj t.sid = some o ∧ o.headersComplete := by
      rcases tasks_step h ht with ⟨u, hu, he⟩ | hcompleted
      · rw [← he]
        exact hO.tasks u hu
      · exact hO.completed _ hcompleted
    obtain ⟨o, ho, hh⟩ := hbefore
    obtain ⟨o', ho', hlater⟩ := step_later h ho
    exact ⟨o', ho', hlater.headersComplete hh⟩
  · obtain ⟨new, hnotes, hnew⟩ := step_notes h
    rw [hnotes] at hc
    rcases List.mem_append.mp hc with hc | hold
    · obtain ⟨rfl, hf⟩ := hnew sid hc
      obtain ⟨o, ho, hu⟩ := H3Session.has_iff.mp hf
      rw [step_callback h]
      exact callback_cancels (.inl rfl) ho hu
    · exact cancelled_step h (hO.closed sid hold)

private theorem overseen_reach {ok : State → Action → Prop} (h : Reach (State.step conf) ok .start σ) : Overseen σ :=
  h.invariant overseen_start fun _ _ _ hO _ hs => hO.step hs

end

/-- The steps that end a stream: nghttp3 reports that it is closed, or has it reset or given up;
`reject_malformed_stream` is done with it; its response is abandoned as stalled. -/
inductive EndsStream (σ : State) (sid : ℤ) : Action → Prop
  | reported {cb : Callback} (hcb : cb = .streamClose sid ∨ cb = .resetStream sid ∨ cb = .stopSending sid) :
      EndsStream σ sid (.event (.callback cb))
  | rejected {origin : RejectFrom} {err : Option LibErr} (hpc : σ.pc.visit = some (sid, .inside (.close origin))) :
      EndsStream σ sid (.event (.returned err))
  | abandoned {sids : List ℤ} (hpc : σ.pc = .flush .passEnd .returned) (hin : sid ∈ sids) :
      EndsStream σ sid (.event (.stalled sids))

/-- nghttp3's part in the rejection of a stream that has a task: `nghttp3_conn_close_stream` calls
`on_stream_close` before it returns. -/
def rejectReported (σ : State) : Action → Bool
  | .event (.returned _) => match σ.pc.visit with
    | some (sid, .inside (.close _)) =>
      !decide (sid ∈ σ.tasks.map Task.sid) || decide (.closed sid ∈ σ.session.trace)
    | _ => true
  | _ => true

/-- On the way from `σ` to `σ'` the stream `sid` has been ended. -/
def EndedSince (conf : SessionConf) (σ : State) (sid : ℤ) (σ' : State) : Prop :=
  ∃ σ₁ act σ₂, Reach (State.step conf) (fun σ act => rejectReported σ act) σ σ₁ ∧ EndsStream σ₁ sid act ∧
    rejectReported σ₁ act ∧ σ₁.step conf act = some σ₂ ∧
    Reach (State.step conf) (fun σ act => rejectReported σ act) σ₂ σ'

/-- Whatever the wait returns and whatever is buffered, the next wake-up of a producer of `sid`
makes its append fail with nothing queued. -/
def WakeUpFails (s : H3Session) (sid : ℤ) : Prop :=
  ∃ o, s.obj sid = some o ∧ ∀ (sizeMax : ℕ) (data : Bytes) (offset : ℕ) (malloc : Option Addr)
    (rv : Response.WaitResult) (r : Response.Queue), r.responseCancelled = o.responseCancelled →
      ∃ e, e ≠ .success ∧
        Response.appendWakeUp sizeMax s.flags data offset malloc rv r = some (.returns e, r)

section
variable {conf : SessionConf} {σ σ' : State} {act : Action} {sid : ℤ}

/-- `abandon_stalled_responses` cancels the responses of all the streams it is given. -/
private theorem abandon_cancels (sids : List ℤ) {s : H3Session} {o : H3Stream} (ho : s.obj sid = some o)
    (hin : sid ∈ sids ∨ o.responseCancelled) :
    ∃ o', (s.abandonStalledResponses sids).obj sid = some o' ∧ o'.responseCancelled := by
  unfold H3Session.abandonStalledResponses
  induction sids generalizing s o with
  | nil => exact ⟨o, ho, hin.resolve_left List.not_mem_nil⟩
  | cons x rest ih =>
    rw [List.foldl_cons]
    by_cases hx : sid = x
    · subst hx
      refine ih (o := o.responseCancel) ?_ (.inr rfl)
      rw [H3Session.modify_obj_self, ho, Option.map_some]
    · refine ih ((H3Session.modify_obj_ne s _ hx).trans ho) (hin.imp (fun hm => ?_) id)
      exact (List.mem_cons.mp hm).resolve_left hx

private theorem step_abandons {sids : List ℤ} (hpc : σ.pc = .flush .passEnd .returned)
    (h : σ.step conf (.event (.stalled sids)) = some σ') :
    σ'.session = σ.session.abandonStalledResponses sids := by
  change σ.eventStep conf (.stalled sids) = some σ' at h
  unfold State.eventStep at h
  rw [hpc] at h
  simp only [State.flushed] at h
  split_ifs at h
  cases h
  rfl

/-- A step that ends the stream of a task cancels its response. -/
theorem EndsStream.cancels (hend : EndsStream σ sid act) (hO : Overseen σ) (hok : rejectReported σ act)
    (ht : sid ∈ σ.tasks.map Task.sid) (h : σ.step conf act = some σ') :
    ∃ o, σ'.session.obj sid = some o ∧ o.responseCancelled := by
  obtain ⟨t, hmem, rfl⟩ := List.mem_map.mp ht
  obtain ⟨o, ho, hheaders⟩ := hO.tasks t hmem
  cases hend with
  | reported hcb =>
    rw [step_callback h]
    exact callback_cancels hcb ho ((hO.streams _ o ho).userData hheaders)
  | rejected hpc =>
    -- the rejection itself only sets `done`: the response was cancelled by `on_stream_close`
    have hclosed : .closed t.sid ∈ σ.session.trace := by
      simpa [rejectReported, hpc, ht] using hok
    exact cancelled_step h (hO.closed _ (mem_notes hclosed rfl))
  | abandoned hpc hin =>
    rw [step_abandons hpc h]
    exact abandon_cancels _ ho (.inl hin)

theorem EndedSince.cancelled (hend : EndedSince conf σ sid σ') (hO : Overseen σ)
    (ht : sid ∈ σ.tasks.map Task.sid) : ∃ o, σ'.session.obj sid = some o ∧ o.responseCancelled := by
  obtain ⟨σ₁, act, σ₂, hbefore, hends, hok, hs, hafter⟩ := hend
  -- the task and its stream are still there when the stream is ended
  have hat : Overseen σ₁ ∧ sid ∈ σ₁.tasks.map Task.sid := by
    refine hbefore.invariant (I := fun σ => Overseen σ ∧ sid ∈ σ.tasks.map Task.sid) ⟨hO, ht⟩ ?_
    rintro σ act σ' ⟨hO, ht⟩ - hs
    exact ⟨hO.step hs, taskSids_subset hs ht⟩
  obtain ⟨o, ho, hcancelled⟩ := hends.cancels hat.1 hok hat.2 hs
  obtain ⟨o', ho', hlater⟩ := reach_later hafter ho
  exact ⟨o', ho', hlater.responseCancelled hcancelled⟩

/-- In every reachable state a stream without a handle is cancelled and done. And while a worker
is in `h3_stream_response_append`, from the moment its stream is closed, reset, rejected or
abandoned, or the session is aborted or dead, its next wake-up makes the call return an error with
nothing queued. -/
theorem no_producer_waits_on_dead_stream (h : Reach (State.step conf) anyStep .start σ) :
    (∀ sid o, σ.session.obj sid = some o → o.qstream = none → o.responseCancelled ∧ o.done) ∧
    ∀ (i : ℕ) sid σ', σ.tasks[i]? = some ⟨sid, .processing⟩ →
      Reach (State.step conf) (fun σ act => rejectReported σ act) σ σ' →
      EndedSince conf σ sid σ' ∨ σ'.session.aborted ∨ σ'.session.ngh3Dead → WakeUpFails σ'.session sid := by
  have hO := overseen_reach h
  refine ⟨fun sid o ho => (hO.streams sid o ho).handle, fun i sid σ' ht hreach hover => ?_⟩
  have hmem := List.mem_of_getElem? ht
  rcases hover with hend | hover
  · obtain ⟨o, ho, hcancelled⟩ := hend.cancelled hO (List.mem_map_of_mem hmem)
    refine ⟨o, ho, fun sizeMax data offset malloc rv r hr => ?_⟩
    exact Response.appendWakeUp_fails (.inl (hr.trans hcancelled)) sizeMax data offset malloc rv
  · obtain ⟨o₀, ho₀, -⟩ := hO.tasks _ hmem
    obtain ⟨o, ho, -⟩ := reach_later hreach ho₀
    refine ⟨o, ho, fun sizeMax data offset malloc rv r _ => ?_⟩
    exact Response.appendWakeUp_fails (.inr hover) sizeMax data offset malloc rv

/-- The worker is answering the request on stream 0. -/
def answering : List Action := openSession ++ receiveRequest ++ serveRequest.take 5

/-- The client gives up on its stream while the worker is answering: nghttp3 closes the stream. -/
theorem no_producer_waits_on_dead_stream_closed :
    ∃ σ σ', Reach (State.step sampleConf) anyStep .start σ ∧ σ.tasks[0]? = some ⟨0, .processing⟩ ∧
      EndedSince sampleConf σ 0 σ' ∧ WakeUpFails σ'.session 0 ∧
      ∃ o, σ'.session.obj 0 = some o ∧ o.qstream = none ∧ o.responseCancelled ∧ o.done := by
  have hrun : (runActions (State.step sampleConf) .start answering).bind (fun σ =>
      (runChecked (State.step sampleConf) (fun σ act => rejectReported σ act) σ (closeRequest.take 5)).bind
        fun σ₁ => (σ₁.step sampleConf (.event (.callback (.streamClose 0)))).map fun σ' =>
          (σ.tasks[0]?, (σ'.session.obj 0).map (·.qstream))) =
      some (some ⟨0, .processing⟩, some none) := by
    decide +kernel
  obtain ⟨σ, hσ, hrun⟩ := Option.bind_eq_some_iff.mp hrun
  obtain ⟨σ₁, hσ₁, hrun⟩ := Option.bind_eq_some_iff.mp hrun
  obtain ⟨σ', hclose, he⟩ := Option.map_eq_some_iff.mp hrun
  simp only [Prod.mk.injEq] at he
  obtain ⟨htask, hq⟩ := he
  obtain ⟨o, ho, hq⟩ := Option.map_eq_some_iff.mp hq
  have hstart := Reach.of_runActions _ hσ
  have hvisit := Reach.of_runChecked _ hσ₁
  have hend : EndedSince sampleConf σ 0 σ' := ⟨σ₁, _, σ', hvisit, .reported (.inl rfl), rfl, hclose, .start⟩
  have hreach : Reach (State.step sampleConf) anyStep .start σ' :=
    .next (hstart.trans (hvisit.mono fun _ _ _ => trivial)) trivial hclose
  obtain ⟨-, hwake⟩ := no_producer_waits_on_dead_stream hstart
  obtain ⟨hhandle, -⟩ := no_producer_waits_on_dead_stream hreach
  exact ⟨σ, σ', hstart, htask, hend, hwake 0 0 σ' htask (.next hvisit rfl hclose) (.inl hend),
    o, ho, hq, hhandle 0 o ho hq⟩

end

end ModHttp3.System
