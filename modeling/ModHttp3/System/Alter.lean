import ModHttp3.Session.Alter
import ModHttp3.System.Moves

/-! Steps of the system as alterations of the stream objects. -/
namespace ModHttp3.System
open Session Lib

section
variable {conf : SessionConf} {σ σ' : State} {act : Action}

private theorem alters_pushStep {C : Callback → Prop} {B : ℤ → Bool → Prop} {s s' : H3Session} {t : Task} {a : Answer} {p : Phase}
    {back : Bool} (h : pushStep s t a = some (s', p, back)) : Alters conf C B s s' := by
  cases pushStep_push h with
  | count | uncount => exact alters_same rfl rfl rfl
  | noPool | queue | noThread => exact .refl _
  | undo | unreserve => exact alters_touch s t.sid (.dispatched false)

private theorem alters_workerStep {C : Callback → Prop} {B : ℤ → Bool → Prop} {s s' : H3Session} {free : Bool} {t : Task} {w : WorkerAct}
    {p : Phase} (h : workerStep s free t w = some (s', p)) : Alters conf C B s s' := by
  cases workerStep_work h with
  | begin | created | built | answered => exact .refl _
  | respond call => exact alters_touch s t.sid (.respond _ call)
  | unreserve => exact alters_touch s t.sid (.dispatched false)
  | mark => exact alters_touch s t.sid .workerDone
  | release | leave => exact alters_same rfl rfl rfl

/-- The write block that a step of the system may set or lift. -/
def Action.setsBlock (pc : EventPc) : Action → Option (ℤ × Bool)
  | .event _ => match pc with
    | .flush _ pc => pc.setsBlock
    | _ => none
  | .worker _ _ => none

/-- What a step of the system does to the stream objects. -/
theorem step_alters {C : Callback → Prop} {B : ℤ → Bool → Prop} (hC : ∀ cb, act = .event (.callback cb) → C cb)
    (hB : ∀ x, act.setsBlock σ.pc = some x → B x.1 x.2)
    (h : σ.step conf act = some σ') : Alters conf C B σ.session σ'.session := by
  cases step_move h with
  | opened hpc hans hall => exact alters_createControlStreams hans
  | openFailed hpc hans hall => exact (alters_createControlStreams hans).trans (alters_destroy _)
  | destroyed hpc => exact alters_destroy _
  | turn hpc hpc' hs hc =>
    rcases hs with rfl | rfl | rfl
    · exact .refl _
    · exact alters_same rfl rfl rfl
    · exact alters_same rfl rfl rfl
  | accepted hpc hans => exact alters_acceptStream _ hans
  | drainStart hpc horder => exact .refl _
  | drain hpc hd => exact alters_drainStep (fun cb he => hC cb (congrArg _ he)) hd
  | flush hpc hf =>
    rw [hpc] at hB
    exact alters_flushStep (fun cb he => hC cb (congrArg _ he)) hB hf
  | abandon hpc => exact alters_cancelAll _ _
  | reserved hpc hfree => exact alters_touch _ _ (.dispatched true)
  | push hpc ht hp => exact alters_pushStep hp
  | worker ht hw => exact alters_workerStep hw

/-- Nothing is taken back from a stream along a run. -/
theorem step_later (h : σ.step conf act = some σ') {sid : ℤ} {o : H3Stream} (ho : σ.session.obj sid = some o) :
    ∃ o', σ'.session.obj sid = some o' ∧ Later o o' := by
  have halters : Alters conf (fun _ => True) (fun _ _ => True) σ.session σ'.session :=
    step_alters (fun _ _ => trivial) (fun _ _ => trivial) h
  exact halters.later ho

theorem reach_later {ok : State → Action → Prop} (h : Reach (State.step conf) ok σ σ') {sid : ℤ}
    {o : H3Stream} (ho : σ.session.obj sid = some o) :
    ∃ o', σ'.session.obj sid = some o' ∧ Later o o' := by
  induction h with
  | start => exact ⟨o, ho, .refl o⟩
  | next _ _ hs ih =>
    obtain ⟨o₁, ho₁, hlater⟩ := ih
    obtain ⟨o', ho', hlater'⟩ := step_later hs ho₁
    exact ⟨o', ho', hlater.trans hlater'⟩

/-- The streams that wait for `h3_process_request` have their headers. -/
theorem completed_headers (hI : ∀ sid ∈ σ.pc.completed, ∃ o, σ.session.obj sid = some o ∧ o.headersComplete)
    (h : σ.step conf act = some σ') :
    ∀ sid ∈ σ'.pc.completed, ∃ o, σ'.session.obj sid = some o ∧ o.headersComplete := by
  intro sid hsid
  have hbefore : ∃ o, σ.session.obj sid = some o ∧ o.headersComplete := by
    rcases completed_step h hsid with hold | hready
    · exact hI sid hold
    · obtain ⟨o, ho, hr⟩ := H3Session.has_iff.mp hready
      simp only [H3Stream.ready, Bool.and_eq_true] at hr
      exact ⟨o, ho, hr.1.1.2⟩
  obtain ⟨o, ho, hh⟩ := hbefore
  obtain ⟨o', ho', hlater⟩ := step_later h ho
  exact ⟨o', ho', hlater.headersComplete hh⟩

theorem finds_userData {s : H3Session} {cb : Callback} {o : H3Stream} (ho : s.obj cb.sid = some o) :
    (∃ sid, cb = .beginHeaders sid) ∨ s.finds cb = o.userData := by
  cases cb with
  | beginHeaders sid => exact .inl ⟨sid, rfl⟩
  | _ => exact .inr (H3Session.has_of_obj ho _)

private theorem flushStep_callback {s s' : H3Session} {pc pc' : FlushPc} {cb : Callback}
    (h : flushStep conf s pc (.callback cb) = some (s', pc')) : s' = s.callback conf cb ∧ pc' = pc := by
  cases pc with
  | writev | offsets =>
    cases h
    exact ⟨rfl, rfl⟩
  | unblock rest =>
    cases rest with
    | nil => cases h
    | cons sid rest =>
      obtain ⟨s₁, hs, -⟩ := Option.map_eq_some_iff.mp h
      unfold H3Session.unblockStep at hs
      split_ifs at hs <;> contradiction
  | _ => cases h

private theorem drainStep_callback {s s' : H3Session} {d d' : Drain} {pc pc' : DrainPc} {cb : Callback}
    (h : drainStep conf s d pc (.callback cb) = some (s', d', pc')) :
    s' = s.callback conf cb ∧ d' = d ∧ pc' = pc := by
  cases pc with
  | visit sid v =>
    cases v with
    | inside call =>
      cases h
      exact ⟨rfl, rfl, rfl⟩
    | loop =>
      obtain ⟨next, hv, -⟩ := Option.map_eq_some_iff.mp h
      change visitLoop conf sid s d (.callback cb) = some next at hv
      unfold visitLoop at hv
      split_ifs at hv <;> contradiction
    | _ => cases h
  | _ => cases h

/-- A step in which nghttp3 calls back is that callback. -/
theorem step_callback {cb : Callback} (h : σ.step conf (.event (.callback cb)) = some σ') :
    σ' = { σ with session := σ.session.callback conf cb } := by
  change σ.eventStep conf (.callback cb) = some σ' at h
  unfold State.eventStep at h
  split at h
  case h_4 origin hpc =>
    cases origin <;> cases h
  case h_5 hpc =>
    obtain ⟨⟨s, pc'⟩, hf, rfl⟩ := Option.map_eq_some_iff.mp h
    obtain ⟨rfl, rfl⟩ := flushStep_callback hf
    rw [← hpc]
  case h_12 hpc _ =>
    obtain ⟨⟨s, d', pc'⟩, hd, rfl⟩ := Option.map_eq_some_iff.mp h
    obtain ⟨rfl, rfl, rfl⟩ := drainStep_callback hd
    rw [← hpc]
  case h_16 =>
    obtain ⟨t, -, h⟩ := Option.bind_eq_some_iff.mp h
    obtain ⟨next, hp, -⟩ := Option.bind_eq_some_iff.mp h
    cases hp
  all_goals contradiction

end

end ModHttp3.System
