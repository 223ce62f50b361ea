import ModHttp3.Session.Handles
import ModHttp3.Session.Visit
import ModHttp3.System.Moves

/-! Steps beside nghttp3: turns of the event thread, reservations and the work of tasks
change neither the handles nor what nghttp3's callbacks have set. -/
namespace ModHttp3.System
open Session Lib

structure Aside (s s' : H3Session) : Prop where
  streams : s'.streams = s.streams
  trace : s'.trace = s.trace
  pendingFree : s'.pendingFree = s.pendingFree
  pending : s'.pending = s.pending
  ngh3Dead : s'.ngh3Dead = s.ngh3Dead
  controlStreamsCreated : s'.controlStreamsCreated = s.controlStreamsCreated
  requests : SameRequests s s'

section
variable {s s' s'' : H3Session}

theorem Aside.of_obj (hs : s'.streams = s.streams) (ht : s'.trace = s.trace)
    (hf : s'.pendingFree = s.pendingFree) (hp : s'.pending = s.pending)
    (hd : s'.ngh3Dead = s.ngh3Dead)
    (hc : s'.controlStreamsCreated = s.controlStreamsCreated) (ho : s'.obj = s.obj) : Aside s s' :=
  ⟨hs, ht, hf, hp, hd, hc, .of_obj ho⟩

theorem Aside.refl (s : H3Session) : Aside s s := .of_obj rfl rfl rfl rfl rfl rfl rfl

theorem Aside.trans (h : Aside s s') (h' : Aside s' s'') : Aside s s'' :=
  ⟨h'.streams.trans h.streams, h'.trace.trans h.trace, h'.pendingFree.trans h.pendingFree,
    h'.pending.trans h.pending, h'.ngh3Dead.trans h.ngh3Dead,
    h'.controlStreamsCreated.trans h.controlStreamsCreated, h.requests.trans h'.requests⟩

theorem aside_modify (s : H3Session) (sid : ℤ) {f : H3Stream → H3Stream}
    (hf : ∀ o, SameRequest o (f o)) : Aside s (s.modify sid f) :=
  ⟨rfl, rfl, rfl, rfl, rfl, rfl, sameRequests_modify s sid hf⟩

theorem aside_setStreamDispatched (s : H3Session) (sid : ℤ) (b : Bool) :
    Aside s (s.setStreamDispatched sid b) :=
  aside_modify s sid fun _ => ⟨rfl, rfl, rfl, rfl, rfl, rfl, rfl, rfl⟩

theorem aside_abandon (sids : List ℤ) (s : H3Session) : Aside s (s.abandonStalledResponses sids) := by
  unfold H3Session.abandonStalledResponses
  induction sids generalizing s with
  | nil => exact .refl s
  | cons sid rest ih =>
    have hm : Aside s (s.modify sid H3Stream.responseCancel) :=
      aside_modify s sid fun _ => ⟨rfl, rfl, rfl, rfl, rfl, rfl, rfl, rfl⟩
    exact hm.trans (ih _)

private theorem aside_setsFlags (h : SetsFlags s s') : Aside s s' := by
  rcases h with rfl | rfl | rfl <;> exact .of_obj rfl rfl rfl rfl rfl rfl rfl

private theorem aside_pushStep {t : Task} {a : Answer} {p : Phase} {back : Bool}
    (h : pushStep s t a = some (s', p, back)) : Aside s s' := by
  cases pushStep_push h with
  | count | uncount => exact .of_obj rfl rfl rfl rfl rfl rfl rfl
  | noPool | queue | noThread => exact .refl _
  | undo | unreserve => exact aside_setStreamDispatched s t.sid false

theorem respond_sameRequest (gone : Bool) (call : RespondCall) (o : H3Stream) :
    SameRequest o (o.respond gone call) := by
  obtain ⟨_, _, _, he⟩ := respond_eq gone call o
  rw [he]
  exact ⟨rfl, rfl, rfl, rfl, rfl, rfl, rfl, rfl⟩

theorem aside_workerStep {free : Bool} {t : Task} {w : WorkerAct} {p : Phase}
    (h : workerStep s free t w = some (s', p)) : Aside s s' := by
  cases workerStep_work h with
  | begin | created | built | answered => exact .refl _
  | respond call => exact aside_modify s t.sid (respond_sameRequest _ call)
  | unreserve => exact aside_setStreamDispatched s t.sid false
  | mark => exact aside_modify s t.sid fun _ => ⟨rfl, rfl, rfl, rfl, rfl, rfl, rfl, rfl⟩
  | release | leave => exact .of_obj rfl rfl rfl rfl rfl rfl rfl

theorem Aside.sameHandles (h : Aside s s') : SameHandles s s' := by
  refine ⟨h.requests.qstream, h.pendingFree, ?_⟩
  unfold H3Session.uses
  rw [h.trace]

theorem Aside.still (h : Aside s s') : Still s s' := by
  refine ⟨?_, h.pending, h.requests⟩
  unfold H3Session.notes
  rw [h.trace]

end

/-- No drain is visiting a stream, and the session is neither being opened nor destroyed. -/
def EventPc.outside : EventPc → Bool
  | .opening | .destroyed => false
  | .drain _ (.visit _ _) => false
  | _ => true

/-- A coarser view of the steps: those that matter to handles and callbacks, and the others. -/
inductive Kind (conf : SessionConf) (σ : State) : Action → State → Prop
  | opened {opened : List (Option (ℤ × Handle))} {bound : Bool} {created : List Bool}
      (hpc : σ.pc = .opening) (hans : σ.session.controlAnswer opened created)
      (hall : (σ.session.createControlStreams opened bound created).2 = true) :
      Kind conf σ (.event (.control opened bound created))
        ⟨(σ.session.createControlStreams opened bound created).1, .opened, σ.tasks⟩
  | openFailed {opened : List (Option (ℤ × Handle))} {bound : Bool} {created : List Bool}
      (hpc : σ.pc = .opening) (hans : σ.session.controlAnswer opened created)
      (hall : (σ.session.createControlStreams opened bound created).2 = false) :
      Kind conf σ (.event (.control opened bound created))
        ⟨(σ.session.createControlStreams opened bound created).1.destroy, .destroyed, σ.tasks⟩
  | destroyed {a : Answer} (hpc : σ.pc.outside) :
      Kind conf σ (.event a) ⟨σ.session.destroy, .destroyed, σ.tasks⟩
  | accepted {h : Handle} {sid : ℤ} {created : Bool} (hpc : σ.pc = .accepting)
      (hans : σ.session.acceptAnswer h sid) :
      Kind conf σ (.event (.accepted h sid created))
        { σ with session := σ.session.acceptStream h sid created }
  | drain {a : Answer} {d d' : Drain} {pc pc' : DrainPc} {s : H3Session} (hpc : σ.pc = .drain d pc)
      (hd : drainStep conf σ.session d pc a = some (s, d', pc')) :
      Kind conf σ (.event a) ⟨s, .drain d' pc', σ.tasks⟩
  | flush {a : Answer} {origin : FlushFrom} {pc pc' : FlushPc} {s : H3Session}
      (hpc : σ.pc = .flush origin pc) (hf : flushStep conf σ.session pc a = some (s, pc')) :
      Kind conf σ (.event a) ⟨s, .flush origin pc', σ.tasks⟩
  | aside {act : Action} {σ' : State} (hs : Aside σ.session σ'.session)
      (hpc : σ'.pc = σ.pc ∧ σ.tasks ≠ [] ∨ σ.pc.outside ∧ σ'.pc.outside)
      (hc : σ'.pc.completed ⊆ σ.pc.completed) : Kind conf σ act σ'

private theorem outside_of_between {pc : EventPc} (h : pc.between) : pc.outside := by
  cases pc with
  | drain d pc => cases pc <;> first | rfl | cases h
  | _ => first | rfl | cases h

theorem step_kind {conf : SessionConf} {σ σ' : State} {act : Action}
    (h : σ.step conf act = some σ') : Kind conf σ act σ' := by
  have hout : ∀ {pc : EventPc}, σ.pc = pc → pc.outside → σ.pc.outside := fun he h => he ▸ h
  cases step_move h with
  | opened hpc hans hall => exact .opened hpc hans hall
  | openFailed hpc hans hall => exact .openFailed hpc hans hall
  | destroyed hpc =>
    apply Kind.destroyed
    rcases hpc with hpc | ⟨hpc, -⟩ <;> exact hout hpc rfl
  | accepted hpc hans => exact .accepted hpc hans
  | drain hpc hd => exact .drain hpc hd
  | flush hpc hf => exact .flush hpc hf
  | @turn a s pc hpc hpc' hs hc =>
    have hpc'' : pc.outside := by cases pc <;> first | rfl | cases hpc'
    exact .aside (aside_setsFlags hs) (.inr ⟨outside_of_between hpc, hpc''⟩) hc
  | drainStart hpc horder => exact .aside (.refl _) (.inr ⟨hout hpc rfl, rfl⟩) nofun
  | abandon hpc => exact .aside (aside_abandon _ _) (.inr ⟨hout hpc rfl, rfl⟩) nofun
  | reserved hpc hfree =>
    refine .aside (aside_setStreamDispatched _ _ _) (.inr ⟨hout hpc rfl, rfl⟩) ?_
    rw [hpc]
    exact List.subset_cons_self _ _
  | @push a i rest t s p back hpc ht hp =>
    refine .aside (aside_pushStep hp) (.inr ⟨hout hpc rfl, ?_⟩) ?_
    · cases back <;> rfl
    · rw [hpc]
      cases back <;> exact List.Subset.refl _
  | worker ht hw =>
    refine .aside (aside_workerStep hw) (.inl ⟨rfl, ?_⟩) (List.Subset.refl _)
    intro he
    rw [he] at ht
    cases ht

end ModHttp3.System
