import ModHttp3.System.Aside

/-! What a step of the system does to the requests. Most steps leave them where they are; the
others add a stream, belong to the visit of one, or are a callback of nghttp3. -/
namespace ModHttp3.System
open Session

/-- The stream being visited, and where the visit is. -/
def EventPc.visit : EventPc → Option (ℤ × VisitPc)
  | .drain _ (.visit sid v) => some (sid, v)
  | _ => none

/-- Only new streams have been added. -/
structure Added (s s' : H3Session) : Prop where
  notes : s'.notes = s.notes
  pending : s'.pending = s.pending
  ngh3Dead : s'.ngh3Dead = s.ngh3Dead
  obj : ∀ sid, s'.obj sid = s.obj sid ∨ s.obj sid = none ∧ ∃ h, s'.obj sid = some (.new sid h)

inductive Effect (conf : SessionConf) (σ : State) : Action → State → Prop
  | added {act : Action} {σ' : State} (hs : Added σ.session σ'.session)
      (hvisit : σ'.pc.visit = none ∧ σ.pc.visit = none) (hc : σ'.pc.completed = []) :
      Effect conf σ act σ'
  | still {act : Action} {σ' : State} (hs : Still σ.session σ'.session)
      (hdead : σ.session.ngh3Dead → σ'.session.ngh3Dead)
      (hvisit : σ'.pc.visit = none ∧ σ.pc.visit = none ∨
        σ'.pc.visit = σ.pc.visit ∧ σ'.session.ngh3Dead = σ.session.ngh3Dead)
      (hc : σ'.pc.completed ⊆ σ.pc.completed) : Effect conf σ act σ'
  | callback {cb : Callback} (hpc : ∀ sid v, σ.pc.visit = some (sid, v) → ∃ call, v = .inside call) :
      Effect conf σ (.event (.callback cb)) { σ with session := σ.session.callback conf cb }
  | begin {d : Drain} {sid : ℤ} (hpc : σ.pc = .drain d .scan)
      (hdone : σ.session.has sid (·.done) = false) (hq : (σ.session.qstream sid).isSome)
      (hclient : h3SidIsServer sid = false) :
      Effect conf σ (.event .go) { σ with pc := .drain d (.visit sid .enter) }
  | enter {d : Drain} {sid : ℤ} {rstate wstate : StreamState}
      (hpc : σ.pc = .drain d (.visit sid .enter)) :
      Effect conf σ (.event (.state rstate wstate))
        ⟨(σ.session.visitEnter sid rstate wstate).1,
          .drain d (.visit sid (σ.session.visitEnter sid rstate wstate).2), σ.tasks⟩
  | loop {a : Answer} {d d' : Drain} {sid : ℤ} {s : H3Session} {v : VisitPc}
      (hpc : σ.pc = .drain d (.visit sid .loop))
      (hv : visitLoop conf sid σ.session d a = some (s, d', v)) (hc : d'.completed = d.completed) :
      Effect conf σ (.event a) ⟨s, .drain d' (.visit sid v), σ.tasks⟩
  | returned {d : Drain} {sid : ℤ} {call : LibCall} {err : Option LibErr}
      (hpc : σ.pc = .drain d (.visit sid (.inside call))) :
      Effect conf σ (.event (.returned err))
        ⟨(σ.session.callReturned conf sid err call).1,
          .drain d (.visit sid (σ.session.callReturned conf sid err call).2), σ.tasks⟩
  | leave {d d' : Drain} {sid : ℤ} {rejected : Bool} {s : H3Session} {pc : DrainPc}
      (hpc : σ.pc = .drain d (.visit sid (.leave rejected)))
      (hs : Still (drainList σ.session d sid rejected).1 s)
      (hdead : s.ngh3Dead = σ.session.ngh3Dead) (hvisit : (EventPc.drain d' pc).visit = none)
      (hc : d'.completed = (drainList σ.session d sid rejected).2.completed) :
      Effect conf σ (.event .go) ⟨s, .drain d' pc, σ.tasks⟩

section
variable {conf : SessionConf} {σ σ' : State} {act : Action} {s s' : H3Session}

theorem visit_of_outside {pc : EventPc} (h : pc.outside) : pc.visit = none := by
  cases pc with
  | drain d pc => cases pc <;> first | rfl | cases h
  | _ => rfl

theorem visit_drain {d : Drain} {pc : DrainPc} (h : pc.isVisit = false) :
    (EventPc.drain d pc).visit = none := by
  cases pc <;> first | rfl | cases h

theorem Added.addStream {sid : ℤ} {h : Handle} (hs : Added s s') (hnew : s'.obj sid = none) :
    Added s (s'.addStream sid h) := by
  refine ⟨hs.notes, hs.pending, hs.ngh3Dead, fun x => ?_⟩
  by_cases hx : x = sid
  · subst hx
    rcases hs.obj x with he | ⟨-, g, he⟩
    · exact .inr ⟨he ▸ hnew, h, H3Session.addStream_obj_self s' x h⟩
    · rw [hnew] at he
      cases he
  · rw [H3Session.addStream_obj_ne s' h hx]
    exact hs.obj x

private theorem added_logObtained (s : H3Session) (hs : List Handle) : Added s (s.logObtained hs) :=
  ⟨notes_map (fun _ => rfl) _ _, rfl, rfl, fun _ => .inl rfl⟩

theorem added_controlStreams {opened : List (Option (ℤ × Handle))} {bound : Bool} {created : List Bool}
    (hans : s.controlAnswer opened created) : Added s (s.createControlStreams opened bound created).1 := by
  apply H3Session.createControlStreams_cases hans (P := Added s)
  · exact added_logObtained s _
  · exact fun s' x _ hnew hs => hs.addStream hnew
  · exact fun s' hs => ⟨hs.notes, hs.pending, hs.ngh3Dead, hs.obj⟩
  · exact fun s' hs => ⟨(notes_map (fun _ => rfl) _ _).trans hs.notes, hs.pending, hs.ngh3Dead, hs.obj⟩

private theorem added_acceptStream {h : Handle} {sid : ℤ} {created : Bool} (hans : s.acceptAnswer h sid) :
    Added s (s.acceptStream h sid created) := by
  have hlog : Added s ((s.log (.obtained h)).log (.op .streamId h)) := ⟨rfl, rfl, rfl, fun _ => .inl rfl⟩
  apply H3Session.acceptStream_cases created hans
  · exact ⟨rfl, rfl, rfl, fun _ => .inl rfl⟩
  · exact hlog
  · exact fun hnew _ => hlog.addStream hnew

private theorem still_openFailed {opened : List (Option (ℤ × Handle))} {bound : Bool} {created : List Bool}
    (hall : (s.createControlStreams opened bound created).2 = false) :
    Still s (s.createControlStreams opened bound created).1.destroy := by
  apply Still.trans _ (still_destroy _)
  rw [H3Session.createControlStreams_failed hall]
  refine ⟨?_, rfl, .of_obj rfl⟩
  exact (notes_map (fun _ => rfl) _ _).trans (notes_map (fun _ => rfl) _ _)

theorem destroy_ngh3Dead (s : H3Session) : s.destroy.ngh3Dead = s.ngh3Dead := by
  have hn : Aside s { s with ngh3 := false } := .of_obj rfl rfl rfl rfl rfl rfl rfl
  exact (hn.trans (aside_abandon s.streams _)).ngh3Dead

theorem callback_effect {pc : EventPc} (hpc : σ.pc = pc) (cb : Callback)
    (hvisit : ∀ sid v, pc.visit = some (sid, v) → ∃ call, v = .inside call) :
    Effect conf σ (.event (.callback cb)) ⟨σ.session.callback conf cb, pc, σ.tasks⟩ := by
  subst hpc
  exact .callback hvisit

private theorem drain_effect {a : Answer} {d d' : Drain} {pc pc' : DrainPc} (hpc : σ.pc = .drain d pc)
    (h : DrainMove conf σ.session d pc a s d' pc') :
    Effect conf σ (.event a) ⟨s, .drain d' pc', σ.tasks⟩ := by
  cases h with
  | pass hs hdead hv hc =>
    refine .still hs (fun h => hdead.trans h) (.inl ⟨visit_drain hv, ?_⟩) ?_
    · rw [hpc]
      rfl
    · rw [hpc]
      change d'.completed ⊆ d.completed
      rw [hc]
      exact List.Subset.refl _
  | begin hdone hq hclient => exact .begin hpc hdone hq hclient
  | @visit sid v v' _ _ _ hv =>
    have hc := (visitStep_completed conf hv).1
    unfold visitStep at hv
    split at hv
    · cases hv
      exact .enter hpc
    · exact .loop hpc hv hc
    · cases hv
      refine callback_effect hpc _ fun x v he => ?_
      cases he
      exact ⟨_, rfl⟩
    · cases hv
      exact .returned hpc
    · cases hv
  | leave hs hdead hv hc => exact .leave hpc hs hdead (visit_drain hv) hc

theorem step_effect (h : σ.step conf act = some σ') : Effect conf σ act σ' := by
  cases step_kind h with
  | opened hpc hans hall =>
    refine .added (added_controlStreams hans) ⟨rfl, ?_⟩ rfl
    rw [hpc]
    rfl
  | openFailed hpc hans hall =>
    refine .still (still_openFailed hall) ?_ (.inl ⟨rfl, ?_⟩) nofun
    · intro hd
      rw [destroy_ngh3Dead, (added_controlStreams hans).ngh3Dead]
      exact hd
    · rw [hpc]
      rfl
  | destroyed hpc =>
    refine .still (still_destroy _) ?_ (.inl ⟨rfl, visit_of_outside hpc⟩) nofun
    exact fun hd => (destroy_ngh3Dead _).trans hd
  | accepted hpc hans =>
    have hvisit : σ.pc.visit = none := by
      rw [hpc]
      rfl
    refine .added (added_acceptStream hans) ⟨hvisit, hvisit⟩ ?_
    rw [hpc]
    rfl
  | drain hpc hd => exact drain_effect hpc (drainStep_move hd)
  | @flush a origin pc pc' s hpc hf =>
    rcases flushStep_still hf with ⟨cb, rfl, rfl, rfl⟩ | ⟨hs, hdead⟩
    · exact callback_effect hpc cb nofun
    · refine .still hs hdead (.inl ⟨rfl, ?_⟩) ?_
      · rw [hpc]
        rfl
      · rw [hpc]
        cases origin <;> exact List.Subset.refl _
  | aside hs hpc hc =>
    refine .still hs.still (fun hd => hs.ngh3Dead.trans hd) ?_ hc
    rcases hpc with ⟨he, -⟩ | ⟨ho, ho'⟩
    · exact .inr ⟨congrArg _ he, hs.ngh3Dead⟩
    · exact .inl ⟨visit_of_outside ho', visit_of_outside ho⟩

/-- A step only adds to the notes, and that a stream is closed is noted for nghttp3 alone. -/
def AddsNotes (act : Action) (s s' : H3Session) : Prop :=
  ∃ new, s'.notes = new ++ s.notes ∧ ∀ sid, .closed sid ∈ new →
    act = .event (.callback (.streamClose sid)) ∧ s.finds (.streamClose sid)

theorem step_notes (h : σ.step conf act = some σ') : AddsNotes act σ.session σ'.session := by
  have hsame : ∀ {s' : H3Session}, s'.notes = σ.session.notes → AddsNotes act σ.session s' :=
    fun he => ⟨[], he, nofun⟩
  cases step_effect h with
  | added hs hvisit hc => exact hsame hs.notes
  | still hs hdead hvisit hc => exact hsame hs.notes
  | @callback cb hpc =>
    have hnotes := callback_notes conf σ.session cb
    split_ifs at hnotes with hf
    · refine ⟨cb.note, hnotes, fun sid hc => ?_⟩
      cases cb with
      | streamClose x =>
        cases List.mem_singleton.mp hc
        exact ⟨rfl, hf⟩
      | endHeaders x fin => cases List.mem_singleton.mp hc
      | _ => cases hc
    · exact hsame hnotes
  | begin hpc hdone hq hclient => exact hsame rfl
  | @enter d x rstate wstate hpc =>
    have hentered := entered_notes σ.session x rstate
    apply visitEnter_cases x rstate wstate (P := fun next => AddsNotes _ σ.session next.1)
    · exact fun _ _ => ⟨[.stateSeen x rstate], hentered, by simp⟩
    · exact fun _ => ⟨[.stateSeen x rstate], hentered, by simp⟩
    · intro _ _
      refine ⟨[.finFed x, .stateSeen x rstate], ?_, by simp⟩
      exact congrArg (List.cons (Event.finFed x)) hentered
  | @loop a d d' x s v hpc hv hc =>
    cases visitLoop_looped conf hv with
    | left hs hd => exact hsame hs.notes
    | gone => exact hsame rfl
    | data ho hn hd => exact hsame hn
    | ended ho hn hd => exact ⟨[.finFed x, .zeroReturn x], hn, by simp⟩
  | returned hpc => exact hsame (callReturned_notes conf _ _ _ _)
  | @leave d d' x rejected s pc hpc hs hdead hvisit hc =>
    have hlist := hs.notes
    unfold drainList at hlist
    split_ifs at hlist
    · exact ⟨[.listed x], hlist, by simp⟩
    · exact hsame hlist

theorem notes_mono (h : σ.step conf act = some σ') : σ.session.notes ⊆ σ'.session.notes := by
  obtain ⟨new, hnotes, -⟩ := step_notes h
  rw [hnotes]
  exact List.subset_append_right _ _

end

end ModHttp3.System
