import ModHttp3.Session.Progress

/-! Facts about every stream object of a session, and the operations that go through all of
them. -/
namespace ModHttp3.Session
namespace H3Session

/-- `P` holds of every stream object. -/
def Each (s : H3Session) (P : ℤ → H3Stream → Prop) : Prop := ∀ sid o, s.obj sid = some o → P sid o

section
variable {s s' : H3Session} {P : ℤ → H3Stream → Prop} {f : H3Stream → H3Stream}

theorem Each.of_obj (h : s.Each P) (ho : s'.obj = s.obj) : s'.Each P := by
  intro sid o hs
  rw [ho] at hs
  exact h sid o hs

theorem Each.modify (h : s.Each P) {sid : ℤ} (hf : ∀ o, s.obj sid = some o → P sid o → P sid (f o)) :
    (s.modify sid f).Each P :=
  modify_forall h (fun _ _ _ ho => ho) hf

theorem Each.release (h : s.Each P) {sid : ℤ}
    (hf : ∀ o, s.obj sid = some o → P sid o → P sid (f o)) : (s.release sid f).Each P :=
  (h.modify hf).of_obj (release_obj s sid f)

theorem Each.modifyAll (sids : List ℤ) (h : s.Each P) (hf : ∀ sid o, P sid o → P sid (f o)) :
    (sids.foldl (fun s sid => s.modify sid f) s).Each P := by
  induction sids generalizing s with
  | nil => exact h
  | cons sid rest ih => exact ih (h.modify fun o _ => hf sid o)

theorem Each.destroy (h : s.Each P) (hf : ∀ sid o, P sid o → P sid o.responseCancel) :
    s.destroy.Each P := by
  have hn : ({ s with ngh3 := false } : H3Session).Each P := h
  exact hn.modifyAll s.streams hf

theorem Each.reclaim (snapshot : List ℤ) (h : s.Each P)
    (hf : ∀ sid o, P sid o → P sid { o with writeBlocked := false, pool := false }) :
    (s.reclaim snapshot).Each P := by
  unfold H3Session.reclaim
  induction snapshot generalizing s with
  | nil => exact h
  | cons sid rest ih =>
    apply ih
    unfold reclaimStream
    split
    · exact h.modify fun o _ => hf sid o
    · exact h

theorem Each.addStream (h : s.Each P) {sid : ℤ} {g : Handle} (hnew : P sid (.new sid g)) :
    (s.addStream sid g).Each P := by
  intro x o ho
  by_cases hx : x = sid
  · subst hx
    rw [addStream_obj_self] at ho
    cases ho
    exact hnew
  · rw [addStream_obj_ne s g hx] at ho
    exact h x o ho

theorem Each.accept (h : s.Each P) {sid : ℤ} {g : Handle} {created : Bool}
    (hans : s.acceptAnswer g sid) (hnew : ∀ sid g, P sid (.new sid g)) :
    (s.acceptStream g sid created).Each P :=
  acceptStream_cases created hans (P := fun s => s.Each P) h h fun _ _ =>
    Each.addStream (s := (s.log (.obtained g)).log (.op .streamId g)) h (hnew sid g)

theorem Each.controlStreams (h : s.Each P) {opened : List (Option (ℤ × Handle))} {bound : Bool}
    {created : List Bool} (hans : s.controlAnswer opened created)
    (hnew : ∀ sid g, P sid (.new sid g)) : (s.createControlStreams opened bound created).1.Each P :=
  createControlStreams_cases hans (P := fun s => s.Each P) h
    (fun _ x _ _ hs => hs.addStream (hnew x.1 x.2)) (fun _ hs => hs) (fun _ hs => hs)

end

/-- Reclaiming changes nothing that the test for it looks at. -/
theorem reclaim_reclaimable (snapshot : List ℤ) (s : H3Session) (x : ℤ) :
    (s.reclaim snapshot).has x (·.reclaimable) = s.has x (·.reclaimable) := by
  unfold H3Session.reclaim
  induction snapshot generalizing s with
  | nil => rfl
  | cons sid rest ih =>
    rw [List.foldl_cons, ih]
    unfold reclaimStream
    split
    · unfold has
      by_cases hx : x = sid
      · subst hx
        dsimp only
        rw [modify_obj_self, Option.any_map]
        rfl
      · dsimp only
        rw [modify_obj_ne s _ hx]
    · rfl

theorem reclaim_streams_subset (snapshot : List ℤ) (s : H3Session) :
    (s.reclaim snapshot).streams ⊆ s.streams := by
  unfold H3Session.reclaim
  induction snapshot generalizing s with
  | nil => exact List.Subset.refl _
  | cons sid rest ih =>
    apply List.Subset.trans (ih _)
    unfold reclaimStream
    split
    · exact List.filter_sublist.subset
    · exact List.Subset.refl _

/-- No stream that could be reclaimed is left of those the loop went through. -/
theorem reclaim_complete {snapshot : List ℤ} {s : H3Session} {x : ℤ} (hx : x ∈ snapshot)
    (hin : x ∈ (s.reclaim snapshot).streams) : (s.reclaim snapshot).has x (·.reclaimable) = false := by
  rw [reclaim_reclaimable]
  induction snapshot generalizing s with
  | nil => cases hx
  | cons sid rest ih =>
    have hkeep : (s.reclaimStream sid).has x (·.reclaimable) = s.has x (·.reclaimable) :=
      reclaim_reclaimable [sid] s x
    rcases List.mem_cons.mp hx with rfl | hx
    · have hleft : x ∈ (s.reclaimStream x).streams := reclaim_streams_subset rest _ hin
      unfold reclaimStream at hleft
      split at hleft
      · have hne := (List.mem_filter.mp hleft).2
        simp at hne
      · rename_i hno
        exact Bool.not_eq_true _ ▸ hno
    · rw [← hkeep]
      exact ih hx hin

end H3Session

end ModHttp3.Session
