import ModHttp3.Session.Change

/-! The part of a session that decides which task may use a stream, and how the event
thread's work changes it: not at all in a drain or a flush, by new streams when they are
opened or accepted, and by reclaiming closed ones. -/
namespace ModHttp3.System
open Session

structure Custody where
  dispatched : Bool
  workerDone : Bool
  pool : Bool
  deriving DecidableEq, Repr

def custody (s : H3Session) (sid : ℤ) : Option Custody :=
  (s.obj sid).map fun o => ⟨o.dispatched, o.workerDone, o.pool⟩

/-- Nothing that concerns the tasks has changed. -/
structure SameCustody (s s' : H3Session) : Prop where
  custody : custody s' = custody s
  streams : s'.streams = s.streams
  activeTasks : s'.activeTasks = s.activeTasks

theorem SameCustody.refl (s : H3Session) : SameCustody s s := ⟨rfl, rfl, rfl⟩

theorem SameCustody.trans {s s' s'' : H3Session} (h : SameCustody s s') (h' : SameCustody s' s'') :
    SameCustody s s'' :=
  ⟨h'.custody.trans h.custody, h'.streams.trans h.streams, h'.activeTasks.trans h.activeTasks⟩

theorem custody_modify_ne {s : H3Session} {sid x : ℤ} {f : H3Stream → H3Stream} (hx : x ≠ sid) :
    custody (s.modify sid f) x = custody s x := by
  unfold custody
  rw [H3Session.modify_obj_ne s f hx]

theorem custody_modify_self {s : H3Session} {sid : ℤ} {f : H3Stream → H3Stream}
    {g : Custody → Custody}
    (hf : ∀ o : H3Stream, (⟨(f o).dispatched, (f o).workerDone, (f o).pool⟩ : Custody) =
      g ⟨o.dispatched, o.workerDone, o.pool⟩) :
    custody (s.modify sid f) sid = (custody s sid).map g := by
  unfold custody
  rw [H3Session.modify_obj_self, Option.map_map, Option.map_map]
  congr 1
  funext o
  exact hf o

theorem sameCustody_modify (s : H3Session) (sid : ℤ) {f : H3Stream → H3Stream}
    (hf : ∀ o : H3Stream, (⟨(f o).dispatched, (f o).workerDone, (f o).pool⟩ : Custody) =
      ⟨o.dispatched, o.workerDone, o.pool⟩) : SameCustody s (s.modify sid f) := by
  refine ⟨?_, rfl, rfl⟩
  funext x
  by_cases hx : x = sid
  · subst hx
    rw [custody_modify_self (g := id) hf, Option.map_id_fun, id]
  · exact custody_modify_ne hx

theorem sameCustody_kept (s : H3Session) (sid : ℤ) {f : H3Stream → H3Stream}
    (hk : ∀ o, Kept o (f o)) : SameCustody s (s.modify sid f) := by
  apply sameCustody_modify
  intro o
  rw [(hk o).dispatched, (hk o).workerDone, (hk o).pool]

private theorem sameCustody_logOp (s : H3Session) (o : HandleOp) (h : Option Handle) :
    SameCustody s (s.logOp o h) := by
  cases h <;> exact ⟨rfl, rfl, rfl⟩

private theorem sameCustody_release (s : H3Session) (sid : ℤ) {f : H3Stream → H3Stream}
    (hk : ∀ o, Kept o (f o)) : SameCustody s (s.release sid f) := by
  have hq : SameCustody s (s.queueFree (s.qstream sid)) := by
    cases s.qstream sid <;> exact ⟨rfl, rfl, rfl⟩
  exact hq.trans (sameCustody_kept _ sid hk)

private theorem change_sameCustody {V R : ℤ → Prop} {s s' : H3Session} (h : Change V R s s') :
    SameCustody s s' := by
  cases h with
  | op o sid => exact sameCustody_logOp s o _
  | note e he => exact ⟨rfl, rfl, rfl⟩
  | mark sid f hk hq hu => exact sameCustody_kept s sid hk
  | attach sid hf => exact sameCustody_modify s sid fun _ => rfl
  | release sid f hr hf hk hq hd hu => exact sameCustody_release s sid hk
  | free => exact ⟨rfl, rfl, rfl⟩
  | other _ hs hp => exact ⟨by unfold custody; rw [hs.obj], hs.streams, hs.activeTasks⟩

theorem changes_sameCustody {V R : ℤ → Prop} {s s' : H3Session} (h : Changes V R s s') :
    SameCustody s s' :=
  h.preserve (P := SameCustody s) (fun _ _ hc hs => hs.trans (change_sameCustody hc)) (.refl s)

theorem foldl_responseCancel_sameCustody (sids : List ℤ) (s : H3Session) :
    SameCustody s (sids.foldl (fun s sid => s.modify sid H3Stream.responseCancel) s) := by
  induction sids generalizing s with
  | nil => exact .refl s
  | cons sid rest ih =>
    have hm : SameCustody s (s.modify sid H3Stream.responseCancel) :=
      sameCustody_modify s sid fun _ => rfl
    exact hm.trans (ih _)

theorem destroy_sameCustody (s : H3Session) : SameCustody s s.destroy := by
  have hn : SameCustody s { s with ngh3 := false } := ⟨rfl, rfl, rfl⟩
  have hc := foldl_responseCancel_sameCustody s.streams { s with ngh3 := false }
  exact (hn.trans hc).trans ⟨rfl, rfl, rfl⟩

/-- The only changes are that some streams with a finished worker were removed. -/
structure Reclaims (s s' : H3Session) : Prop where
  custody : ∀ x, System.custody s' x = System.custody s x ∨
    (∃ p, System.custody s x = some ⟨true, true, p⟩) ∧
      System.custody s' x = some ⟨true, true, false⟩
  sub : s'.streams ⊆ s.streams
  removed : ∀ x ∈ s.streams, x ∉ s'.streams → System.custody s' x = some ⟨true, true, false⟩
  activeTasks : s'.activeTasks = s.activeTasks

theorem SameCustody.reclaims {s s' : H3Session} (h : SameCustody s s') : Reclaims s s' := by
  constructor
  · exact fun x => .inl (congrFun h.custody x)
  · rw [h.streams]
    exact List.Subset.refl _
  · intro x hx hx'
    rw [h.streams] at hx'
    exact absurd hx hx'
  · exact h.activeTasks

theorem Reclaims.trans {s s' s'' : H3Session} (h : Reclaims s s') (h' : Reclaims s' s'') :
    Reclaims s s'' := by
  constructor
  · intro x
    rcases h'.custody x with h2 | ⟨⟨p, h2⟩, h3⟩
    · rw [h2]
      exact h.custody x
    · refine .inr ⟨?_, h3⟩
      rcases h.custody x with h1 | ⟨h1, -⟩
      · exact ⟨p, h1 ▸ h2⟩
      · exact h1
  · exact List.Subset.trans h'.sub h.sub
  · intro x hx hx''
    by_cases hx' : x ∈ s'.streams
    · exact h'.removed x hx' hx''
    · have h1 := h.removed x hx hx'
      rcases h'.custody x with h2 | ⟨-, h3⟩
      · rw [h2, h1]
      · exact h3
  · exact h'.activeTasks.trans h.activeTasks

private theorem reclaimStream_reclaims (s : H3Session) (sid : ℤ) : Reclaims s (s.reclaimStream sid) := by
  unfold H3Session.reclaimStream
  split
  · rename_i hr
    obtain ⟨o, ho, hr⟩ := H3Session.has_iff.mp hr
    simp only [H3Stream.reclaimable, Bool.and_eq_true] at hr
    have hold : custody s sid = some ⟨true, true, o.pool⟩ := by
      simp [custody, ho, hr.1.2, hr.2]
    have hnew : custody (s.modify sid fun o => { o with writeBlocked := false, pool := false }) sid =
        some ⟨true, true, false⟩ := by
      rw [custody_modify_self (g := fun c => { c with pool := false }) fun _ => rfl, hold]
      rfl
    constructor
    · intro x
      by_cases hx : x = sid
      · subst hx
        exact .inr ⟨⟨o.pool, hold⟩, hnew⟩
      · exact .inl (custody_modify_ne hx)
    · exact List.filter_sublist.subset
    · intro x hx hx'
      have he : x = sid := by
        by_contra hne
        exact hx' (List.mem_filter.mpr ⟨hx, by simpa using hne⟩)
      subst he
      exact hnew
    · rfl
  · exact (SameCustody.refl s).reclaims

theorem reclaim_reclaims (snapshot : List ℤ) (s : H3Session) : Reclaims s (s.reclaim snapshot) := by
  induction snapshot generalizing s with
  | nil => exact (SameCustody.refl s).reclaims
  | cons sid rest ih => exact (reclaimStream_reclaims s sid).trans (ih _)

/-- The only changes are new streams, which are in the table and not dispatched. -/
structure Adds (s s' : H3Session) : Prop where
  custody : ∀ x, System.custody s' x = System.custody s x ∨
    System.custody s x = none ∧ System.custody s' x = some ⟨false, false, true⟩ ∧ x ∈ s'.streams
  sub : s.streams ⊆ s'.streams
  activeTasks : s'.activeTasks = s.activeTasks

theorem SameCustody.adds {s s' : H3Session} (h : SameCustody s s') : Adds s s' := by
  constructor
  · exact fun x => .inl (congrFun h.custody x)
  · rw [h.streams]
    exact List.Subset.refl _
  · exact h.activeTasks

theorem Adds.trans {s s' s'' : H3Session} (h : Adds s s') (h' : Adds s' s'') : Adds s s'' := by
  constructor
  · intro x
    rcases h'.custody x with h2 | ⟨h2, h3⟩
    · rcases h.custody x with h1 | ⟨h1, h1', hx⟩
      · exact .inl (h2.trans h1)
      · exact .inr ⟨h1, h2.trans h1', h'.sub hx⟩
    · rcases h.custody x with h1 | ⟨h1, h1', hx⟩
      · exact .inr ⟨h1 ▸ h2, h3⟩
      · exact .inr ⟨h1, h3⟩
  · exact List.Subset.trans h.sub h'.sub
  · exact h'.activeTasks.trans h.activeTasks

theorem addStream_adds {s : H3Session} {sid : ℤ} (h : Handle) (hnew : s.obj sid = none) :
    Adds s (s.addStream sid h) := by
  constructor
  · intro x
    by_cases hx : x = sid
    · subst hx
      refine .inr ⟨?_, ?_, ?_⟩
      · simp [System.custody, hnew]
      · simp [System.custody, H3Session.addStream, H3Stream.new]
      · simp [H3Session.addStream]
    · exact .inl (by simp [System.custody, H3Session.addStream, Function.update_of_ne hx])
  · exact List.subset_append_left _ _
  · rfl

theorem acceptStream_adds {s : H3Session} {h : Handle} {sid : ℤ} {created : Bool}
    (hans : s.acceptAnswer h sid) : Adds s (s.acceptStream h sid created) := by
  have hs : Adds s ((s.log (.obtained h)).log (.op .streamId h)) :=
    SameCustody.adds ⟨rfl, rfl, rfl⟩
  apply H3Session.acceptStream_cases created hans
  · exact hs.trans (SameCustody.adds ⟨rfl, rfl, rfl⟩)
  · exact hs
  · exact fun hnew _ => hs.trans (addStream_adds h hnew)

theorem createControlStreams_adds {s : H3Session} {opened : List (Option (ℤ × Handle))} {bound : Bool}
    {created : List Bool} (hans : s.controlAnswer opened created) :
    Adds s (s.createControlStreams opened bound created).1 := by
  apply H3Session.createControlStreams_cases hans
  · exact SameCustody.adds ⟨rfl, rfl, rfl⟩
  · exact fun s' x _ hnew hs => hs.trans (addStream_adds x.2 hnew)
  · exact fun s' hs => hs.trans (SameCustody.adds ⟨rfl, rfl, rfl⟩)
  · exact fun s' hs => hs.trans (SameCustody.adds ⟨rfl, rfl, rfl⟩)

end ModHttp3.System
