import ModHttp3.Lib.Ledger
import ModHttp3.Session.Change

/-! QUIC stream handles: a handle is held by one stream object, queued for freeing or freed,
and every call on it is one that its place allows. -/
namespace ModHttp3.Session
open Lib

def Event.use : Event → Option (Use Handle)
  | .obtained h => some (.gain h)
  | .op _ h => some (.access h)
  | .queuedFree h => some (.queue h)
  | .freed h => some (.free h)
  | _ => none

def H3Session.uses (s : H3Session) : List (Use Handle) := s.trace.filterMap Event.use

structure HandleOk (s : H3Session) : Prop where
  legal : Legal s.uses
  held : ∀ sid h, s.qstream sid = some h → place s.uses h = .held
  inj : ∀ sid sid' h, s.qstream sid = some h → s.qstream sid' = some h → sid = sid'
  queued : ∀ h ∈ s.pendingFree, place s.uses h = .queued
  nodup : s.pendingFree.Nodup

/-- Nothing that concerns the handles has changed. -/
structure SameHandles (s s' : H3Session) : Prop where
  qstream : s'.qstream = s.qstream
  pendingFree : s'.pendingFree = s.pendingFree
  uses : s'.uses = s.uses

section
variable {s s' : H3Session}

theorem SameHandles.refl (s : H3Session) : SameHandles s s := ⟨rfl, rfl, rfl⟩

theorem SameHandles.trans {s'' : H3Session} (h : SameHandles s s') (h' : SameHandles s' s'') :
    SameHandles s s'' :=
  ⟨h'.qstream.trans h.qstream, h'.pendingFree.trans h.pendingFree, h'.uses.trans h.uses⟩

theorem HandleOk.same (hH : HandleOk s) (h : SameHandles s s') : HandleOk s' := by
  obtain ⟨hq, hp, hu⟩ := h
  constructor
  · rw [hu]
    exact hH.legal
  · rw [hq, hu]
    exact hH.held
  · rw [hq]
    exact hH.inj
  · rw [hp, hu]
    exact hH.queued
  · rw [hp]
    exact hH.nodup

private theorem qstream_modify_ne (s : H3Session) {sid x : ℤ} (f : H3Stream → H3Stream) (hx : x ≠ sid) :
    (s.modify sid f).qstream x = s.qstream x := by
  unfold H3Session.qstream
  rw [H3Session.modify_obj_ne s f hx]

theorem sameHandles_modify (s : H3Session) (sid : ℤ) {f : H3Stream → H3Stream}
    (hq : ∀ o, (f o).qstream = o.qstream) : SameHandles s (s.modify sid f) := by
  refine ⟨?_, rfl, rfl⟩
  funext x
  by_cases hx : x = sid
  · subst hx
    unfold H3Session.qstream
    rw [H3Session.modify_obj_self]
    cases s.obj x with
    | none => rfl
    | some o => exact hq o
  · exact qstream_modify_ne s f hx

theorem sameHandles_log (s : H3Session) {e : Event} (he : e.onHandle = false) :
    SameHandles s (s.log e) := by
  refine ⟨rfl, rfl, ?_⟩
  cases e <;> first | rfl | cases he

theorem HandleOk.access (hH : HandleOk s) (o : HandleOp) {h : Handle}
    (hheld : place s.uses h = .held) : HandleOk (s.log (.op o h)) := by
  have hu : (s.log (.op o h)).uses = .access h :: s.uses := rfl
  constructor
  · rw [hu]
    exact ⟨hheld, hH.legal⟩
  · intro x y hy
    rw [hu, place_access]
    exact hH.held x y hy
  · exact hH.inj
  · intro y hy
    rw [hu, place_access]
    exact hH.queued y hy
  · exact hH.nodup

theorem HandleOk.op (hH : HandleOk s) (o : HandleOp) (sid : ℤ) :
    HandleOk (s.logOp o (s.qstream sid)) := by
  cases hq : s.qstream sid with
  | none => exact hH
  | some h => exact hH.access o (hH.held sid h hq)

theorem qstream_release (s : H3Session) (sid : ℤ) {f : H3Stream → H3Stream}
    (hf : ∀ o, (f o).qstream = none) {x : ℤ} {h : Handle} (hx : (s.release sid f).qstream x = some h) :
    x ≠ sid ∧ s.qstream x = some h := by
  unfold H3Session.release H3Session.qstream at hx
  by_cases he : x = sid
  · subst he
    rw [H3Session.modify_obj_self, H3Session.queueFree_obj] at hx
    cases ho : s.obj x with
    | none => simp [ho] at hx
    | some o => simp [ho, hf o] at hx
  · rw [H3Session.modify_obj_ne _ f he, H3Session.queueFree_obj] at hx
    exact ⟨he, hx⟩

theorem uses_release (s : H3Session) (sid : ℤ) (f : H3Stream → H3Stream) :
    (s.release sid f).uses = (s.qstream sid).elim s.uses fun g => .queue g :: s.uses := by
  unfold H3Session.release
  cases s.qstream sid <;> rfl

private theorem pendingFree_release (s : H3Session) (sid : ℤ) (f : H3Stream → H3Stream) :
    (s.release sid f).pendingFree = (s.qstream sid).elim s.pendingFree fun g => g :: s.pendingFree := by
  unfold H3Session.release
  cases s.qstream sid <;> rfl

theorem HandleOk.release (hH : HandleOk s) (sid : ℤ) {f : H3Stream → H3Stream}
    (hf : ∀ o, (f o).qstream = none) : HandleOk (s.release sid f) := by
  have hsub := fun x h => qstream_release s sid hf (x := x) (h := h)
  have hinj : ∀ x y h, (s.release sid f).qstream x = some h → (s.release sid f).qstream y = some h →
      x = y := fun x y h hx hy => hH.inj x y h (hsub x h hx).2 (hsub y h hy).2
  have hu := uses_release s sid f
  have hp := pendingFree_release s sid f
  cases hq : s.qstream sid with
  | none =>
    rw [hq] at hu hp
    simp only [Option.elim_none] at hu hp
    constructor
    · exact hu ▸ hH.legal
    · exact fun x h hx => hu ▸ hH.held x h (hsub x h hx).2
    · exact hinj
    · exact fun h hh => hu ▸ hH.queued h (hp ▸ hh)
    · exact hp ▸ hH.nodup
  | some g =>
    rw [hq] at hu hp
    simp only [Option.elim_some] at hu hp
    have hheld := hH.held sid g hq
    have hnotin : g ∉ s.pendingFree := fun hin => by cases hheld.symm.trans (hH.queued g hin)
    have hplace : ∀ h, h ≠ g → place (s.release sid f).uses h = place s.uses h := by
      intro h hne
      rw [hu]
      exact place_cons_ne (u := .queue g) (Ne.symm hne)
    constructor
    · rw [hu]
      exact ⟨hheld, hH.legal⟩
    · intro x h hx
      obtain ⟨hne, hx⟩ := hsub x h hx
      rw [hplace h fun he => hne (hH.inj x sid g (he ▸ hx) hq)]
      exact hH.held x h hx
    · exact hinj
    · intro h hh
      rw [hp] at hh
      rcases List.mem_cons.mp hh with rfl | hh
      · rw [hu, place_queue]
      · rw [hplace h fun he => hnotin (he ▸ hh)]
        exact hH.queued h hh
    · rw [hp]
      exact List.nodup_cons.mpr ⟨hnotin, hH.nodup⟩

theorem filterMap_use_map {g : Handle → Event} {f : Handle → Use Handle}
    (hg : ∀ h, (g h).use = some (f h)) (hs : List Handle) (l : List Event) :
    ((hs.map g).reverse ++ l).filterMap Event.use = (hs.map f).reverse ++ l.filterMap Event.use := by
  have hgf : Event.use ∘ g = some ∘ f := funext hg
  rw [List.filterMap_append, List.filterMap_reverse, List.filterMap_map, hgf, List.filterMap_eq_map]

theorem uses_freePending (s : H3Session) :
    s.freePending.uses = (s.pendingFree.map Use.free).reverse ++ s.uses :=
  filterMap_use_map (fun _ => rfl) _ _

theorem HandleOk.free (hH : HandleOk s) : HandleOk s.freePending := by
  obtain ⟨hlegal, hplace⟩ := hH.legal.forEach (f := Use.free) (q := .freed) (fun _ => rfl)
    (fun _ _ => rfl) hH.nodup fun h hh => .inr (hH.queued h hh)
  rw [← uses_freePending] at hlegal hplace
  constructor
  · exact hlegal
  · intro sid h hq
    have hheld := hH.held sid h hq
    have hnotin : h ∉ s.pendingFree := fun hin => by cases hheld.symm.trans (hH.queued h hin)
    rw [hplace h, if_neg hnotin, hheld]
  · exact hH.inj
  · nofun
  · exact List.nodup_nil

theorem SameStreams.sameHandles (h : SameStreams s s') : SameHandles s s' := by
  constructor
  · unfold H3Session.qstream
    rw [h.obj]
  · exact h.pendingFree
  · unfold H3Session.uses
    rw [h.trace]

theorem HandleOk.change {V R : ℤ → Prop} (h : Change V R s s') (hH : HandleOk s) : HandleOk s' := by
  cases h with
  | op o sid => exact hH.op o sid
  | note e he => exact hH.same (sameHandles_log s he)
  | mark sid f hk hq hu => exact hH.same (sameHandles_modify s sid hq)
  | attach sid hf => exact hH.same (sameHandles_modify s sid fun _ => rfl)
  | release sid f hr hf hk hq hd hu => exact hH.release sid hq
  | free => exact hH.free
  | other _ hs hp => exact hH.same hs.sameHandles

theorem HandleOk.changes {V R : ℤ → Prop} (h : Changes V R s s') (hH : HandleOk s) : HandleOk s' :=
  h.preserve (fun _ _ => HandleOk.change) hH

theorem reclaim_sameHandles (snapshot : List ℤ) (s : H3Session) : SameHandles s (s.reclaim snapshot) := by
  induction snapshot generalizing s with
  | nil => exact .refl s
  | cons sid rest ih =>
    have hstep : SameHandles s (s.reclaimStream sid) := by
      unfold H3Session.reclaimStream
      split
      · have hm := sameHandles_modify s sid (f := fun o => { o with writeBlocked := false, pool := false })
          fun _ => rfl
        exact hm.trans ⟨rfl, rfl, rfl⟩
      · exact .refl s
    exact hstep.trans (ih _)

theorem responseCancel_sameHandles (sids : List ℤ) (s : H3Session) :
    SameHandles s (sids.foldl (fun s sid => s.modify sid H3Stream.responseCancel) s) := by
  induction sids generalizing s with
  | nil => exact .refl s
  | cons sid rest ih =>
    have hm : SameHandles s (s.modify sid H3Stream.responseCancel) :=
      sameHandles_modify s sid fun _ => rfl
    exact hm.trans (ih _)

theorem destroy_uses (s : H3Session) :
    s.destroy.uses = (s.pendingFree.map Use.free).reverse ++ s.uses := by
  have hn : SameHandles s { s with ngh3 := false } := ⟨rfl, rfl, rfl⟩
  have hs := hn.trans (responseCancel_sameHandles s.streams { s with ngh3 := false })
  unfold H3Session.destroy
  rw [uses_freePending, hs.pendingFree, hs.uses]

theorem HandleOk.destroy (hH : HandleOk s) : HandleOk s.destroy := by
  have hn : SameHandles s { s with ngh3 := false } := ⟨rfl, rfl, rfl⟩
  exact (hH.same (hn.trans (responseCancel_sameHandles s.streams { s with ngh3 := false }))).free

/-- No stream has the handle, and it is not queued. -/
def Loose (s : H3Session) (h : Handle) : Prop := (∀ sid, s.qstream sid ≠ some h) ∧ h ∉ s.pendingFree

theorem HandleOk.loose_of_fresh (hH : HandleOk s) {h : Handle} (hf : place s.uses h = .fresh) :
    Loose s h := by
  constructor
  · intro sid hq
    cases hf.symm.trans (hH.held sid h hq)
  · intro hin
    cases hf.symm.trans (hH.queued h hin)

/-- The same event for each of some handles that no stream has. -/
theorem HandleOk.loose (s' : H3Session) {f : Handle → Use Handle} {q : Place} {hs : List Handle}
    (hH : HandleOk s)
    (hf : ∀ h, (f h).resource = h) (hafter : ∀ h p, (f h).after p = q) (hnodup : hs.Nodup)
    (hall : ∀ h ∈ hs, (f h).allowed (place s.uses h)) (hloose : ∀ h ∈ hs, Loose s h)
    (hq : s'.qstream = s.qstream) (hp : s'.pendingFree = s.pendingFree)
    (hu : s'.uses = (hs.map f).reverse ++ s.uses) :
    HandleOk s' ∧ (∀ h ∈ hs, place s'.uses h = q ∧ Loose s' h) ∧
      ∀ h ∉ hs, place s'.uses h = place s.uses h := by
  obtain ⟨hlegal, hplace⟩ := hH.legal.forEach hf hafter hnodup hall
  rw [← hu] at hlegal hplace
  refine ⟨⟨hlegal, ?_, ?_, ?_, ?_⟩, ?_, ?_⟩
  · intro sid h hh
    rw [hq] at hh
    rw [hplace h, if_neg fun hin => (hloose h hin).1 sid hh]
    exact hH.held sid h hh
  · rw [hq]
    exact hH.inj
  · intro h hh
    rw [hp] at hh
    rw [hplace h, if_neg fun hin => (hloose h hin).2 hh]
    exact hH.queued h hh
  · rw [hp]
    exact hH.nodup
  · intro h hh
    refine ⟨by rw [hplace h, if_pos hh], ?_⟩
    unfold Loose
    rw [hq, hp]
    exact hloose h hh
  · intro h hh
    rw [hplace h, if_neg hh]

theorem HandleOk.loose_one {f : Handle → Use Handle} {q : Place} {h : Handle} (hH : HandleOk s)
    (hf : ∀ h, (f h).resource = h) (hafter : ∀ h p, (f h).after p = q)
    (hall : (f h).allowed (place s.uses h)) (hloose : Loose s h) (hq : s'.qstream = s.qstream)
    (hp : s'.pendingFree = s.pendingFree) (hu : s'.uses = f h :: s.uses) :
    HandleOk s' ∧ place s'.uses h = q ∧ Loose s' h := by
  have heq : ∀ g ∈ [h], g = h := fun g hg => List.mem_singleton.mp hg
  obtain ⟨hH', hplace, -⟩ := hH.loose s' hf hafter (List.nodup_singleton h)
    (fun g hg => heq g hg ▸ hall) (fun g hg => heq g hg ▸ hloose) hq hp hu
  exact ⟨hH', hplace h List.mem_cons_self⟩

theorem qstream_addStream (s : H3Session) (sid : ℤ) (h : Handle) {x : ℤ} {g : Handle}
    (hx : (s.addStream sid h).qstream x = some g) :
    x = sid ∧ g = h ∨ x ≠ sid ∧ s.qstream x = some g := by
  unfold H3Session.qstream at hx
  by_cases he : x = sid
  · subst he
    rw [H3Session.addStream_obj_self] at hx
    exact .inl ⟨rfl, (Option.some.inj hx).symm⟩
  · rw [H3Session.addStream_obj_ne s h he] at hx
    exact .inr ⟨he, hx⟩

theorem HandleOk.addStream {sid : ℤ} {h : Handle} (hH : HandleOk s)
    (hheld : place s.uses h = .held) (hloose : Loose s h) : HandleOk (s.addStream sid h) := by
  constructor
  · exact hH.legal
  · intro x g hg
    rcases qstream_addStream s sid h hg with ⟨-, rfl⟩ | ⟨-, hg⟩
    · exact hheld
    · exact hH.held x g hg
  · intro x y g hx hy
    rcases qstream_addStream s sid h hx with ⟨rfl, rfl⟩ | ⟨-, hx'⟩
    · rcases qstream_addStream s _ _ hy with ⟨rfl, -⟩ | ⟨-, hy'⟩
      · rfl
      · exact absurd hy' (hloose.1 y)
    · rcases qstream_addStream s sid h hy with ⟨rfl, rfl⟩ | ⟨-, hy'⟩
      · exact absurd hx' (hloose.1 x)
      · exact hH.inj x y g hx' hy'
  · exact hH.queued
  · exact hH.nodup

theorem mem_trace_of_gain {h : Handle} (hg : Use.gain h ∈ s.uses) : .obtained h ∈ s.trace := by
  obtain ⟨e, he, hu⟩ := List.mem_filterMap.mp hg
  cases e <;> cases hu
  exact he

theorem HandleOk.fresh (hH : HandleOk s) {h : Handle} (hnew : s.trace.contains (.obtained h) = false) :
    place s.uses h = .fresh := by
  apply place_eq_fresh _ hH.legal
  intro hg
  rw [List.contains_iff_mem.mpr (mem_trace_of_gain hg)] at hnew
  cases hnew

theorem HandleOk.accept (hH : HandleOk s) {h : Handle} {sid : ℤ} {created : Bool}
    (hans : s.acceptAnswer h sid) : HandleOk (s.acceptStream h sid created) := by
  have hfresh := hH.fresh (H3Session.acceptAnswer_fresh hans)
  -- the new handle is held by the loop itself until it is tracked or freed
  obtain ⟨hH₁, hheld, hloose⟩ : HandleOk (s.log (.obtained h)) ∧ _ :=
    hH.loose_one (f := Use.gain) (fun _ => rfl) (fun _ _ => rfl) hfresh (hH.loose_of_fresh hfresh)
      rfl rfl rfl
  have hH₂ := hH₁.access .streamId hheld
  have hheld₂ : place ((s.log (.obtained h)).log (.op .streamId h)).uses h = .held :=
    place_access.trans hheld
  obtain ⟨hfreed, -⟩ :
      HandleOk (((s.log (.obtained h)).log (.op .streamId h)).log (.freed h)) ∧ _ :=
    hH₂.loose_one (f := Use.free) (fun _ => rfl) (fun _ _ => rfl) (.inl hheld₂) hloose rfl rfl rfl
  apply H3Session.acceptStream_cases created hans
  · exact hfreed
  · exact hH₂
  · exact fun _ _ => hH₂.addStream hheld₂ hloose

section
variable {opened : List (Option (ℤ × Handle))} {bound : Bool} {created : List Bool}

/-- All handles that OpenSSL gave for the control streams are held, and none is tracked yet. -/
theorem HandleOk.obtained (hH : HandleOk s) (hans : s.controlAnswer opened created) :
    HandleOk (s.logObtained ((opened.filterMap id).map Prod.snd)) ∧
      ∀ h ∈ (opened.filterMap id).map Prod.snd,
        place (s.logObtained ((opened.filterMap id).map Prod.snd)).uses h = .held ∧
          Loose (s.logObtained ((opened.filterMap id).map Prod.snd)) h := by
  obtain ⟨-, hnodup, -, hall⟩ := H3Session.controlAnswer_spec hans
  have hfresh : ∀ h ∈ (opened.filterMap id).map Prod.snd, place s.uses h = .fresh := by
    intro h hh
    obtain ⟨x, hx, rfl⟩ := List.mem_map.mp hh
    exact hH.fresh (hall x hx).2.2
  obtain ⟨h1, h2, -⟩ := hH.loose (s.logObtained _) (f := Use.gain) (fun _ => rfl) (fun _ _ => rfl)
    hnodup hfresh (fun h hh => hH.loose_of_fresh (hfresh h hh)) rfl rfl
    (filterMap_use_map (fun _ => rfl) _ _)
  exact ⟨h1, h2⟩

/-- When the control streams cannot be opened and bound, all their handles are freed. -/
theorem HandleOk.controlFailed (hH : HandleOk s) (hans : s.controlAnswer opened created)
    (hall : (s.createControlStreams opened bound created).2 = false) :
    HandleOk (s.createControlStreams opened bound created).1 ∧
      ∀ h ∈ (opened.filterMap id).map Prod.snd,
        place (s.createControlStreams opened bound created).1.uses h = .freed := by
  obtain ⟨-, hnodup, -, -⟩ := H3Session.controlAnswer_spec hans
  obtain ⟨hH', hheld⟩ := hH.obtained hans
  rw [H3Session.createControlStreams_failed hall]
  generalize (opened.filterMap id).map Prod.snd = hs at hnodup hheld hH' ⊢
  obtain ⟨h1, h2, -⟩ := hH'.loose ((s.logObtained hs).freeOpened hs) (f := Use.free) (q := .freed)
    (fun _ => rfl) (fun _ _ => rfl) hnodup (fun h hh => .inl (hheld h hh).1)
    (fun h hh => (hheld h hh).2) rfl rfl (filterMap_use_map (fun _ => rfl) _ _)
  exact ⟨h1, fun h hh => (h2 h hh).1⟩

/-- When they can, the handles stay held, whether their streams are tracked or not. -/
theorem HandleOk.controlOpened (hH : HandleOk s) (hans : s.controlAnswer opened created)
    (hall : (s.createControlStreams opened bound created).2 = true) :
    HandleOk (s.createControlStreams opened bound created).1 ∧
      ∀ h ∈ (opened.filterMap id).map Prod.snd,
        place (s.createControlStreams opened bound created).1.uses h = .held := by
  obtain ⟨hlen, hnodup, hids, hspec⟩ := H3Session.controlAnswer_spec hans
  obtain ⟨hH', hheld⟩ := hH.obtained hans
  rw [(H3Session.createControlStreams_opened hall).2]
  have hzip := List.map_fst_zip hlen
  have hfst := congrArg (List.map Prod.fst) hzip
  have hsnd := congrArg (List.map Prod.snd) hzip
  rw [List.map_map] at hfst hsnd
  have hmem : ∀ x ∈ (opened.filterMap id).zip created, x.1.2 ∈ (opened.filterMap id).map Prod.snd :=
    fun x hx => List.mem_map.mpr ⟨x.1, (List.of_mem_zip hx).1, rfl⟩
  -- the streams not tracked yet keep their handles loose
  obtain ⟨h1, h2, -⟩ := H3Session.trackAll_induct (P := fun s' => HandleOk s' ∧
      s'.uses = (s.logObtained ((opened.filterMap id).map Prod.snd)).uses ∧
      ∀ y ∈ (opened.filterMap id).zip created, s'.obj y.1.1 = none → Loose s' y.1.2)
    ((opened.filterMap id).zip created)
    (s := s.logObtained ((opened.filterMap id).map Prod.snd)) (hfst ▸ hids)
    (fun x hx => (hspec x.1 (List.of_mem_zip hx).1).2.1)
    ⟨hH', rfl, fun y hy _ => (hheld _ (hmem y hy)).2⟩ (by
      rintro s' x hx hnew ⟨hH₁, hu, hloose⟩
      refine ⟨hH₁.addStream (hu ▸ (hheld _ (hmem x hx)).1) (hloose x hx hnew), hu, fun y hy hobj => ?_⟩
      have hne : y.1.1 ≠ x.1.1 := fun he => by rw [he] at hobj; simp at hobj
      have hold := hloose y hy (H3Session.addStream_obj_ne s' _ hne ▸ hobj)
      have hgne : y.1.2 ≠ x.1.2 := fun he =>
        hne (congrArg (fun z => z.1.1) (List.inj_on_of_nodup_map (hsnd ▸ hnodup) hy hx he))
      refine ⟨fun sid hq => ?_, hold.2⟩
      rcases qstream_addStream s' _ _ hq with ⟨-, he⟩ | ⟨-, hq⟩
      · exact hgne he
      · exact hold.1 sid hq)
  refine ⟨h1.same ⟨rfl, rfl, rfl⟩, fun h hh => ?_⟩
  have hp := (hheld h hh).1
  rw [← h2] at hp
  exact hp

end

end

end ModHttp3.Session
