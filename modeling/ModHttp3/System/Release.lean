import ModHttp3.System.Handles

/-! What `h3_session_destroy` leaves: it frees the handles in `pending_free`, which is where
only nghttp3's callbacks put them, and the control streams never get a callback. -/
namespace ModHttp3.System
open Session Lib

/-- nghttp3 has no user data for the server's own streams, and none is about to be read. -/
structure Quiet (s : H3Session) : Prop where
  userData : ∀ sid, h3SidIsServer sid → s.has sid (·.userData) = false
  pending : ∀ sid, s.pending = some sid → h3SidIsServer sid = false

/-- The handle is held, if by any stream by one of the server's own. -/
structure Pinned (s : H3Session) (h : Handle) : Prop where
  held : place s.uses h = .held
  server : ∀ sid, s.qstream sid = some h → h3SidIsServer sid

section
variable {s s' : H3Session} {h : Handle}

private theorem has_modify (s : H3Session) (sid x : ℤ) {f : H3Stream → H3Stream} {test : H3Stream → Bool}
    (hf : ∀ o, test (f o) = test o) : (s.modify sid f).has x test = s.has x test := by
  unfold H3Session.has
  by_cases hx : x = sid
  · subst hx
    rw [H3Session.modify_obj_self]
    cases s.obj x with
    | none => rfl
    | some o => exact hf o
  · rw [H3Session.modify_obj_ne s f hx]

theorem Quiet.modify (hQ : Quiet s) (sid : ℤ) {f : H3Stream → H3Stream}
    (hf : ∀ o, (f o).userData = o.userData) : Quiet (s.modify sid f) := by
  constructor
  · intro x hx
    rw [has_modify s sid x hf]
    exact hQ.userData x hx
  · exact hQ.pending

theorem Quiet.change {V R : ℤ → Prop} (hV : ∀ sid, V sid → h3SidIsServer sid = false)
    (hc : Change V R s s') (hQ : Quiet s) : Quiet s' := by
  cases hc with
  | op o sid =>
    cases s.qstream sid <;> exact ⟨hQ.userData, hQ.pending⟩
  | note e he => exact ⟨hQ.userData, hQ.pending⟩
  | mark sid f hk hq hu => exact hQ.modify sid hu
  | attach sid hf =>
    have hsid : h3SidIsServer sid = false := by
      unfold H3Session.finds at hf
      rcases Bool.or_eq_true_iff.mp hf with hu | hp
      · refine Bool.eq_false_iff.mpr fun hs => ?_
        rw [hQ.userData sid hs] at hu
        cases hu
      · exact hQ.pending sid (beq_iff_eq.mp hp)
    constructor
    · intro x hx
      have hne : x ≠ sid := by
        rintro rfl
        rw [hx] at hsid
        cases hsid
      unfold H3Session.has
      rw [H3Session.modify_obj_ne s _ hne]
      exact hQ.userData x hx
    · exact hQ.pending
  | release sid f hr hf hk hq hd hu =>
    have hQ' : Quiet (s.queueFree (s.qstream sid)) := by
      cases s.qstream sid <;> exact ⟨hQ.userData, hQ.pending⟩
    exact hQ'.modify sid hu
  | free => exact ⟨hQ.userData, hQ.pending⟩
  | other _ hs hp =>
    constructor
    · intro x hx
      unfold H3Session.has
      rw [hs.obj]
      exact hQ.userData x hx
    · intro x hx
      rcases hp x hx with hold | hv
      · exact hQ.pending x hold
      · exact hV x hv

theorem Pinned.same (hP : Pinned s h) (hs : SameHandles s s') : Pinned s' h := by
  constructor
  · rw [hs.uses]
    exact hP.held
  · rw [hs.qstream]
    exact hP.server

theorem Pinned.free (hH : HandleOk s) (hP : Pinned s h) : Pinned s.freePending h := by
  obtain ⟨-, hplace⟩ := hH.legal.forEach (f := Use.free) (q := .freed) (fun _ => rfl)
    (fun _ _ => rfl) hH.nodup fun g hg => .inr (hH.queued g hg)
  constructor
  · have hnotin : h ∉ s.pendingFree := fun hin => by cases hP.held.symm.trans (hH.queued h hin)
    rw [uses_freePending, hplace h, if_neg hnotin]
    exact hP.held
  · exact hP.server

/-- A callback releases the handles of streams with user data only. -/
theorem Pinned.change {V R : ℤ → Prop} (hc : Change V R s s') (hH : HandleOk s) (hQ : Quiet s)
    (hP : Pinned s h) : Pinned s' h := by
  cases hc with
  | op o sid =>
    cases s.qstream sid with
    | none => exact hP
    | some g => exact ⟨place_access.trans hP.held, hP.server⟩
  | note e he => exact hP.same (sameHandles_log s he)
  | mark sid f hk hq hu => exact hP.same (sameHandles_modify s sid hq)
  | attach sid hf => exact hP.same (sameHandles_modify s sid fun _ => rfl)
  | release sid f hr hf hk hq hd hu =>
    have hne : ∀ g, s.qstream sid = some g → g ≠ h := by
      rintro g hg rfl
      rw [hQ.userData sid (hP.server sid hg)] at hf
      cases hf
    constructor
    · rw [uses_release]
      cases hg : s.qstream sid with
      | none => exact hP.held
      | some g => exact (place_cons_ne (u := .queue g) (hne g hg)).trans hP.held
    · exact fun x hx => hP.server x (qstream_release s sid hq hx).2
  | free => exact hP.free hH
  | other _ hs hp => exact hP.same hs.sameHandles

theorem quiet_pinned_changes {V R : ℤ → Prop} (hV : ∀ sid, V sid → h3SidIsServer sid = false)
    (hc : Changes V R s s') (hH : HandleOk s) (hQ : Quiet s) :
    Quiet s' ∧ ∀ h, Pinned s h → Pinned s' h := by
  have hall := hc.preserve (P := fun s' => HandleOk s' ∧ Quiet s' ∧ ∀ h, Pinned s h → Pinned s' h)
    (fun s₁ s₂ h₁₂ ⟨hH₁, hQ₁, hP₁⟩ => ⟨hH₁.change h₁₂, hQ₁.change hV h₁₂,
      fun h hP => (hP₁ h hP).change h₁₂ hH₁ hQ₁⟩) ⟨hH, hQ, fun _ => id⟩
  exact hall.2

/-- Accepting a stream leaves other handles where they are. -/
theorem Pinned.accept {g : Handle} {sid : ℤ} {created : Bool} (hH : HandleOk s)
    (hans : s.acceptAnswer g sid) (hP : Pinned s h) : Pinned (s.acceptStream g sid created) h := by
  have hne : g ≠ h := by
    rintro rfl
    cases (hH.fresh (H3Session.acceptAnswer_fresh hans)).symm.trans hP.held
  have hlog : Pinned ((s.log (.obtained g)).log (.op .streamId g)) h := by
    constructor
    · exact place_access.trans ((place_cons_ne (u := .gain g) hne).trans hP.held)
    · exact hP.server
  apply H3Session.acceptStream_cases created hans (P := fun s' => Pinned s' h)
  · exact ⟨(place_cons_ne (u := .free g) hne).trans hlog.held, hlog.server⟩
  · exact hlog
  · refine fun _ _ => ⟨hlog.held, fun x hx => ?_⟩
    rcases qstream_addStream _ _ _ hx with ⟨-, he⟩ | ⟨-, hx⟩
    · exact absurd he.symm hne
    · exact hlog.server x hx

/-- All streams are the server's own, and nghttp3 has user data for none. -/
def OnlyControl (s : H3Session) : Prop :=
  s.pending = none ∧ ∀ sid o, s.obj sid = some o → h3SidIsServer sid ∧ o.userData = false

theorem OnlyControl.quiet (hO : OnlyControl s) : Quiet s := by
  constructor
  · intro sid _
    refine Bool.eq_false_iff.mpr fun hu => ?_
    obtain ⟨o, ho, hu⟩ := H3Session.has_iff.mp hu
    rw [(hO.2 sid o ho).2] at hu
    cases hu
  · intro sid hp
    rw [hO.1] at hp
    cases hp

theorem onlyControl_new : OnlyControl .new := by
  refine ⟨rfl, fun sid o ho => ?_⟩
  cases ho

theorem onlyControl_created {opened : List (Option (ℤ × Handle))} {bound : Bool} {created : List Bool}
    (hans : s.controlAnswer opened created) (hO : OnlyControl s) :
    OnlyControl (s.createControlStreams opened bound created).1 := by
  obtain ⟨-, -, -, hall⟩ := H3Session.controlAnswer_spec hans
  apply H3Session.createControlStreams_cases hans
  · exact hO
  · intro s' x hx hnew hO'
    refine ⟨hO'.1, fun sid o ho => ?_⟩
    by_cases hsid : sid = x.1
    · subst hsid
      rw [H3Session.addStream_obj_self] at ho
      cases ho
      exact ⟨(hall x hx).1, rfl⟩
    · rw [H3Session.addStream_obj_ne s' x.2 hsid] at ho
      exact hO'.2 sid o ho
  · exact fun _ hO' => hO'
  · exact fun _ hO' => hO'

theorem Quiet.accept {sid : ℤ} {created : Bool} (hQ : Quiet s) (hans : s.acceptAnswer h sid) :
    Quiet (s.acceptStream h sid created) := by
  apply H3Session.acceptStream_cases created hans
  · exact ⟨hQ.userData, hQ.pending⟩
  · exact ⟨hQ.userData, hQ.pending⟩
  · intro _ hclient
    refine ⟨fun x hx => ?_, hQ.pending⟩
    have hne : x ≠ sid := by
      rintro rfl
      rw [hx] at hclient
      cases hclient
    unfold H3Session.has
    rw [H3Session.addStream_obj_ne _ h hne]
    exact hQ.userData x hx

end

/-- What is known of the handles of a session up to its destruction. -/
structure Releases (σ : State) : Prop where
  ok : HandleOk σ.session
  quiet : Quiet σ.session
  opening : σ.pc = .opening → σ = .start
  visited : ∀ d sid v, σ.pc = .drain d (.visit sid v) → h3SidIsServer sid = false
  created : σ.pc ≠ .opening → σ.pc ≠ .destroyed → σ.session.controlStreamsCreated
  pinned : σ.session.controlStreamsCreated → ∃ h, Pinned σ.session h
  failed : σ.session.controlStreamsCreated = false → ∀ h, Use.gain h ∈ σ.session.uses →
    Use.free h ∈ σ.session.uses
  emptied : σ.pc = .destroyed → σ.session.pendingFree = []

section
variable {conf : SessionConf} {σ σ' : State} {act : Action}

private theorem releases_start : Releases .start := by
  constructor
  · exact handleOk_new
  · exact ⟨fun _ _ => rfl, nofun⟩
  · exact fun _ => rfl
  · nofun
  · exact fun h => absurd rfl h
  · nofun
  · nofun
  · nofun

/-- A step of an open session. -/
theorem Releases.next (hR : Releases σ) (hopen : σ.pc ≠ .opening) (hok : HandleOk σ'.session)
    (hquiet : Quiet σ'.session)
    (hsame : σ'.session.controlStreamsCreated = σ.session.controlStreamsCreated)
    (hpinned : ∀ h, Pinned σ.session h → Pinned σ'.session h)
    (huses : σ.pc = .destroyed → σ'.pc = .destroyed ∧ σ'.session.uses = σ.session.uses)
    (hpc : σ'.pc ≠ .opening)
    (hvisited : ∀ d sid v, σ'.pc = .drain d (.visit sid v) → h3SidIsServer sid = false)
    (hemptied : σ'.pc = .destroyed → σ'.session.pendingFree = []) : Releases σ' := by
  constructor
  · exact hok
  · exact hquiet
  · exact fun h => absurd h hpc
  · exact hvisited
  · intro _ hd
    rw [hsame]
    exact hR.created hopen fun h => hd (huses h).1
  · intro hc
    obtain ⟨h, hP⟩ := hR.pinned (hsame ▸ hc)
    exact ⟨h, hpinned h hP⟩
  · intro hc h hg
    have hd : σ.pc = .destroyed := by
      by_contra hd
      rw [hsame, hR.created hopen hd] at hc
      cases hc
    rw [(huses hd).2] at hg ⊢
    exact hR.failed (hsame ▸ hc) h hg
  · exact hemptied

theorem created_changes {V R : ℤ → Prop} {s s' : H3Session} (h : Changes V R s s') :
    s'.controlStreamsCreated = s.controlStreamsCreated := by
  apply h.preserve (P := fun s' => s'.controlStreamsCreated = s.controlStreamsCreated) _ rfl
  intro s₁ s₂ hc he
  cases hc with
  | op o sid => cases s₁.qstream sid <;> exact he
  | release sid f hr hf hk hq hd hu =>
    unfold H3Session.release
    cases s₁.qstream sid <;> exact he
  | other _ hs hp => exact hs.controlStreamsCreated.trans he
  | _ => exact he

theorem Quiet.aside {s s' : H3Session} (hQ : Quiet s) (hs : Aside s s') : Quiet s' := by
  constructor
  · intro sid hsid
    rw [hs.requests.has fun _ _ h => h.userData]
    exact hQ.userData sid hsid
  · rw [hs.pending]
    exact hQ.pending

theorem quiet_pinned_destroy {s : H3Session} (hH : HandleOk s) (hQ : Quiet s) :
    Quiet s.destroy ∧ s.destroy.controlStreamsCreated = s.controlStreamsCreated ∧
      ∀ h, Pinned s h → Pinned s.destroy h := by
  have hn : Aside s { s with ngh3 := false } := .of_obj rfl rfl rfl rfl rfl rfl rfl
  have hs := hn.trans (aside_abandon s.streams { s with ngh3 := false })
  refine ⟨?_, ?_, fun h hP => ?_⟩
  · exact ⟨(hQ.aside hs).userData, (hQ.aside hs).pending⟩
  · exact hs.controlStreamsCreated
  · exact (hP.same hs.sameHandles).free (hH.same hs.sameHandles)

theorem Quiet.reclaim (snapshot : List ℤ) {s : H3Session} (hQ : Quiet s) :
    Quiet (s.reclaim snapshot) ∧
      (s.reclaim snapshot).controlStreamsCreated = s.controlStreamsCreated := by
  induction snapshot generalizing s with
  | nil => exact ⟨hQ, rfl⟩
  | cons sid rest ih =>
    have hstep : Quiet (s.reclaimStream sid) ∧
        (s.reclaimStream sid).controlStreamsCreated = s.controlStreamsCreated := by
      unfold H3Session.reclaimStream
      split
      · have hm := hQ.modify sid (f := fun o => { o with writeBlocked := false, pool := false })
          fun _ => rfl
        exact ⟨⟨hm.userData, hm.pending⟩, rfl⟩
      · exact ⟨hQ, rfl⟩
    obtain ⟨hQ', hc⟩ := ih hstep.1
    exact ⟨hQ', hc.trans hstep.2⟩

/-- Draining visits the client's streams only. -/
private theorem drainStep_visits {s s' : H3Session} {d d' : Drain} {pc pc' : DrainPc} {a : Answer}
    (h : drainStep conf s d pc a = some (s', d', pc')) {sid : ℤ} (hv : pc'.visiting sid) :
    pc.visiting sid ∨ h3SidIsServer sid = false := by
  unfold drainStep at h
  split at h
  · have he := Option.some.inj h
    unfold drainScan at he
    dsimp only at he
    split_ifs at he with h1 h2
    · cases he
      cases hv
    · cases he
      cases hv
    · cases he
      right
      simp only [Bool.or_eq_true, not_or, Bool.not_eq_true] at h2
      cases hv
      exact h2.2
  · have he := Option.some.inj h
    unfold drainNext at he
    dsimp only at he
    split_ifs at he <;> cases he <;> cases hv
  · obtain ⟨⟨s₁, d₁, v⟩, -, he⟩ := Option.map_eq_some_iff.mp h
    cases he
    exact .inl hv
  · cases h

private theorem filterMap_ne_nil_of_all {α : Type*} {l : List (Option α)} (hl : l.length = 3)
    (hall : l.all Option.isSome) : ∃ x, x ∈ l.filterMap id := by
  match l, hl with
  | some x :: _, _ => exact ⟨x, by simp⟩
  | none :: _, _ => simp at hall

/-- Once the control streams are open, their handles stay. -/
theorem Releases.opened {opened : List (Option (ℤ × Handle))} {bound : Bool} {created : List Bool}
    (hR : Releases σ) (hpc : σ.pc = .opening) (hans : σ.session.controlAnswer opened created)
    (hall : (σ.session.createControlStreams opened bound created).2 = true) :
    Releases ⟨(σ.session.createControlStreams opened bound created).1, .opened, σ.tasks⟩ := by
  have hs : σ.session = .new := congrArg State.session (hR.opening hpc)
  have hO : OnlyControl (σ.session.createControlStreams opened bound created).1 :=
    onlyControl_created hans (hs ▸ onlyControl_new)
  obtain ⟨hok, hheld⟩ := hR.ok.controlOpened hans hall
  obtain ⟨hsome, he⟩ := H3Session.createControlStreams_opened hall
  have hcreated : (σ.session.createControlStreams opened bound created).1.controlStreamsCreated := by
    rw [he]
  obtain ⟨x, hx⟩ := filterMap_ne_nil_of_all (H3Session.controlAnswer_length hans) hsome
  constructor
  · exact hok
  · exact hO.quiet
  · nofun
  · nofun
  · exact fun _ _ => hcreated
  · intro _
    refine ⟨x.2, hheld x.2 (List.mem_map.mpr ⟨x, hx, rfl⟩), fun sid hq => ?_⟩
    obtain ⟨o, ho, -⟩ := Option.bind_eq_some_iff.mp hq
    exact (hO.2 sid o ho).1
  · intro hc
    rw [hcreated] at hc
    cases hc
  · nofun

/-- If they cannot be opened, all handles obtained so far are freed. -/
theorem Releases.openFailed {opened : List (Option (ℤ × Handle))} {bound : Bool} {created : List Bool}
    (hR : Releases σ) (hpc : σ.pc = .opening) (hans : σ.session.controlAnswer opened created)
    (hall : (σ.session.createControlStreams opened bound created).2 = false) :
    Releases ⟨(σ.session.createControlStreams opened bound created).1.destroy, .destroyed, σ.tasks⟩ := by
  have hs : σ.session = .new := congrArg State.session (hR.opening hpc)
  have hO : OnlyControl (σ.session.createControlStreams opened bound created).1 :=
    onlyControl_created hans (hs ▸ onlyControl_new)
  have hok := (hR.ok.controlFailed hans hall).1
  obtain ⟨hQ, hc, -⟩ := quiet_pinned_destroy hok hO.quiet
  have he := H3Session.createControlStreams_failed hall
  have hcreated : (σ.session.createControlStreams opened bound created).1.controlStreamsCreated = false := by
    rw [he, hs]
    rfl
  have huses : (σ.session.createControlStreams opened bound created).1.uses =
      (((opened.filterMap id).map Prod.snd).map Use.free).reverse ++
        (((opened.filterMap id).map Prod.snd).map Use.gain).reverse := by
    rw [he, hs]
    refine (filterMap_use_map (fun _ => rfl) _ _).trans (congrArg _ ?_)
    refine (filterMap_use_map (fun _ => rfl) _ _).trans ?_
    exact List.append_nil _
  constructor
  · exact hok.destroy
  · exact hQ
  · nofun
  · nofun
  · exact fun _ hd => absurd rfl hd
  · intro h
    rw [hc, hcreated] at h
    cases h
  · intro _ h hg
    dsimp only at hg ⊢
    rw [destroy_uses, huses] at hg ⊢
    simp only [List.mem_append, List.mem_reverse, List.mem_map, Use.gain.injEq, Use.free.injEq,
      reduceCtorEq, and_false, exists_false, false_or, exists_eq_right] at hg ⊢
    exact .inr (.inl hg)
  · exact fun _ => rfl

theorem Releases.accepted {g : Handle} {sid : ℤ} {created : Bool} (hR : Releases σ) (hpc : σ.pc = .accepting)
    (hans : σ.session.acceptAnswer g sid) (hok : HandleOk (σ.session.acceptStream g sid created)) :
    Releases { σ with session := σ.session.acceptStream g sid created } := by
  refine hR.next ?_ hok (hR.quiet.accept hans) ?_ (fun h hP => hP.accept hR.ok hans) ?_ ?_ ?_ ?_
  · rw [hpc]
    nofun
  · exact H3Session.acceptStream_cases _ hans
      (P := fun s => s.controlStreamsCreated = σ.session.controlStreamsCreated) rfl rfl
      fun _ _ => rfl
  · rw [hpc]
    nofun
  · rw [hpc]
    nofun
  · rw [hpc]
    nofun
  · rw [hpc]
    nofun

theorem Releases.drain {a : Answer} {d d' : Drain} {pc pc' : DrainPc} {s : H3Session} (hR : Releases σ)
    (hpc : σ.pc = .drain d pc) (hd : drainStep conf σ.session d pc a = some (s, d', pc'))
    (hok : HandleOk s) : Releases ⟨s, .drain d' pc', σ.tasks⟩ := by
  have hV : ∀ sid, pc.visiting sid → h3SidIsServer sid = false := by
    intro sid hv
    cases pc with
    | visit x v =>
      cases hv
      exact hR.visited d sid v hpc
    | _ => cases hv
  obtain ⟨s₁, hs, hlast⟩ := drainStep_changes (V := pc.visiting) (R := fun _ => True) conf
    (fun _ h => h) (fun _ _ _ => trivial) hd
  obtain ⟨hQ, hP⟩ := quiet_pinned_changes hV hs hR.ok hR.quiet
  have hc := created_changes hs
  have hnext : Quiet s ∧ s.controlStreamsCreated = σ.session.controlStreamsCreated ∧
      ∀ h, Pinned σ.session h → Pinned s h := by
    rcases hlast with ⟨rfl, -⟩ | ⟨rfl, -⟩
    · obtain ⟨hQ', hc'⟩ := hQ.reclaim d.snapshot
      exact ⟨hQ', hc'.trans hc, fun h hP' => (hP h hP').same (reclaim_sameHandles _ _)⟩
    · exact ⟨hQ, hc, hP⟩
  refine hR.next ?_ hok hnext.1 hnext.2.1 hnext.2.2 ?_ nofun ?_ nofun
  · rw [hpc]
    nofun
  · rw [hpc]
    nofun
  · intro d₁ sid v he
    cases he
    rcases drainStep_visits hd rfl with hv | hv
    · exact hV sid hv
    · exact hv

theorem Releases.aside (hR : Releases σ) (hs : Aside σ.session σ'.session)
    (hpc : σ'.pc = σ.pc ∧ σ.tasks ≠ [] ∨ σ.pc.outside ∧ σ'.pc.outside) (hok : HandleOk σ'.session) :
    Releases σ' := by
  have hopen : σ.pc ≠ .opening := by
    rintro he
    rcases hpc with ⟨-, ht⟩ | ⟨ho, -⟩
    · rw [hR.opening he] at ht
      exact ht rfl
    · rw [he] at ho
      cases ho
  refine hR.next hopen hok (hR.quiet.aside hs) hs.controlStreamsCreated
    (fun h hP => hP.same hs.sameHandles) ?_ ?_ ?_ ?_
  · intro hd
    rcases hpc with ⟨he, -⟩ | ⟨ho, -⟩
    · exact ⟨he.trans hd, hs.sameHandles.uses⟩
    · rw [hd] at ho
      cases ho
  · intro he
    rcases hpc with ⟨hsame, -⟩ | ⟨-, ho⟩
    · exact hopen (hsame ▸ he)
    · rw [he] at ho
      cases ho
  · intro d sid v he
    rcases hpc with ⟨hsame, -⟩ | ⟨-, ho⟩
    · exact hR.visited d sid v (hsame ▸ he)
    · rw [he] at ho
      cases ho
  · intro he
    rcases hpc with ⟨hsame, -⟩ | ⟨-, ho⟩
    · rw [hs.pendingFree]
      exact hR.emptied (hsame ▸ he)
    · rw [he] at ho
      cases ho

theorem Releases.step (hR : Releases σ) (h : σ.step conf act = some σ') : Releases σ' := by
  have hok := handleOk_step hR.ok h
  cases step_kind h with
  | opened hpc hans hall => exact hR.opened hpc hans hall
  | openFailed hpc hans hall => exact hR.openFailed hpc hans hall
  | destroyed hpc =>
    obtain ⟨hQ, hc, hP⟩ := quiet_pinned_destroy hR.ok hR.quiet
    refine hR.next ?_ hok hQ hc hP ?_ nofun nofun fun _ => rfl
    · intro he
      rw [he] at hpc
      cases hpc
    · intro he
      rw [he] at hpc
      cases hpc
  | accepted hpc hans => exact hR.accepted hpc hans hok
  | drain hpc hd => exact hR.drain hpc hd hok
  | flush hpc hf =>
    have hs := flushStep_changes (V := fun _ => False) (R := fun _ => True) conf
      (fun _ _ _ => trivial) hf
    obtain ⟨hQ, hP⟩ := quiet_pinned_changes nofun hs hR.ok hR.quiet
    refine hR.next ?_ hok hQ (created_changes hs) hP ?_ nofun nofun nofun
    · rw [hpc]
      nofun
    · rw [hpc]
      nofun
  | aside hs hpc hc => exact hR.aside hs hpc hok

private theorem releases_reach (h : Reach (State.step conf) anyStep .start σ) : Releases σ :=
  h.invariant releases_start fun _ _ _ hR _ hs => hR.step hs

theorem obtained_mem_iff {s : H3Session} {h : Handle} :
    .obtained h ∈ s.trace ↔ Use.gain h ∈ s.uses :=
  ⟨fun hm => List.mem_filterMap.mpr ⟨_, hm, rfl⟩, mem_trace_of_gain⟩

/-- When `h3_session_destroy` has returned, nothing is left in `pending_free` and no handle of
a stream that was still open has been freed. So every handle the session obtained is freed
exactly if the session never got its control streams. -/
theorem all_handles_freed_iff (h : Reach (State.step conf) anyStep .start σ)
    (hdestroyed : σ.pc = .destroyed) :
    σ.session.pendingFree = [] ∧
    (∀ sid g, σ.session.qstream sid = some g → .freed g ∉ σ.session.trace) ∧
    ((∀ g, .obtained g ∈ σ.session.trace → .freed g ∈ σ.session.trace) ↔
      σ.session.controlStreamsCreated = false) := by
  have hR := releases_reach h
  have hnot : ∀ g, place σ.session.uses g = .held → .freed g ∉ σ.session.trace := by
    intro g hheld hm
    have hfreed : place σ.session.uses g = .freed := hR.ok.legal.remains (freed_mem_iff.mp hm)
    cases hheld.symm.trans hfreed
  refine ⟨hR.emptied hdestroyed, fun sid g hq => hnot g (hR.ok.held sid g hq), ?_⟩
  constructor
  · intro hall
    refine Bool.eq_false_iff.mpr fun hc => ?_
    obtain ⟨g, hP⟩ := hR.pinned hc
    have hgain : .obtained g ∈ σ.session.trace := by
      by_contra hno
      have hfresh := place_eq_fresh (fun hm => hno (obtained_mem_iff.mpr hm)) hR.ok.legal
      cases hP.held.symm.trans hfresh
    exact hnot g hP.held (hall g hgain)
  · intro hc g hg
    rw [freed_mem_iff]
    exact hR.failed hc g (obtained_mem_iff.mp hg)

/-- A session whose third control stream cannot be opened: the other two are freed. -/
theorem all_handles_freed_iff_openFailed :
    ∃ σ, Reach (State.step sampleConf) anyStep .start σ ∧ σ.pc = .destroyed ∧
      .obtained 10 ∈ σ.session.trace ∧
      ∀ g, .obtained g ∈ σ.session.trace → .freed g ∈ σ.session.trace := by
  have hrun : (runActions (State.step sampleConf) .start
      [.event (.control [some (3, 10), some (7, 11), none] true [true, true, true])]).map
      (fun σ => (σ.pc, decide (.obtained 10 ∈ σ.session.trace), σ.session.controlStreamsCreated)) =
        some (.destroyed, true, false) := by
    decide +kernel
  obtain ⟨σ, hσ, he⟩ := Option.map_eq_some_iff.mp hrun
  simp only [Prod.mk.injEq, decide_eq_true_eq] at he
  obtain ⟨hpc, hobtained, hcreated⟩ := he
  have hreach := Reach.of_runActions _ hσ
  exact ⟨σ, hreach, hpc, hobtained, (all_handles_freed_iff hreach hpc).2.2.mpr hcreated⟩

/-- A session that serves one request and ends leaves its control streams. -/
theorem control_handles_leaked :
    ¬ ∀ σ, Reach (State.step sampleConf) anyStep .start σ → σ.pc = .destroyed →
      ∀ g, .obtained g ∈ σ.session.trace → .freed g ∈ σ.session.trace := by
  intro hall
  have hrun : (runActions (State.step sampleConf) .start oneRequest).map
      (fun σ => (σ.pc, decide (.obtained 10 ∈ σ.session.trace), decide (.freed 10 ∈ σ.session.trace))) =
        some (.destroyed, true, false) := by
    decide +kernel
  obtain ⟨σ, hσ, he⟩ := Option.map_eq_some_iff.mp hrun
  simp only [Prod.mk.injEq, decide_eq_true_eq, decide_eq_false_iff_not] at he
  obtain ⟨hpc, hobtained, hfreed⟩ := he
  exact hfreed (hall σ (Reach.of_runActions oneRequest hσ) hpc 10 hobtained)

end

end ModHttp3.System
