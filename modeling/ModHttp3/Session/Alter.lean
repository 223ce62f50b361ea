import ModHttp3.Session.Change
import ModHttp3.Session.Streams

/-! Everything that is done to the stream objects of a session. A fact about all of them is
proved for the few elementary alterations. -/
namespace ModHttp3.Session

/-- What the module itself sets in a stream, its write block apart. -/
inductive Touch : (H3Stream → H3Stream) → Prop
  | done : Touch fun o => { o with done := true }
  | bodyComplete : Touch fun o => { o with bodyComplete := true }
  | rejected : Touch fun o => { o with done := true, bodyComplete := true }
  | dispatched (b : Bool) : Touch fun o => { o with dispatched := b }
  | workerDone : Touch fun o => { o with workerDone := true }
  | respond (gone : Bool) (call : RespondCall) : Touch (H3Stream.respond gone call)
  | cancel : Touch H3Stream.responseCancel

/-- An elementary alteration; `C` are the callbacks that nghttp3 may make, and `B` the write blocks
that may be set or lifted. -/
inductive Alter (conf : SessionConf) (C : Callback → Prop) (B : ℤ → Bool → Prop) : H3Session → H3Session → Prop
  | same {s s' : H3Session} (hobj : s'.obj = s.obj) (hstreams : s'.streams = s.streams)
      (hblocked : s'.blockedStreams = s.blockedStreams) : Alter conf C B s s'
  | touch (s : H3Session) (sid : ℤ) {f : H3Stream → H3Stream} (hf : Touch f) : Alter conf C B s (s.modify sid f)
  | callback (s : H3Session) (cb : Callback) (hC : C cb) : Alter conf C B s (s.callback conf cb)
  | unblock (s : H3Session) (sid : ℤ) (hB : B sid false) (hb : s.has sid (·.writeBlocked)) :
      Alter conf C B s (s.unblockStream sid)
  | block (s : H3Session) (sid : ℤ) (hB : B sid true) : Alter conf C B s (s.blockStream sid)
  | reclaim (s : H3Session) (sid : ℤ) : Alter conf C B s (s.reclaimStream sid)
  | add (s : H3Session) (sid : ℤ) (h : Handle) (hnew : s.obj sid = none) : Alter conf C B s (s.addStream sid h)

def Alters (conf : SessionConf) (C : Callback → Prop) (B : ℤ → Bool → Prop) :
    H3Session → H3Session → Prop :=
  Relation.ReflTransGen (Alter conf C B)

section
variable {conf : SessionConf} {C : Callback → Prop} {B : ℤ → Bool → Prop} {s s' s'' : H3Session}

theorem Alters.refl (s : H3Session) : Alters conf C B s s := Relation.ReflTransGen.refl

theorem Alters.trans (h : Alters conf C B s s') (h' : Alters conf C B s' s'') : Alters conf C B s s'' :=
  Relation.ReflTransGen.trans h h'

theorem Alter.alters (h : Alter conf C B s s') : Alters conf C B s s' := Relation.ReflTransGen.single h

/-- A property that every elementary alteration preserves. -/
theorem Alters.preserve {P : H3Session → Prop} (hP : ∀ s s', Alter conf C B s s' → P s → P s')
    (h : Alters conf C B s s') (hs : P s) : P s' := by
  induction h with
  | refl => exact hs
  | tail _ ha ih => exact hP _ _ ha ih

/-- What the module sets in a stream. -/
inductive Sets : (H3Stream → H3Stream) → Prop
  | touch {f : H3Stream → H3Stream} (hf : Touch f) : Sets f
  | writeBlocked (b : Bool) : Sets fun o => { o with writeBlocked := b }
  | reclaimed : Sets fun o => { o with writeBlocked := false, pool := false }

/-- What becomes of the object of one stream. -/
inductive ObjAlter (conf : SessionConf) (C : Callback → Prop) (sid : ℤ) (x y : Option H3Stream) : Prop
  | same (hy : y = x)
  | sets {f : H3Stream → H3Stream} (hf : Sets f) (hy : y = x.map f)
  | callback (cb : Callback) (hC : C cb) (hsid : cb.sid = sid) (hy : y = x.map (cb.onStream conf))
  | new (g : Handle) (hx : x = none) (hy : y = some (.new sid g))

theorem objAlter_modify (s : H3Session) (x sid : ℤ) {f : H3Stream → H3Stream} (hf : Sets f) :
    ObjAlter conf C x (s.obj x) ((s.modify sid f).obj x) := by
  by_cases hx : x = sid
  · subst hx
    exact .sets hf (H3Session.modify_obj_self s x f)
  · exact .same (H3Session.modify_obj_ne s f hx)

theorem Alter.obj (h : Alter conf C B s s') (x : ℤ) : ObjAlter conf C x (s.obj x) (s'.obj x) := by
  cases h with
  | same hobj hstreams hblocked => exact .same (congrFun hobj x)
  | touch sid hf => exact objAlter_modify s x sid (.touch hf)
  | callback cb hC =>
    unfold H3Session.callback
    split_ifs
    · rw [deliver_obj]
      by_cases hx : x = cb.sid
      · subst hx
        exact .callback cb hC rfl (H3Session.modify_obj_self s _ _)
      · exact .same (H3Session.modify_obj_ne s _ hx)
    · exact .same rfl
  | unblock sid hB hb => exact objAlter_modify s x sid (.writeBlocked false)
  | block sid hB =>
    unfold H3Session.blockStream
    split
    · exact .same rfl
    · exact objAlter_modify s x sid (.writeBlocked true)
  | reclaim sid =>
    unfold H3Session.reclaimStream
    split
    · exact objAlter_modify s x sid .reclaimed
    · exact .same rfl
  | add sid h hnew =>
    by_cases hx : x = sid
    · subst hx
      exact .new h hnew (H3Session.addStream_obj_self s x h)
    · exact .same (H3Session.addStream_obj_ne s h hx)

/-- A fact about every stream object. -/
theorem Alters.each {P : ℤ → H3Stream → Prop} (h : Alters conf C B s s') (hnew : ∀ sid g, P sid (.new sid g))
    (hsets : ∀ f, Sets f → ∀ sid o, P sid o → P sid (f o))
    (hcb : ∀ cb, C cb → ∀ o, P cb.sid o → P cb.sid (cb.onStream conf o)) (hs : s.Each P) : s'.Each P := by
  refine h.preserve (P := fun s => s.Each P) (fun s₁ s₂ ha h₁ x o ho => ?_) hs
  cases ha.obj x with
  | same hy => exact h₁ x o (hy.symm.trans ho)
  | sets hf hy =>
    obtain ⟨o₁, ho₁, rfl⟩ := Option.map_eq_some_iff.mp (hy.symm.trans ho)
    exact hsets _ hf x o₁ (h₁ x o₁ ho₁)
  | callback cb hC hsid hy =>
    subst hsid
    obtain ⟨o₁, ho₁, rfl⟩ := Option.map_eq_some_iff.mp (hy.symm.trans ho)
    exact hcb cb hC o₁ (h₁ _ o₁ ho₁)
  | new g hx hy =>
    cases hy.symm.trans ho
    exact hnew x g

/-- A fact about one stream object that is never taken back. -/
theorem Alters.persist {G : H3Stream → Prop} {sid : ℤ} (h : Alters conf C B s s')
    (hsets : ∀ f, Sets f → ∀ o, G o → G (f o))
    (hcb : ∀ cb, C cb → ∀ o, G o → G (cb.onStream conf o))
    (hs : ∃ o, s.obj sid = some o ∧ G o) : ∃ o, s'.obj sid = some o ∧ G o := by
  refine h.preserve (P := fun s => ∃ o, s.obj sid = some o ∧ G o) (fun s₁ s₂ ha ⟨o, ho, hG⟩ => ?_) hs
  have hmap : ∀ f, s₂.obj sid = (s₁.obj sid).map f → s₂.obj sid = some (f o) := by
    intro f hy
    rw [hy, ho, Option.map_some]
  cases ha.obj sid with
  | same hy => exact ⟨o, hy.trans ho, hG⟩
  | sets hf hy => exact ⟨_, hmap _ hy, hsets _ hf o hG⟩
  | callback cb hC hsid hy => exact ⟨_, hmap _ hy, hcb cb hC o hG⟩
  | new g hx hy => cases hx.symm.trans ho

/-- What is never taken back from a stream. -/
structure Later (o o' : H3Stream) : Prop where
  done : o.done → o'.done
  headersComplete : o.headersComplete → o'.headersComplete
  userData : o.userData → o'.userData
  malformed : o.malformed → o'.malformed
  responseCancelled : o.responseCancelled → o'.responseCancelled
  qstream : o.qstream = none → o'.qstream = none

theorem Later.refl (o : H3Stream) : Later o o := ⟨id, id, id, id, id, id⟩

theorem Later.trans {o o' o'' : H3Stream} (h : Later o o') (h' : Later o' o'') : Later o o'' :=
  ⟨h'.done ∘ h.done, h'.headersComplete ∘ h.headersComplete, h'.userData ∘ h.userData,
    h'.malformed ∘ h.malformed, h'.responseCancelled ∘ h.responseCancelled, h'.qstream ∘ h.qstream⟩

private theorem respond_cancelled {gone : Bool} {call : RespondCall} {o : H3Stream} (h : o.responseCancelled) :
    (o.respond gone call).responseCancelled := by
  unfold H3Stream.respond
  cases call with
  | complete => exact h
  | _ =>
    dsimp only
    rw [h]
    simp [h]

theorem Sets.later {f : H3Stream → H3Stream} (hf : Sets f) (o : H3Stream) : Later o (f o) := by
  cases hf with
  | touch hf =>
    cases hf with
    | respond gone call =>
      have hcancelled : o.responseCancelled → (o.respond gone call).responseCancelled := respond_cancelled
      obtain ⟨_, _, _, he⟩ := respond_eq gone call o
      rw [he] at hcancelled ⊢
      exact ⟨id, id, id, id, hcancelled, id⟩
    | done => exact ⟨fun _ => rfl, id, id, id, id, id⟩
    | rejected => exact ⟨fun _ => rfl, id, id, id, id, id⟩
    | cancel => exact ⟨id, id, id, id, fun _ => rfl, id⟩
    | _ => exact ⟨id, id, id, id, id, id⟩
  | _ => exact ⟨id, id, id, id, id, id⟩

theorem onStream_later (conf : SessionConf) (cb : Callback) (o : H3Stream) : Later o (cb.onStream conf o) := by
  cases cb with
  | beginHeaders sid => exact ⟨id, id, fun _ => rfl, id, id, id⟩
  | recvHeader sid field =>
    obtain ⟨_, _, _, _, _, _, _, _, hbad, he⟩ := onRecvHeader_eq conf field o
    rw [Callback.onStream, he]
    exact ⟨id, id, id, hbad, id, id⟩
  | endHeaders sid fin =>
    simp only [Callback.onStream, onEndHeaders]
    split_ifs
    · exact ⟨id, fun _ => rfl, id, id, id, id⟩
    · exact .refl o
  | recvData sid data =>
    simp only [Callback.onStream, onRecvData]
    split_ifs <;> exact ⟨id, id, id, id, id, id⟩
  | stopSending sid => exact ⟨fun _ => rfl, id, id, id, fun _ => rfl, fun _ => rfl⟩
  | resetStream sid => exact ⟨fun _ => rfl, id, id, id, fun _ => rfl, id⟩
  | streamClose sid => exact ⟨fun _ => rfl, id, id, id, fun _ => rfl, fun _ => rfl⟩
  | responseData sid => exact .refl o

/-- No stream object is lost, and nothing is taken back from it. -/
theorem Alters.later {sid : ℤ} {o : H3Stream} (h : Alters conf C B s s') (ho : s.obj sid = some o) :
    ∃ o', s'.obj sid = some o' ∧ Later o o' :=
  h.persist (G := Later o) (fun _ hf o' hl => hl.trans (hf.later o'))
    (fun cb _ o' hl => hl.trans (onStream_later conf cb o')) ⟨o, ho, .refl o⟩

theorem alters_same (hobj : s'.obj = s.obj) (hstreams : s'.streams = s.streams)
    (hblocked : s'.blockedStreams = s.blockedStreams) : Alters conf C B s s' :=
  (Alter.same hobj hstreams hblocked).alters

theorem alters_touch (s : H3Session) (sid : ℤ) {f : H3Stream → H3Stream} (hf : Touch f) :
    Alters conf C B s (s.modify sid f) := (Alter.touch s sid hf).alters

theorem alters_logOp (s : H3Session) (o : HandleOp) (h : Option Handle) : Alters conf C B s (s.logOp o h) := by
  cases h <;> exact alters_same rfl rfl rfl

theorem alters_log (s : H3Session) (e : Event) : Alters conf C B s (s.log e) := alters_same rfl rfl rfl

theorem alters_cancelAll (sids : List ℤ) (s : H3Session) :
    Alters conf C B s (sids.foldl (fun s sid => s.modify sid H3Stream.responseCancel) s) := by
  induction sids generalizing s with
  | nil => exact .refl s
  | cons sid sids ih => exact (alters_touch s sid .cancel).trans (ih _)

theorem alters_destroy (s : H3Session) : Alters conf C B s s.destroy := by
  have hngh3 : Alters conf C B s { s with ngh3 := false } := alters_same rfl rfl rfl
  have hfree : ∀ t : H3Session, Alters conf C B t t.freePending := fun t => alters_same rfl rfl rfl
  exact (hngh3.trans (alters_cancelAll s.streams _)).trans (hfree _)

theorem alters_reclaim (snapshot : List ℤ) (s : H3Session) : Alters conf C B s (s.reclaim snapshot) := by
  unfold H3Session.reclaim
  induction snapshot generalizing s with
  | nil => exact .refl s
  | cons sid rest ih => exact (Alter.reclaim s sid).alters.trans (ih _)

theorem alters_acceptStream {h : Handle} {sid : ℤ} (created : Bool) (hans : s.acceptAnswer h sid) :
    Alters conf C B s (s.acceptStream h sid created) := by
  have hlog : Alters conf C B s ((s.log (.obtained h)).log (.op .streamId h)) := alters_same rfl rfl rfl
  refine H3Session.acceptStream_cases created hans (P := Alters conf C B s) ?_ hlog fun hnew _ => ?_
  · exact hlog.trans (alters_log _ _)
  · have hadd : Alter conf C B ((s.log (.obtained h)).log (.op .streamId h))
        (((s.log (.obtained h)).log (.op .streamId h)).addStream sid h) := .add _ sid h hnew
    exact hlog.trans hadd.alters

theorem alters_createControlStreams {opened : List (Option (ℤ × Handle))} {bound : Bool}
    {created : List Bool} (hans : s.controlAnswer opened created) :
    Alters conf C B s (s.createControlStreams opened bound created).1 := by
  refine H3Session.createControlStreams_cases hans (P := Alters conf C B s) (alters_same rfl rfl rfl) ?_ ?_ ?_
  · exact fun s' x _ hnew hs => hs.trans (Alter.add s' x.1 x.2 hnew).alters
  · exact fun s' hs => hs.trans (alters_same rfl rfl rfl)
  · exact fun s' hs => hs.trans (alters_same rfl rfl rfl)

private theorem alters_unblockStep {sid : ℤ} {a : Answer} (hB : B sid false) (h : s.unblockStep sid a = some s') :
    Alters conf C B s s' := by
  unfold H3Session.unblockStep at h
  by_cases hb : s.has sid (·.writeBlocked) = true
  · rw [hb, Bool.not_true, if_neg Bool.false_ne_true] at h
    split_ifs at h
    · cases h
      exact (Alter.unblock s sid hB hb).alters
    · split at h
      · cases h
        split_ifs
        · exact alters_logOp s _ _
        · refine (alters_logOp s _ _).trans (Alter.unblock _ sid hB ?_).alters
          unfold H3Session.has
          rw [H3Session.logOp_obj]
          exact hb
      · cases h
  · rw [Bool.not_eq_true] at hb
    rw [hb, Bool.not_false, if_pos rfl] at h
    split_ifs at h
    cases h
    exact .refl s

/-- The write block that a step of `flush_nghttp3` may set or lift. -/
def FlushPc.setsBlock : FlushPc → Option (ℤ × Bool)
  | .unblock (sid :: _) => some (sid, false)
  | .offsets (some sid) => some (sid, true)
  | _ => none

theorem alters_flushStep {pc pc' : FlushPc} {a : Answer} (hC : ∀ cb, a = .callback cb → C cb)
    (hB : ∀ x, pc.setsBlock = some x → B x.1 x.2)
    (h : flushStep conf s pc a = some (s', pc')) : Alters conf C B s s' := by
  unfold flushStep at h
  split at h
  · cases h
    exact .refl s
  · obtain ⟨s₁, hs, he⟩ := Option.map_eq_some_iff.mp h
    cases he
    exact alters_unblockStep (hB _ rfl) hs
  · cases h
    exact (Alter.callback s _ (hC _ rfl)).alters
  · cases h
    exact alters_same rfl rfl rfl
  · cases h
    exact alters_same rfl rfl rfl
  · cases h
    exact .refl s
  · cases h
    exact alters_logOp s _ _
  · cases h
    exact (Alter.callback s _ (hC _ rfl)).alters
  · rename_i blocked err
    cases h
    cases blocked with
    | none => exact .refl s
    | some sid => exact (Alter.block s sid (hB _ rfl)).alters
  · cases h

theorem alters_finDone (s : H3Session) (sid : ℤ) (origin : FinFrom) :
    Alters conf C B s (s.finDone sid origin).1 := by
  cases origin <;> exact alters_touch s sid .bodyComplete

theorem alters_markNgh3Dead (s : H3Session) (err : LibErr) : Alters conf C B s (s.markNgh3Dead err) :=
  alters_same rfl rfl rfl

theorem alters_rejectCounted (s : H3Session) (sid : ℤ) : Alters conf C B s (s.rejectCounted conf sid) := by
  have htouch : Alters conf C B s (s.modify sid fun o => { o with done := true, bodyComplete := true }) :=
    alters_touch s sid .rejected
  unfold H3Session.rejectCounted
  dsimp only
  split_ifs <;> exact htouch.trans (alters_same rfl rfl rfl)

private theorem alters_callReturned (s : H3Session) (sid : ℤ) (err : Option LibErr) (call : LibCall) :
    Alters conf C B s (s.callReturned conf sid err call).1 := by
  have hpending : Alters conf C B s { s with pending := none } := alters_same rfl rfl rfl
  have hreject : ∀ (t : H3Session) (origin : RejectFrom),
      Alters conf C B t (t.rejectMalformedStream sid origin).1 := fun t _ => alters_logOp t _ _
  unfold H3Session.callReturned
  split
  · unfold H3Session.readReturned
    dsimp only
    split
    · split_ifs
      · exact hpending.trans (hreject _ _)
      · exact (hpending.trans (alters_markNgh3Dead _ _)).trans (alters_touch _ sid .done)
    · split_ifs
      · exact hpending.trans (hreject _ _)
      all_goals exact hpending
  · unfold H3Session.finReturned
    split
    · split_ifs
      · exact hreject s _
      · exact (alters_markNgh3Dead s _).trans (alters_finDone _ sid _)
    · split_ifs
      · exact hreject s _
      · exact alters_finDone s sid _
  · exact .refl s
  · exact alters_rejectCounted s sid
  · exact (alters_rejectCounted s sid).trans (alters_finDone _ sid _)
  · exact .refl s

private theorem alters_visitStep {sid : ℤ} {d d' : Drain} {pc pc' : VisitPc} {a : Answer}
    (hC : ∀ cb, a = .callback cb → C cb) (h : visitStep conf sid s d pc a = some (s', d', pc')) :
    Alters conf C B s s' := by
  unfold visitStep at h
  split at h
  · cases h
    unfold H3Session.visitEnter
    dsimp only
    have hlog : ∀ e, Alters conf C B s ((s.logOp .readState (s.qstream sid)).log e) :=
      fun e => (alters_logOp s _ _).trans (alters_log _ e)
    split_ifs
    · exact hlog _
    · exact (hlog _).trans (alters_log _ _)
    · exact hlog _
  · unfold visitLoop at h
    have hread : Alters conf C B s (s.logOp .read (s.qstream sid)) := alters_logOp s _ _
    split_ifs at h
    · cases h
      exact .refl s
    · cases h
      exact alters_touch s sid .done
    · dsimp only at h
      split at h
      · split_ifs at h
        cases h
        exact hread.trans (alters_same rfl rfl rfl)
      · cases h
        exact hread.trans (alters_same rfl rfl rfl)
      · cases h
        exact hread
      · cases h
  · cases h
    exact (Alter.callback s _ (hC _ rfl)).alters
  · cases h
    exact alters_callReturned s sid _ _
  · cases h

theorem alters_drainStep {d d' : Drain} {pc pc' : DrainPc} {a : Answer}
    (hC : ∀ cb, a = .callback cb → C cb) (h : drainStep conf s d pc a = some (s', d', pc')) :
    Alters conf C B s s' := by
  unfold drainStep at h
  split at h
  · have he := Option.some.inj h
    unfold drainScan at he
    split_ifs at he
    · cases he
      exact alters_reclaim _ s
    · dsimp only at he
      split_ifs at he <;> cases he <;> exact .refl s
  · rename_i sid rejected
    have he := Option.some.inj h
    have hlist : Alters conf C B s (drainList s d sid rejected).1 := by
      unfold drainList
      split_ifs
      · exact alters_log s _
      · exact .refl s
    unfold drainNext at he
    split_ifs at he
    · cases he
      have hcursor : ∀ (t : H3Session) (n : ℕ), Alters conf C B t { t with streamDrainCursor := n } :=
        fun t n => alters_same rfl rfl rfl
      exact (hlist.trans (hcursor _ _)).trans (alters_reclaim _ _)
    · cases he
      exact hlist
  · obtain ⟨⟨s₁, d₁, v⟩, hv, he⟩ := Option.map_eq_some_iff.mp h
    cases he
    exact alters_visitStep hC hv
  · cases h

end

end ModHttp3.Session
