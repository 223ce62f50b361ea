import ModHttp3.Session.Lifecycle

/-! How far the requests of a session have come: what nghttp3's callbacks and the drain set in
a stream, and the recorded events other than calls on handles. -/
namespace ModHttp3.Session

/-- Only what tasks, responses and write blocks set in the stream has changed. -/
structure SameRequest (o o' : H3Stream) : Prop where
  streamId : o'.streamId = o.streamId
  isBidi : o'.isBidi = o.isBidi
  qstream : o'.qstream = o.qstream
  userData : o'.userData = o.userData
  done : o'.done = o.done
  headersComplete : o'.headersComplete = o.headersComplete
  bodyComplete : o'.bodyComplete = o.bodyComplete
  malformed : o'.malformed = o.malformed

theorem SameRequest.refl (o : H3Stream) : SameRequest o o := ⟨rfl, rfl, rfl, rfl, rfl, rfl, rfl, rfl⟩

theorem SameRequest.trans {o o' o'' : H3Stream} (h : SameRequest o o') (h' : SameRequest o' o'') :
    SameRequest o o'' :=
  ⟨h'.streamId.trans h.streamId, h'.isBidi.trans h.isBidi, h'.qstream.trans h.qstream,
    h'.userData.trans h.userData, h'.done.trans h.done, h'.headersComplete.trans h.headersComplete,
    h'.bodyComplete.trans h.bodyComplete, h'.malformed.trans h.malformed⟩

/-- The streams are the same, up to what does not concern their requests. -/
def SameRequests (s s' : H3Session) : Prop :=
  ∀ sid, Option.Rel SameRequest (s.obj sid) (s'.obj sid)

section
variable {s s' s'' : H3Session}

theorem SameRequests.of_obj (h : s'.obj = s.obj) : SameRequests s s' := by
  intro sid
  rw [h]
  cases s.obj sid with
  | none => exact .none
  | some o => exact .some (.refl o)

theorem SameRequests.refl (s : H3Session) : SameRequests s s := .of_obj rfl

theorem SameRequests.trans (h : SameRequests s s') (h' : SameRequests s' s'') :
    SameRequests s s'' := by
  intro sid
  have h1 := h sid
  have h2 := h' sid
  revert h1 h2
  cases s.obj sid <;> cases s'.obj sid <;> cases s''.obj sid <;> rintro (h1 | _) (h2 | _)
  · exact .none
  · exact .some (SameRequest.trans ‹_› ‹_›)

theorem sameRequests_modify (s : H3Session) (sid : ℤ) {f : H3Stream → H3Stream}
    (hf : ∀ o, SameRequest o (f o)) : SameRequests s (s.modify sid f) := by
  intro x
  by_cases hx : x = sid
  · subst hx
    rw [H3Session.modify_obj_self]
    cases s.obj x with
    | none => exact .none
    | some o => exact .some (hf o)
  · rw [H3Session.modify_obj_ne s f hx]
    exact SameRequests.refl s x

theorem SameRequests.has (h : SameRequests s s') {test : H3Stream → Bool}
    (htest : ∀ o o', SameRequest o o' → test o' = test o) (sid : ℤ) :
    s'.has sid test = s.has sid test := by
  have hr := h sid
  unfold H3Session.has
  revert hr
  cases s.obj sid <;> cases s'.obj sid <;> rintro (hr | _)
  · rfl
  · exact htest _ _ ‹_›

theorem SameRequests.qstream (h : SameRequests s s') : s'.qstream = s.qstream := by
  funext sid
  have hr := h sid
  unfold H3Session.qstream
  revert hr
  cases s.obj sid <;> cases s'.obj sid <;> rintro (hr | _)
  · rfl
  · exact SameRequest.qstream ‹_›

/-- A fact about one stream object, as far as its request goes. -/
theorem SameRequests.obj (h : SameRequests s s') {sid : ℤ} {o' : H3Stream} (ho : s'.obj sid = some o') :
    ∃ o, s.obj sid = some o ∧ SameRequest o o' := by
  have hr := h sid
  rw [ho] at hr
  revert hr
  cases hs : s.obj sid with
  | none => nofun
  | some o =>
    rintro (hr | _)
    exact ⟨o, rfl, ‹_›⟩

end

/-- The recorded events other than calls on handles. -/
def H3Session.notes (s : H3Session) : List Event := s.trace.filter (!·.onHandle)

/-- No request has come any further. -/
structure Still (s s' : H3Session) : Prop where
  notes : s'.notes = s.notes
  pending : s'.pending = s.pending
  requests : SameRequests s s'

section
variable {s s' s'' : H3Session}

@[simp] theorem notes_logOp (s : H3Session) (o : HandleOp) (h : Option Handle) :
    (s.logOp o h).notes = s.notes := by
  cases h <;> rfl

@[simp] theorem notes_queueFree (s : H3Session) (h : Option Handle) :
    (s.queueFree h).notes = s.notes := by
  cases h <;> rfl

@[simp] theorem notes_release (s : H3Session) (sid : ℤ) (f : H3Stream → H3Stream) :
    (s.release sid f).notes = s.notes := notes_queueFree s _

/-- Events on handles are no notes. -/
theorem notes_map {g : Handle → Event} (hg : ∀ h, (g h).onHandle) (hs : List Handle) (l : List Event) :
    ((hs.map g).reverse ++ l).filter (!·.onHandle) = l.filter (!·.onHandle) := by
  have hnil : (hs.map g).reverse.filter (!·.onHandle) = [] := by
    rw [List.filter_eq_nil_iff]
    intro e he
    obtain ⟨h, -, rfl⟩ := List.mem_map.mp (List.mem_reverse.mp he)
    simp [hg h]
  rw [List.filter_append, hnil, List.nil_append]

@[simp] theorem notes_freePending (s : H3Session) : s.freePending.notes = s.notes :=
  notes_map (fun _ => rfl) _ _

theorem mem_trace_of_notes {e : Event} (h : e ∈ s.notes) : e ∈ s.trace := (List.mem_filter.mp h).1

theorem mem_notes {e : Event} (h : e ∈ s.trace) (he : e.onHandle = false) : e ∈ s.notes :=
  List.mem_filter.mpr ⟨h, by rw [he]; rfl⟩

theorem Still.refl (s : H3Session) : Still s s := ⟨rfl, rfl, .refl s⟩

theorem Still.trans (h : Still s s') (h' : Still s' s'') : Still s s'' :=
  ⟨h'.notes.trans h.notes, h'.pending.trans h.pending, h.requests.trans h'.requests⟩

theorem still_modify (s : H3Session) (sid : ℤ) {f : H3Stream → H3Stream}
    (hf : ∀ o, SameRequest o (f o)) : Still s (s.modify sid f) :=
  ⟨rfl, rfl, sameRequests_modify s sid hf⟩

theorem still_logOp (s : H3Session) (o : HandleOp) (h : Option Handle) : Still s (s.logOp o h) := by
  refine ⟨notes_logOp s o h, ?_, .of_obj (H3Session.logOp_obj s o h)⟩
  cases h <;> rfl

theorem still_freePending (s : H3Session) : Still s s.freePending :=
  ⟨notes_freePending s, rfl, .refl s⟩

theorem still_reclaim (snapshot : List ℤ) (s : H3Session) : Still s (s.reclaim snapshot) := by
  induction snapshot generalizing s with
  | nil => exact .refl s
  | cons sid rest ih =>
    have hstep : Still s (s.reclaimStream sid) := by
      unfold H3Session.reclaimStream
      split
      · have hm := still_modify s sid (f := fun o => { o with writeBlocked := false, pool := false })
          fun _ => ⟨rfl, rfl, rfl, rfl, rfl, rfl, rfl, rfl⟩
        exact hm.trans ⟨rfl, rfl, .of_obj rfl⟩
      · exact .refl s
    exact hstep.trans (ih _)

theorem reclaim_ngh3Dead (snapshot : List ℤ) (s : H3Session) :
    (s.reclaim snapshot).ngh3Dead = s.ngh3Dead := by
  induction snapshot generalizing s with
  | nil => rfl
  | cons sid rest ih =>
    refine (ih _).trans ?_
    unfold H3Session.reclaimStream
    split <;> rfl

private theorem still_responseCancel (sids : List ℤ) (s : H3Session) :
    Still s (sids.foldl (fun s sid => s.modify sid H3Stream.responseCancel) s) := by
  induction sids generalizing s with
  | nil => exact .refl s
  | cons sid rest ih =>
    have hm : Still s (s.modify sid H3Stream.responseCancel) :=
      still_modify s sid fun _ => ⟨rfl, rfl, rfl, rfl, rfl, rfl, rfl, rfl⟩
    exact hm.trans (ih _)

theorem still_destroy (s : H3Session) : Still s s.destroy := by
  have hn : Still s { s with ngh3 := false } := ⟨rfl, rfl, .of_obj rfl⟩
  exact (hn.trans (still_responseCancel s.streams _)).trans (still_freePending _)

end

/-! Flushing moves no request, but for the callbacks that nghttp3 makes meanwhile. -/
section
variable {conf : SessionConf} {s s' : H3Session} {a : Answer}

theorem still_writeBlocked (s : H3Session) (sid : ℤ) (b : Bool) (n : ℤ) :
    Still s { s.modify sid (fun o => { o with writeBlocked := b }) with blockedStreams := n } := by
  have hm := still_modify s sid (f := fun o => { o with writeBlocked := b })
    fun _ => ⟨rfl, rfl, rfl, rfl, rfl, rfl, rfl, rfl⟩
  exact hm.trans ⟨rfl, rfl, .of_obj rfl⟩

private theorem unblockStep_still {sid : ℤ} (h : s.unblockStep sid a = some s') :
    Still s s' ∧ s'.ngh3Dead = s.ngh3Dead := by
  unfold H3Session.unblockStep at h
  split_ifs at h
  · cases h
    exact ⟨.refl s, rfl⟩
  · cases h
    exact ⟨still_writeBlocked s sid false _, rfl⟩
  · split at h
    · have hop := still_logOp s .isWriteBlocked (s.qstream sid)
      have hdead := H3Session.logOp_ngh3Dead s .isWriteBlocked (s.qstream sid)
      cases h
      split
      · exact ⟨hop, hdead⟩
      · exact ⟨hop.trans (still_writeBlocked _ sid false _), hdead⟩
    · cases h

theorem flushStep_still {pc pc' : FlushPc} (h : flushStep conf s pc a = some (s', pc')) :
    (∃ cb, a = .callback cb ∧ s' = s.callback conf cb ∧ pc' = pc) ∨
      Still s s' ∧ (s.ngh3Dead → s'.ngh3Dead) := by
  unfold flushStep at h
  split at h
  · cases h
    exact .inr ⟨.refl s, id⟩
  · obtain ⟨s₁, hu, he⟩ := Option.map_eq_some_iff.mp h
    cases he
    obtain ⟨hs, hd⟩ := unblockStep_still hu
    exact .inr ⟨hs, fun h => hd.trans h⟩
  · cases h
    exact .inl ⟨_, rfl, rfl, rfl⟩
  · rename_i err
    cases h
    have hd : Still s (s.markNgh3Dead err) := ⟨rfl, rfl, .of_obj rfl⟩
    exact .inr ⟨hd.trans (still_freePending _), fun _ => rfl⟩
  · cases h
    exact .inr ⟨still_freePending s, id⟩
  · cases h
    exact .inr ⟨.refl s, id⟩
  · cases h
    exact .inr ⟨still_logOp s .write _, fun h => (H3Session.logOp_ngh3Dead s .write _).trans h⟩
  · cases h
    exact .inl ⟨_, rfl, rfl, rfl⟩
  · rename_i blocked _
    cases h
    cases blocked with
    | none => exact .inr ⟨.refl s, id⟩
    | some sid =>
      dsimp only [Option.elim_some]
      unfold H3Session.blockStream
      split_ifs
      · exact .inr ⟨.refl s, id⟩
      · exact .inr ⟨still_writeBlocked s sid true _, id⟩
  · cases h

end

/-! Callbacks and the steps of a visit, as far as the notes and nghttp3's state go. -/
section
variable (conf : SessionConf) (s : H3Session)

/-- What a callback that finds its stream leaves on record. -/
def Callback.note : Callback → List Event
  | .endHeaders sid _ => [.headersEnded sid]
  | .streamClose sid => [.closed sid]
  | _ => []

theorem callback_notes (cb : Callback) :
    (s.callback conf cb).notes = if s.finds cb then cb.note ++ s.notes else s.notes := by
  unfold H3Session.callback
  split_ifs with hf
  · cases cb with
    | stopSending sid => exact notes_release s sid _
    | resetStream sid => exact notes_logOp s .reset _
    | streamClose sid => exact notes_release (s.log (.closed sid)) sid _
    | _ => rfl
  · rfl

theorem callback_ngh3Dead (cb : Callback) : (s.callback conf cb).ngh3Dead = s.ngh3Dead := by
  unfold H3Session.callback
  split_ifs with hf
  · cases cb with
    | stopSending sid => exact H3Session.queueFree_ngh3Dead s _
    | resetStream sid => exact H3Session.logOp_ngh3Dead s .reset _
    | streamClose sid => exact H3Session.queueFree_ngh3Dead (s.log (.closed sid)) _
    | _ => rfl
  · rfl

theorem onRecvData_sameRequest (data : Bytes) (o : H3Stream) :
    SameRequest o (onRecvData conf data o) := by
  unfold onRecvData
  dsimp only
  split_ifs <;> exact ⟨rfl, rfl, rfl, rfl, rfl, rfl, rfl, rfl⟩

/-- What a callback that finds its stream does to it. -/
def Callback.onStream (conf : SessionConf) : Callback → H3Stream → H3Stream
  | .beginHeaders _ => onBeginHeaders
  | .recvHeader _ field => onRecvHeader conf field
  | .endHeaders _ fin => onEndHeaders fin
  | .recvData _ data => onRecvData conf data
  | .stopSending _ => onStopSending
  | .resetStream _ => onResetStream
  | .streamClose _ => onStreamClose
  | .responseData _ => id

private theorem modify_id (sid : ℤ) : s.modify sid id = s := by
  unfold H3Session.modify
  rw [Option.map_id, id, Function.update_eq_self]

theorem deliver_obj (cb : Callback) :
    (s.deliver conf cb).obj = (s.modify cb.sid (cb.onStream conf)).obj := by
  cases cb with
  | stopSending sid => exact H3Session.release_obj s sid _
  | resetStream sid => exact H3Session.modify_obj_congr (H3Session.logOp_obj s _ _) sid _
  | streamClose sid => exact H3Session.release_obj (s.log (.closed sid)) sid _
  | responseData sid => exact congrArg _ (modify_id s sid).symm
  | _ => rfl

variable {s} in
/-- A fact about all streams survives a change of one, if it holds of that one afterwards. -/
theorem modify_forall {sid : ℤ} {f : H3Stream → H3Stream} {P Q : ℤ → H3Stream → Prop}
    (hP : ∀ x o, s.obj x = some o → P x o) (hPQ : ∀ x o, x ≠ sid → P x o → Q x o)
    (hf : ∀ o, s.obj sid = some o → P sid o → Q sid (f o)) :
    ∀ x o, (s.modify sid f).obj x = some o → Q x o := by
  intro x o ho
  by_cases hx : x = sid
  · subst hx
    rw [H3Session.modify_obj_self] at ho
    obtain ⟨o₀, ho₀, rfl⟩ := Option.map_eq_some_iff.mp ho
    exact hf o₀ ho₀ (hP x o₀ ho₀)
  · rw [H3Session.modify_obj_ne s f hx] at ho
    exact hPQ x o hx (hP x o ho)

variable {s} in
theorem callback_forall {cb : Callback} {P : ℤ → H3Stream → Prop}
    (hP : ∀ x o, s.obj x = some o → P x o)
    (hcb : s.finds cb → ∀ o, s.obj cb.sid = some o → P cb.sid o → P cb.sid (cb.onStream conf o)) :
    ∀ x o, (s.callback conf cb).obj x = some o → P x o := by
  unfold H3Session.callback
  split_ifs with hf
  · rw [deliver_obj]
    exact modify_forall hP (fun _ _ _ h => h) (hcb hf)
  · exact hP

end

end ModHttp3.Session
