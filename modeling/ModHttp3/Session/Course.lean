import ModHttp3.Session.Lifecycle

/-! The two flags that decide the course of a session's passes. Nothing that a drain or a flush does, no
callback of nghttp3 and no worker changes them. -/
namespace ModHttp3.Session

/-- `aborted` and `goaway_sent`. -/
structure Course where
  aborted : Bool
  goawaySent : Bool
  deriving DecidableEq, Repr

def H3Session.course (s : H3Session) : Course := ⟨s.aborted, s.goawaySent⟩

section
variable (s : H3Session)

@[simp] theorem log_course (e : Event) : (s.log e).course = s.course := rfl

@[simp] theorem logOp_course (o : HandleOp) (h : Option Handle) : (s.logOp o h).course = s.course := by
  cases h <;> rfl

@[simp] theorem modify_course (sid : ℤ) (f : H3Stream → H3Stream) : (s.modify sid f).course = s.course := rfl

@[simp] theorem queueFree_course (h : Option Handle) : (s.queueFree h).course = s.course := by
  cases h <;> rfl

@[simp] theorem release_course (sid : ℤ) (f : H3Stream → H3Stream) : (s.release sid f).course = s.course :=
  queueFree_course s _

@[simp] theorem freePending_course : s.freePending.course = s.course := rfl

@[simp] theorem markNgh3Dead_course (err : LibErr) : (s.markNgh3Dead err).course = s.course := rfl

@[simp] theorem foldl_modify_course (f : H3Stream → H3Stream) (sids : List ℤ) :
    (sids.foldl (fun s sid => s.modify sid f) s).course = s.course := by
  induction sids generalizing s with
  | nil => rfl
  | cons sid sids ih => exact ih (s.modify sid f)

@[simp] theorem abandon_course (sids : List ℤ) : (s.abandonStalledResponses sids).course = s.course :=
  foldl_modify_course s _ sids

@[simp] theorem destroy_course : s.destroy.course = s.course :=
  foldl_modify_course { s with ngh3 := false } _ s.streams

@[simp] theorem reclaim_course (snapshot : List ℤ) : (s.reclaim snapshot).course = s.course := by
  have hone : ∀ (s : H3Session) sid, (s.reclaimStream sid).course = s.course := by
    intro s sid
    unfold H3Session.reclaimStream
    split_ifs <;> rfl
  unfold H3Session.reclaim
  induction snapshot generalizing s with
  | nil => rfl
  | cons sid rest ih => exact (ih (s.reclaimStream sid)).trans (hone s sid)

@[simp] theorem callback_course (conf : SessionConf) (cb : Callback) : (s.callback conf cb).course = s.course := by
  unfold H3Session.callback
  split
  · cases cb <;> simp [H3Session.deliver]
  · rfl

theorem acceptStream_course {h : Handle} {sid : ℤ} (created : Bool) (hans : s.acceptAnswer h sid) :
    (s.acceptStream h sid created).course = s.course := by
  apply H3Session.acceptStream_cases created hans (P := fun s' => s'.course = s.course)
  · rfl
  · rfl
  · exact fun _ _ => rfl

theorem createControlStreams_course {opened : List (Option (ℤ × Handle))} {bound : Bool}
    {created : List Bool} (hans : s.controlAnswer opened created) :
    (s.createControlStreams opened bound created).1.course = s.course := by
  apply H3Session.createControlStreams_cases hans (P := fun s' => s'.course = s.course)
  · rfl
  · exact fun s' x _ _ hs => hs
  · exact fun s' hs => hs
  · exact fun s' hs => hs

@[simp] theorem finDone_course (sid : ℤ) (origin : FinFrom) : (s.finDone sid origin).1.course = s.course := by
  cases origin <;> rfl

@[simp] theorem rejectMalformedStream_course (sid : ℤ) (origin : RejectFrom) :
    (s.rejectMalformedStream sid origin).1.course = s.course := logOp_course s _ _

@[simp] theorem rejectCounted_course (conf : SessionConf) (sid : ℤ) :
    (s.rejectCounted conf sid).course = s.course := by
  unfold H3Session.rejectCounted
  dsimp only
  split_ifs <;> rfl

private theorem callReturned_course (conf : SessionConf) (sid : ℤ) (err : Option LibErr) (call : LibCall) :
    (s.callReturned conf sid err call).1.course = s.course := by
  cases call with
  | read =>
    unfold H3Session.callReturned H3Session.readReturned
    cases err <;> dsimp only <;> split_ifs <;> first | rfl | exact rejectMalformedStream_course _ sid _
  | fin origin =>
    unfold H3Session.callReturned H3Session.finReturned
    cases err <;> dsimp only <;> split_ifs <;>
      first | exact rejectMalformedStream_course _ sid _ | exact finDone_course _ sid origin
  | shutdown origin => rfl
  | close origin =>
    cases origin with
    | read => exact rejectCounted_course s conf sid
    | fin origin => exact (finDone_course _ sid origin).trans (rejectCounted_course s conf sid)
  | closeEnded => rfl

end

section
variable {conf : SessionConf} {s s' : H3Session} {a : Answer}

private theorem unblockStep_course {sid : ℤ} (h : s.unblockStep sid a = some s') : s'.course = s.course := by
  unfold H3Session.unblockStep at h
  split_ifs at h
  · cases h
    rfl
  · cases h
    rfl
  · split at h
    · cases h
      split_ifs <;> exact logOp_course s _ _
    · cases h

theorem flushStep_course {pc pc' : FlushPc} (h : flushStep conf s pc a = some (s', pc')) :
    s'.course = s.course := by
  unfold flushStep at h
  split at h
  · cases h
    rfl
  · obtain ⟨s₁, hs, he⟩ := Option.map_eq_some_iff.mp h
    cases he
    exact unblockStep_course hs
  · cases h
    exact callback_course s conf _
  · cases h
    rfl
  · cases h
    rfl
  · cases h
    rfl
  · cases h
    exact logOp_course s _ _
  · cases h
    exact callback_course s conf _
  · rename_i blocked _
    cases h
    cases blocked with
    | none => rfl
    | some sid =>
      dsimp only [Option.elim]
      unfold H3Session.blockStream
      split_ifs <;> rfl
  · cases h

private theorem visitLoop_course {sid : ℤ} {d d' : Drain} {v : VisitPc} (h : visitLoop conf sid s d a = some (s', d', v)) :
    s'.course = s.course := by
  unfold visitLoop at h
  split_ifs at h
  · cases h
    rfl
  · cases h
    rfl
  · dsimp only at h
    split at h
    · split_ifs at h
      cases h
      exact logOp_course s _ _
    · cases h
      exact logOp_course s _ _
    · cases h
      exact logOp_course s _ _
    · cases h

private theorem visitStep_course {sid : ℤ} {d d' : Drain} {v v' : VisitPc}
    (h : visitStep conf sid s d v a = some (s', d', v')) : s'.course = s.course := by
  unfold visitStep at h
  split at h
  · cases h
    unfold H3Session.visitEnter
    dsimp only
    split_ifs <;> exact logOp_course s _ _
  · exact visitLoop_course h
  · cases h
    exact callback_course s conf _
  · cases h
    exact callReturned_course s conf sid _ _
  · cases h

theorem drainStep_course {d d' : Drain} {pc pc' : DrainPc} (h : drainStep conf s d pc a = some (s', d', pc')) :
    s'.course = s.course := by
  have hlist : ∀ sid rejected, (drainList s d sid rejected).1.course = s.course := by
    intro sid rejected
    unfold drainList
    split_ifs <;> rfl
  have hnext : ∀ (s : H3Session) d, (drainNext s d).1.course = s.course := by
    intro s d
    unfold drainNext
    split_ifs
    · exact reclaim_course _ _
    · rfl
  unfold drainStep at h
  split at h
  · have hscan : (drainScan s d).1.course = s.course := by
      unfold drainScan
      split_ifs
      · exact reclaim_course s _
      · dsimp only
        split_ifs <;> rfl
    rwa [Option.some.inj h] at hscan
  · rename_i sid rejected
    have hleave := (hnext (drainList s d sid rejected).1 (drainList s d sid rejected).2).trans (hlist sid rejected)
    rwa [Option.some.inj h] at hleave
  · obtain ⟨⟨s₁, d₁, v⟩, hv, he⟩ := Option.map_eq_some_iff.mp h
    cases he
    exact visitStep_course hv
  · cases h

end

end ModHttp3.Session
