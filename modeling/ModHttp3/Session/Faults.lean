import ModHttp3.Session.Visit

/-! The error counter of a session and how its connection will be closed, and the steps of a
drain or a flush that change them. -/
namespace ModHttp3.Session

/-- `stream_errors`, `ngh3_dead`, and what the abort code is derived from. -/
structure Faults where
  streamErrors : ℕ
  ngh3Dead : Bool
  abortCause : Option AbortCause
  deriving DecidableEq, Repr

def H3Session.faults (s : H3Session) : Faults := ⟨s.streamErrors, s.ngh3Dead, s.abortCause⟩

/-- nghttp3 has failed. -/
def Faults.die (f : Faults) (err : LibErr) : Faults := ⟨f.streamErrors, true, some (.lib err)⟩

/-- One more stream is rejected. -/
def Faults.count (conf : SessionConf) (f : Faults) : Faults :=
  if conf.maxStreamErrors < f.streamErrors + 1 then ⟨f.streamErrors + 1, true, some .excessiveLoad⟩
  else ⟨f.streamErrors + 1, f.ngh3Dead, f.abortCause⟩

/-- The stream is being read, or rejected but not yet counted. -/
def VisitPc.isOpen : VisitPc → Bool
  | .enter | .loop => true
  | .inside call => call != .closeEnded
  | .leave _ => false

/-- The stream that is being read or rejected. -/
def DrainPc.reads : DrainPc → Option ℤ
  | .visit sid v => if v.isOpen then some sid else none
  | _ => none

/-- The stream whose rejection is counted now. -/
def DrainPc.rejects : DrainPc → Answer → Option ℤ
  | .visit sid (.inside (.close _)), .returned _ => some sid
  | _, _ => none

section
variable (s : H3Session)

@[simp] theorem log_faults (e : Event) : (s.log e).faults = s.faults := rfl

@[simp] theorem logOp_faults (o : HandleOp) (h : Option Handle) : (s.logOp o h).faults = s.faults := by
  cases h <;> rfl

@[simp] theorem modify_faults (sid : ℤ) (f : H3Stream → H3Stream) : (s.modify sid f).faults = s.faults := rfl

@[simp] theorem queueFree_faults (h : Option Handle) : (s.queueFree h).faults = s.faults := by
  cases h <;> rfl

@[simp] theorem release_faults (sid : ℤ) (f : H3Stream → H3Stream) : (s.release sid f).faults = s.faults :=
  queueFree_faults s _

@[simp] theorem freePending_faults : s.freePending.faults = s.faults := rfl

@[simp] theorem addStream_faults (sid : ℤ) (h : Handle) : (s.addStream sid h).faults = s.faults := rfl

@[simp] theorem markNgh3Dead_faults (err : LibErr) : (s.markNgh3Dead err).faults = s.faults.die err := rfl

@[simp] theorem rejectCounted_faults (conf : SessionConf) (sid : ℤ) :
    (s.rejectCounted conf sid).faults = s.faults.count conf := by
  unfold H3Session.rejectCounted
  dsimp only
  split
  · rename_i hlimit
    exact (if_pos hlimit).symm
  · rename_i hlimit
    exact (if_neg hlimit).symm

theorem foldl_modify_faults (f : H3Stream → H3Stream) (sids : List ℤ) :
    (sids.foldl (fun s sid => s.modify sid f) s).faults = s.faults := by
  induction sids generalizing s with
  | nil => rfl
  | cons sid sids ih => exact ih (s.modify sid f)

@[simp] theorem abandon_faults (sids : List ℤ) : (s.abandonStalledResponses sids).faults = s.faults :=
  foldl_modify_faults s _ sids

@[simp] theorem destroy_faults : s.destroy.faults = s.faults :=
  foldl_modify_faults { s with ngh3 := false } _ s.streams

@[simp] theorem reclaim_faults (snapshot : List ℤ) : (s.reclaim snapshot).faults = s.faults := by
  have hone : ∀ (s : H3Session) sid, (s.reclaimStream sid).faults = s.faults := by
    intro s sid
    unfold H3Session.reclaimStream
    split_ifs <;> rfl
  unfold H3Session.reclaim
  induction snapshot generalizing s with
  | nil => rfl
  | cons sid rest ih => exact (ih (s.reclaimStream sid)).trans (hone s sid)

@[simp] theorem callback_faults (conf : SessionConf) (cb : Callback) :
    (s.callback conf cb).faults = s.faults := by
  unfold H3Session.callback
  split
  · cases cb <;> simp [H3Session.deliver]
  · rfl

theorem acceptStream_faults {h : Handle} {sid : ℤ} (created : Bool) (hans : s.acceptAnswer h sid) :
    (s.acceptStream h sid created).faults = s.faults := by
  apply H3Session.acceptStream_cases created hans (P := fun s' => s'.faults = s.faults)
  · rfl
  · rfl
  · exact fun _ _ => rfl

theorem createControlStreams_faults {opened : List (Option (ℤ × Handle))} {bound : Bool}
    {created : List Bool} (hans : s.controlAnswer opened created) :
    (s.createControlStreams opened bound created).1.faults = s.faults := by
  apply H3Session.createControlStreams_cases hans (P := fun s' => s'.faults = s.faults)
  · rfl
  · exact fun s' x _ _ hs => hs
  · exact fun s' hs => hs
  · exact fun s' hs => hs

private theorem unblockStep_faults {s s' : H3Session} {sid : ℤ} {a : Answer} (h : s.unblockStep sid a = some s') :
    s'.faults = s.faults := by
  unfold H3Session.unblockStep at h
  split_ifs at h
  · cases h
    rfl
  · cases h
    rfl
  · split at h
    · cases h
      split_ifs
      · exact logOp_faults s _ _
      · exact logOp_faults s _ _
    · cases h

end

section
variable {conf : SessionConf} {s s' : H3Session} {a : Answer}

/-- Of a flush, only the failure of `nghttp3_conn_writev_stream` matters, and it ends the flush. -/
theorem flushStep_faults {pc pc' : FlushPc} (h : flushStep conf s pc a = some (s', pc')) :
    pc ≠ .returned ∧ (s'.faults = s.faults ∨
      pc' = .returned ∧ ∃ err, s'.faults = s.faults.die err) := by
  unfold flushStep at h
  split at h
  · cases h
    exact ⟨nofun, .inl rfl⟩
  · obtain ⟨s₁, hs, he⟩ := Option.map_eq_some_iff.mp h
    cases he
    exact ⟨nofun, .inl (unblockStep_faults hs)⟩
  · cases h
    exact ⟨nofun, .inl (callback_faults s conf _)⟩
  · cases h
    exact ⟨nofun, .inr ⟨rfl, _, rfl⟩⟩
  · cases h
    exact ⟨nofun, .inl rfl⟩
  · cases h
    exact ⟨nofun, .inl rfl⟩
  · cases h
    exact ⟨nofun, .inl (logOp_faults s _ _)⟩
  · cases h
    exact ⟨nofun, .inl (callback_faults s conf _)⟩
  · rename_i blocked _
    cases h
    refine ⟨nofun, .inl ?_⟩
    cases blocked with
    | none => rfl
    | some sid =>
      dsimp only [Option.elim]
      unfold H3Session.blockStream
      split_ifs <;> rfl
  · cases h

/-- What a step of a drain does to the faults: nothing, and then it may begin to read a stream that
is not done; or nghttp3 fails, or a rejection is counted, and then the stream is not read further. -/
inductive DrainFault (conf : SessionConf) (s : H3Session) (pc : DrainPc) (a : Answer) (s' : H3Session)
    (pc' : DrainPc) : Prop
  | same (hr : pc.rejects a = none) (hf : s'.faults = s.faults)
      (hpc : ∀ sid, pc'.reads = some sid → pc.reads = some sid ∨
        s.ngh3Dead = false ∧ ∃ o, s.obj sid = some o ∧ o.done = false)
  | died (err : LibErr) (hr : pc.rejects a = none) (hpc : pc.reads.isSome) (hf : s'.faults = s.faults.die err)
      (hpc' : pc'.reads = none)
  | counted (sid : ℤ) (hr : pc.rejects a = some sid) (hpc : pc.reads = some sid)
      (hf : s'.faults = s.faults.count conf) (hpc' : pc'.reads = none)
      (hdone : ∀ o, s.obj sid = some o → ∃ o', s'.obj sid = some o' ∧ o'.done)

private theorem reads_none_of_afterFin (s : H3Session) (sid : ℤ) (writeFinished : Bool) :
    (DrainPc.visit sid (s.closeIfFinished sid writeFinished)).reads = none := by
  unfold H3Session.closeIfFinished
  split_ifs <;> rfl

theorem finDone_faults (sid : ℤ) (origin : FinFrom) :
    (s.finDone sid origin).1.faults = s.faults ∧ (DrainPc.visit sid (s.finDone sid origin).2).reads = none := by
  cases origin with
  | finished writeFinished => exact ⟨rfl, reads_none_of_afterFin _ sid writeFinished⟩
  | zeroReturn => exact ⟨rfl, rfl⟩

private theorem finDone_done {sid : ℤ} (origin : FinFrom) {o : H3Stream} (ho : s.obj sid = some o) (hd : o.done) :
    ∃ o', (s.finDone sid origin).1.obj sid = some o' ∧ o'.done := by
  rw [finDone_fst, H3Session.modify_obj_self, ho]
  exact ⟨_, rfl, hd⟩

theorem rejectCounted_done (conf : SessionConf) {sid : ℤ} {o : H3Stream} (ho : s.obj sid = some o) :
    ∃ o', (s.rejectCounted conf sid).obj sid = some o' ∧ o'.done := by
  rw [rejectCounted_obj, H3Session.modify_obj_self, ho]
  exact ⟨_, rfl, rfl⟩

theorem reject_fault (sid : ℤ) {err : Option LibErr} {call : LibCall} (origin : RejectFrom)
    (hcall : (VisitPc.inside call).isOpen) (hr : (DrainPc.visit sid (.inside call)).rejects (.returned err) = none)
    (hf : s'.faults = s.faults) :
    DrainFault conf s (.visit sid (.inside call)) (.returned err) (s'.rejectMalformedStream sid origin).1
      (.visit sid (s'.rejectMalformedStream sid origin).2) := by
  refine .same hr ((logOp_faults s' _ _).trans hf) fun x hx => .inl ?_
  cases hx
  exact if_pos hcall

private theorem readReturned_fault (sid : ℤ) (err : Option LibErr) :
    DrainFault conf s (.visit sid (.inside .read)) (.returned err) (s.readReturned sid err).1
      (.visit sid (s.readReturned sid err).2) := by
  unfold H3Session.readReturned
  cases err with
  | none =>
    dsimp only
    split
    · exact reject_fault sid .read rfl rfl rfl
    · refine .same rfl rfl fun x hx => .inl ?_
      dsimp only at hx
      split_ifs at hx
      · cases hx
      · exact hx
  | some e =>
    dsimp only
    split
    · exact reject_fault sid .read rfl rfl rfl
    · exact .died e rfl rfl rfl rfl

private theorem finReturned_fault (sid : ℤ) (origin : FinFrom) (err : Option LibErr) :
    DrainFault conf s (.visit sid (.inside (.fin origin))) (.returned err) (s.finReturned sid origin err).1
      (.visit sid (s.finReturned sid origin err).2) := by
  unfold H3Session.finReturned
  cases err with
  | none =>
    dsimp only
    split
    · exact reject_fault sid (.fin origin) rfl rfl rfl
    · obtain ⟨hf, hpc⟩ := finDone_faults (s := s) sid origin
      refine .same rfl hf fun x hx => ?_
      rw [hpc] at hx
      cases hx
  | some e =>
    dsimp only
    split
    · exact reject_fault sid (.fin origin) rfl rfl rfl
    · obtain ⟨hf, hpc⟩ := finDone_faults (s := s.markNgh3Dead e) sid origin
      exact .died e rfl rfl hf hpc

/-- nghttp3 has returned to the visit of a stream. -/
private theorem callReturned_fault (sid : ℤ) (err : Option LibErr) (call : LibCall) :
    DrainFault conf s (.visit sid (.inside call)) (.returned err) (s.callReturned conf sid err call).1
      (.visit sid (s.callReturned conf sid err call).2) := by
  cases call with
  | read => exact readReturned_fault sid err
  | fin origin => exact finReturned_fault sid origin err
  | shutdown origin => exact .same rfl rfl fun x hx => .inl hx
  | close origin =>
    cases origin with
    | read =>
      refine .counted sid rfl rfl (rejectCounted_faults s conf sid) rfl fun o ho => rejectCounted_done conf ho
    | fin origin =>
      obtain ⟨hf, hpc⟩ := finDone_faults (s := s.rejectCounted conf sid) sid origin
      refine .counted sid rfl rfl (hf.trans (rejectCounted_faults s conf sid)) hpc fun o ho => ?_
      obtain ⟨o', ho', hd⟩ := rejectCounted_done conf ho
      exact finDone_done origin ho' hd
  | closeEnded => exact .same rfl rfl nofun

private theorem visitLoop_fault {sid : ℤ} {d d' : Drain} {v : VisitPc} (h : visitLoop conf sid s d a = some (s', d', v)) :
    DrainFault conf s (.visit sid .loop) a s' (.visit sid v) := by
  have hstay : ∀ x, (DrainPc.visit sid v).reads = some x → (DrainPc.visit sid .loop).reads = some x := by
    intro x hx
    unfold DrainPc.reads at hx
    dsimp only at hx
    split_ifs at hx
    exact hx
  have hf : s'.faults = s.faults := by
    unfold visitLoop at h
    split_ifs at h
    · cases h
      rfl
    · cases h
      rfl
    · dsimp only at h
      split at h
      · split_ifs at h
        cases h
        exact logOp_faults s _ _
      · cases h
        exact logOp_faults s _ _
      · cases h
        exact logOp_faults s _ _
      · cases h
  exact .same rfl hf fun x hx => .inl (hstay x hx)

private theorem visitStep_fault {sid : ℤ} {d d' : Drain} {v v' : VisitPc}
    (h : visitStep conf sid s d v a = some (s', d', v')) :
    DrainFault conf s (.visit sid v) a s' (.visit sid v') := by
  unfold visitStep at h
  split at h
  · rename_i rstate wstate
    cases h
    have hf : (s.visitEnter sid rstate wstate).1.faults = s.faults := by
      unfold H3Session.visitEnter
      dsimp only
      split_ifs <;> exact logOp_faults s _ _
    refine .same rfl hf fun x hx => .inl ?_
    unfold DrainPc.reads at hx
    dsimp only at hx
    split_ifs at hx
    exact hx
  · exact visitLoop_fault h
  · cases h
    exact .same (by unfold DrainPc.rejects; split <;> trivial) (callback_faults s conf _) fun x hx => .inl hx
  · cases h
    exact callReturned_fault sid _ _
  · cases h

private theorem drainScan_fault (d : Drain) :
    DrainFault conf s .scan .go (drainScan s d).1 (drainScan s d).2.2 := by
  unfold drainScan
  split
  · exact .same rfl (reclaim_faults s _) nofun
  · rename_i halive
    dsimp only
    split
    · exact .same rfl rfl nofun
    · rename_i hvisit
      refine .same rfl rfl fun x hx => .inr ?_
      cases hx
      simp only [Bool.or_eq_true, not_or, Bool.not_eq_true] at halive hvisit
      obtain ⟨⟨hdone, hq⟩, -⟩ := hvisit
      refine ⟨halive.1, ?_⟩
      obtain ⟨g, hg⟩ := Option.isSome_iff_exists.mp (Option.isNone_eq_false_iff.mp hq)
      obtain ⟨o, ho, -⟩ := Option.bind_eq_some_iff.mp hg
      rw [H3Session.has_of_obj ho] at hdone
      exact ⟨o, ho, hdone⟩

private theorem drainLeave_fault (d : Drain) (sid : ℤ) (rejected : Bool) :
    DrainFault conf s (.visit sid (.leave rejected)) .go
      (drainNext (drainList s d sid rejected).1 (drainList s d sid rejected).2).1
      (drainNext (drainList s d sid rejected).1 (drainList s d sid rejected).2).2.2 := by
  have hlist : (drainList s d sid rejected).1.faults = s.faults := by
    unfold drainList
    split_ifs <;> rfl
  unfold drainNext
  split
  · exact .same rfl ((reclaim_faults _ _).trans hlist) nofun
  · exact .same rfl hlist nofun

/-- What a step of a drain does to the faults. -/
theorem drainStep_fault {d d' : Drain} {pc pc' : DrainPc} (h : drainStep conf s d pc a = some (s', d', pc')) :
    DrainFault conf s pc a s' pc' := by
  unfold drainStep at h
  split at h
  · have he := Option.some.inj h
    have hscan : DrainFault conf s .scan .go (drainScan s d).1 (drainScan s d).2.2 := drainScan_fault d
    rwa [he] at hscan
  · rename_i sid rejected
    have he := Option.some.inj h
    have hleave : DrainFault conf s (.visit sid (.leave rejected)) .go _ _ := drainLeave_fault d sid rejected
    rwa [he] at hleave
  · obtain ⟨⟨s₁, d₁, v⟩, hv, he⟩ := Option.map_eq_some_iff.mp h
    cases he
    exact visitStep_fault hv
  · cases h

end

end ModHttp3.Session
