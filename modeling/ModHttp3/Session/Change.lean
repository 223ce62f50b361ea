import ModHttp3.Session.Lifecycle
import Mathlib.Logic.Relation

/-! What draining, flushing and nghttp3's callbacks can do to a session, as a list of
elementary changes. Facts about handles, tasks and the stream table are proved of these. -/
namespace ModHttp3.Session

/-- The callback gives up the stream's handle. -/
def Callback.releases : Callback → Bool
  | .stopSending _ | .streamClose _ => true
  | _ => false

/-- What no drain, flush or callback changes in a stream, and what it never takes back. -/
structure Kept (o o' : H3Stream) : Prop where
  streamId : o'.streamId = o.streamId
  isBidi : o'.isBidi = o.isBidi
  dispatched : o'.dispatched = o.dispatched
  workerDone : o'.workerDone = o.workerDone
  pool : o'.pool = o.pool
  done : o.done → o'.done
  bodyComplete : o.bodyComplete → o'.bodyComplete

/-- The fields that the changes other than `mark` and `release` are about. -/
structure SameStreams (s s' : H3Session) : Prop where
  streams : s'.streams = s.streams
  obj : s'.obj = s.obj
  pendingFree : s'.pendingFree = s.pendingFree
  trace : s'.trace = s.trace
  activeTasks : s'.activeTasks = s.activeTasks
  controlStreamsCreated : s'.controlStreamsCreated = s.controlStreamsCreated

/-- An elementary change. `V` are the streams that may be read, `R` those whose handle may be
queued for freeing. -/
inductive Change (V R : ℤ → Prop) : H3Session → H3Session → Prop
  | op (s : H3Session) (o : HandleOp) (sid : ℤ) : Change V R s (s.logOp o (s.qstream sid))
  | note (s : H3Session) (e : Event) (he : e.onHandle = false) : Change V R s (s.log e)
  | mark (s : H3Session) (sid : ℤ) (f : H3Stream → H3Stream) (hk : ∀ o, Kept o (f o))
      (hq : ∀ o, (f o).qstream = o.qstream) (hu : ∀ o, (f o).userData = o.userData) :
      Change V R s (s.modify sid f)
  | attach (s : H3Session) (sid : ℤ) (hf : s.finds (.beginHeaders sid)) :
      Change V R s (s.modify sid onBeginHeaders)
  | release (s : H3Session) (sid : ℤ) (f : H3Stream → H3Stream) (hr : R sid)
      (hf : s.has sid (·.userData)) (hk : ∀ o, Kept o (f o)) (hq : ∀ o, (f o).qstream = none)
      (hd : ∀ o, (f o).done) (hu : ∀ o, (f o).userData = o.userData) :
      Change V R s (s.release sid f)
  | free (s : H3Session) : Change V R s s.freePending
  | other (s s' : H3Session) (hs : SameStreams s s')
      (hp : ∀ sid, s'.pending = some sid → s.pending = some sid ∨ V sid) : Change V R s s'

def Changes (V R : ℤ → Prop) : H3Session → H3Session → Prop := Relation.ReflTransGen (Change V R)

section
variable {V R : ℤ → Prop} {s s' s'' : H3Session}

theorem Changes.refl (s : H3Session) : Changes V R s s := Relation.ReflTransGen.refl

theorem Changes.trans (h : Changes V R s s') (h' : Changes V R s' s'') : Changes V R s s'' :=
  Relation.ReflTransGen.trans h h'

theorem Change.changes (h : Change V R s s') : Changes V R s s' := Relation.ReflTransGen.single h

/-- A property that every elementary change preserves. -/
theorem Changes.preserve {P : H3Session → Prop} (hP : ∀ s s', Change V R s s' → P s → P s')
    (h : Changes V R s s') (hs : P s) : P s' := by
  induction h with
  | refl => exact hs
  | tail _ hc ih => exact hP _ _ hc ih

theorem changes_op (s : H3Session) (o : HandleOp) (sid : ℤ) :
    Changes V R s (s.logOp o (s.qstream sid)) := (Change.op s o sid).changes

theorem changes_log (s : H3Session) (e : Event) (he : e.onHandle = false) :
    Changes V R s (s.log e) := (Change.note s e he).changes

theorem changes_mark (s : H3Session) (sid : ℤ) {f : H3Stream → H3Stream}
    (hk : ∀ o, Kept o (f o)) (hq : ∀ o, (f o).qstream = o.qstream)
    (hu : ∀ o, (f o).userData = o.userData) : Changes V R s (s.modify sid f) :=
  (Change.mark s sid f hk hq hu).changes

theorem changes_markNgh3Dead (s : H3Session) (err : LibErr) : Changes V R s (s.markNgh3Dead err) := by
  apply Change.changes
  exact .other _ _ ⟨rfl, rfl, rfl, rfl, rfl, rfl⟩ fun _ h => .inl h

theorem changes_done (s : H3Session) (sid : ℤ) :
    Changes V R s (s.modify sid fun o => { o with done := true }) := by
  apply changes_mark
  · exact fun o => ⟨rfl, rfl, rfl, rfl, rfl, fun _ => rfl, id⟩
  · exact fun _ => rfl
  · exact fun _ => rfl

private theorem changes_bodyComplete (s : H3Session) (sid : ℤ) :
    Changes V R s (s.modify sid fun o => { o with bodyComplete := true }) := by
  apply changes_mark
  · exact fun o => ⟨rfl, rfl, rfl, rfl, rfl, id, fun _ => rfl⟩
  · exact fun _ => rfl
  · exact fun _ => rfl

theorem changes_writeBlocked (s : H3Session) (sid : ℤ) (b : Bool) (n : ℤ) :
    Changes V R s { s.modify sid (fun o => { o with writeBlocked := b }) with blockedStreams := n } := by
  have hm : Changes V R s (s.modify sid fun o => { o with writeBlocked := b }) := by
    apply changes_mark
    · exact fun o => ⟨rfl, rfl, rfl, rfl, rfl, id, id⟩
    · exact fun _ => rfl
    · exact fun _ => rfl
  apply hm.trans
  exact Change.changes (.other _ _ ⟨rfl, rfl, rfl, rfl, rfl, rfl⟩ fun _ h => .inl h)

end

/-! The callbacks. -/
section
variable {V R : ℤ → Prop} (conf : SessionConf)

/-- A header callback changes the request's headers and may mark it malformed. -/
theorem onRecvHeader_eq (field : HeaderField) (o : H3Stream) :
    ∃ (malformed : Bool) (headerCount : ℕ) (headersTooLarge : Bool)
      (method scheme authority path : Option Bytes) (headers : Option (List (Bytes × Bytes))),
      (o.malformed → malformed) ∧
      onRecvHeader conf field o = { o with
        malformed := malformed, headerCount := headerCount, headersTooLarge := headersTooLarge
        method := method, scheme := scheme, authority := authority, path := path
        headers := headers } := by
  unfold onRecvHeader
  by_cases ht : field.token ≠ .regular
  · rw [if_pos ht]
    split
    · exact ⟨_, _, _, _, _, _, _, _, fun _ => rfl, rfl⟩
    · unfold setPseudo
      split
      · exact ⟨_, _, _, _, _, _, _, _, fun _ => rfl, rfl⟩
      · cases field.token
        case regular => exact ⟨_, _, _, _, _, _, _, _, fun _ => rfl, rfl⟩
        all_goals exact ⟨_, _, _, _, _, _, _, _, id, rfl⟩
  · rw [if_neg ht]
    cases o.headers with
    | none => exact ⟨_, _, _, _, _, _, _, _, id, rfl⟩
    | some headers =>
      dsimp only
      unfold addField
      dsimp only
      split_ifs <;> exact ⟨_, _, _, _, _, _, _, _, id, rfl⟩

theorem onRecvHeader_kept (field : HeaderField) (o : H3Stream) :
    Kept o (onRecvHeader conf field o) ∧ (onRecvHeader conf field o).qstream = o.qstream ∧
      (onRecvHeader conf field o).userData = o.userData := by
  obtain ⟨_, _, _, _, _, _, _, _, -, he⟩ := onRecvHeader_eq conf field o
  rw [he]
  exact ⟨⟨rfl, rfl, rfl, rfl, rfl, id, id⟩, rfl, rfl⟩

theorem onRecvData_kept (data : Bytes) (o : H3Stream) :
    Kept o (onRecvData conf data o) ∧ (onRecvData conf data o).qstream = o.qstream ∧
      (onRecvData conf data o).userData = o.userData := by
  unfold onRecvData
  dsimp only
  split_ifs <;> exact ⟨⟨rfl, rfl, rfl, rfl, rfl, id, id⟩, rfl, rfl⟩

theorem onEndHeaders_kept (fin : Bool) (o : H3Stream) :
    Kept o (onEndHeaders fin o) ∧ (onEndHeaders fin o).qstream = o.qstream ∧
      (onEndHeaders fin o).userData = o.userData := by
  unfold onEndHeaders
  split_ifs
  · refine ⟨⟨rfl, rfl, rfl, rfl, rfl, id, ?_⟩, rfl, rfl⟩
    intro hb
    simp [hb]
  · exact ⟨⟨rfl, rfl, rfl, rfl, rfl, id, id⟩, rfl, rfl⟩

theorem callback_changes (s : H3Session) (cb : Callback) (hR : cb.releases → R cb.sid) :
    Changes V R s (s.callback conf cb) := by
  unfold H3Session.callback
  split_ifs with hf
  · cases cb with
    | beginHeaders sid => exact (Change.attach s sid hf).changes
    | recvHeader sid field =>
      apply changes_mark
      · exact fun o => (onRecvHeader_kept conf field o).1
      · exact fun o => (onRecvHeader_kept conf field o).2.1
      · exact fun o => (onRecvHeader_kept conf field o).2.2
    | endHeaders sid fin =>
      apply (changes_log s (.headersEnded sid) rfl).trans
      apply changes_mark
      · exact fun o => (onEndHeaders_kept fin o).1
      · exact fun o => (onEndHeaders_kept fin o).2.1
      · exact fun o => (onEndHeaders_kept fin o).2.2
    | recvData sid data =>
      apply changes_mark
      · exact fun o => (onRecvData_kept conf data o).1
      · exact fun o => (onRecvData_kept conf data o).2.1
      · exact fun o => (onRecvData_kept conf data o).2.2
    | stopSending sid =>
      apply Change.changes
      apply Change.release s sid onStopSending (hR rfl) hf
      · exact fun o => ⟨rfl, rfl, rfl, rfl, rfl, fun _ => rfl, fun _ => rfl⟩
      · exact fun _ => rfl
      · exact fun _ => rfl
      · exact fun _ => rfl
    | resetStream sid =>
      apply (changes_op s .reset sid).trans
      apply changes_mark
      · exact fun o => ⟨rfl, rfl, rfl, rfl, rfl, fun _ => rfl, id⟩
      · exact fun _ => rfl
      · exact fun _ => rfl
    | streamClose sid =>
      apply (changes_log s (.closed sid) rfl).trans
      apply Change.changes
      apply Change.release (s.log (.closed sid)) sid onStreamClose (hR rfl) hf
      · exact fun o => ⟨rfl, rfl, rfl, rfl, rfl, fun _ => rfl, id⟩
      · exact fun _ => rfl
      · exact fun _ => rfl
      · exact fun _ => rfl
    | responseData sid => exact .refl s
  · exact .refl s

end

/-! The visit of a stream. -/
section
variable {V R : ℤ → Prop} (conf : SessionConf) (s : H3Session) (sid : ℤ)

private theorem visitEnter_changes (rstate wstate : StreamState) :
    Changes V R s (s.visitEnter sid rstate wstate).1 := by
  unfold H3Session.visitEnter
  dsimp only
  have hs : Changes V R s ((s.logOp .readState (s.qstream sid)).log (.stateSeen sid rstate)) :=
    (changes_op s .readState sid).trans (changes_log _ _ rfl)
  split_ifs
  · exact hs
  · exact hs.trans (changes_log _ _ rfl)
  · exact hs

theorem finDone_changes (origin : FinFrom) : Changes V R s (s.finDone sid origin).1 := by
  cases origin <;> exact changes_bodyComplete s sid

theorem rejectCounted_changes : Changes V R s (s.rejectCounted conf sid) := by
  unfold H3Session.rejectCounted
  dsimp only
  have hm : Changes V R s (s.modify sid fun o => { o with done := true, bodyComplete := true }) := by
    apply changes_mark
    · exact fun o => ⟨rfl, rfl, rfl, rfl, rfl, fun _ => rfl, fun _ => rfl⟩
    · exact fun _ => rfl
    · exact fun _ => rfl
  apply hm.trans
  split_ifs <;>
    exact Change.changes (.other _ _ ⟨rfl, rfl, rfl, rfl, rfl, rfl⟩ fun _ h => .inl h)

private theorem readReturned_changes (err : Option LibErr) : Changes V R s (s.readReturned sid err).1 := by
  unfold H3Session.readReturned
  have hp : Changes V R s { s with pending := none } :=
    Change.changes (.other _ _ ⟨rfl, rfl, rfl, rfl, rfl, rfl⟩ nofun)
  apply hp.trans
  cases err with
  | none =>
    dsimp only
    split_ifs
    · exact changes_op _ .reset sid
    · exact .refl _
    · exact .refl _
  | some e =>
    dsimp only
    split_ifs
    · exact changes_op _ .reset sid
    · exact (changes_markNgh3Dead _ e).trans (changes_done _ sid)

private theorem finReturned_changes (origin : FinFrom) (err : Option LibErr) :
    Changes V R s (s.finReturned sid origin err).1 := by
  unfold H3Session.finReturned
  cases err with
  | none =>
    dsimp only
    split_ifs
    · exact changes_op _ .reset sid
    · exact finDone_changes s sid origin
  | some e =>
    dsimp only
    split_ifs
    · exact changes_op _ .reset sid
    · exact (changes_markNgh3Dead s e).trans (finDone_changes _ sid origin)

private theorem callReturned_changes (err : Option LibErr) (call : LibCall) :
    Changes V R s (s.callReturned conf sid err call).1 := by
  cases call with
  | read => exact readReturned_changes s sid err
  | fin origin => exact finReturned_changes s sid origin err
  | shutdown origin => exact .refl s
  | close origin =>
    cases origin with
    | read => exact rejectCounted_changes conf s sid
    | fin origin => exact (rejectCounted_changes conf s sid).trans (finDone_changes _ sid origin)
  | closeEnded => exact .refl s

variable {d d' : Drain} {s' : H3Session} {a : Answer}

private theorem visitLoop_changes {pc : VisitPc} (hV : V sid)
    (h : visitLoop conf sid s d a = some (s', d', pc)) : Changes V R s s' := by
  unfold visitLoop at h
  split_ifs at h
  · cases h
    exact .refl s
  · cases h
    exact changes_done s sid
  · have hr : Changes V R s (s.logOp .read (s.qstream sid)) := changes_op s .read sid
    dsimp only at h
    split at h
    · split_ifs at h
      cases h
      apply hr.trans
      apply Change.changes
      exact .other _ _ ⟨rfl, rfl, rfl, rfl, rfl, rfl⟩ fun x hx => .inr (Option.some.inj hx ▸ hV)
    · cases h
      exact hr.trans ((changes_log _ _ rfl).trans (changes_log _ _ rfl))
    · cases h
      exact hr
    · cases h

private theorem visitStep_changes {pc pc' : VisitPc} (hV : V sid)
    (hR : ∀ cb, a = .callback cb → cb.releases → R cb.sid)
    (h : visitStep conf sid s d pc a = some (s', d', pc')) : Changes V R s s' := by
  unfold visitStep at h
  split at h
  · cases h
    exact visitEnter_changes s sid _ _
  · exact visitLoop_changes conf s sid hV h
  · cases h
    exact callback_changes conf s _ (hR _ rfl)
  · cases h
    exact callReturned_changes conf s sid _ _
  · cases h

end

/-! Whole drains and flushes. -/
section
variable {V R : ℤ → Prop} (conf : SessionConf) {s s' : H3Session} {d d' : Drain} {a : Answer}

/-- The stream that a drain is visiting. -/
def DrainPc.visiting : DrainPc → ℤ → Prop
  | .visit sid _, x => x = sid
  | _, _ => False

private theorem drainList_changes (sid : ℤ) (rejected : Bool) :
    Changes V R s (drainList s d sid rejected).1 ∧ (drainList s d sid rejected).2.snapshot = d.snapshot := by
  unfold drainList
  split
  · exact ⟨changes_log s _ rfl, rfl⟩
  · exact ⟨.refl s, rfl⟩

private theorem drainNext_changes :
    ∃ s₁, Changes V R s s₁ ∧
      ((drainNext s d).1 = s₁.reclaim d.snapshot ∧ (drainNext s d).2.2 = .returned ∨
        (drainNext s d).1 = s₁ ∧ (drainNext s d).2.2 ≠ .returned) := by
  unfold drainNext
  split
  · refine ⟨{ s with streamDrainCursor := _ }, Change.changes ?_, .inl ⟨rfl, rfl⟩⟩
    exact .other _ _ ⟨rfl, rfl, rfl, rfl, rfl, rfl⟩ fun _ h => .inl h
  · exact ⟨s, .refl s, .inr ⟨rfl, nofun⟩⟩

/-- A step of a drain is made of elementary changes; the last one reclaims streams as well. -/
theorem drainStep_changes {pc pc' : DrainPc} (hV : ∀ sid, pc.visiting sid → V sid)
    (hR : ∀ cb, a = .callback cb → cb.releases → R cb.sid)
    (h : drainStep conf s d pc a = some (s', d', pc')) :
    ∃ s₁, Changes V R s s₁ ∧
      (s' = s₁.reclaim d.snapshot ∧ pc' = .returned ∨ s' = s₁ ∧ pc' ≠ .returned) := by
  unfold drainStep at h
  split at h
  · have he := Option.some.inj h
    unfold drainScan at he
    split_ifs at he
    · cases he
      exact ⟨s, .refl s, .inl ⟨rfl, rfl⟩⟩
    · dsimp only at he
      split_ifs at he
      · cases he
        exact ⟨s, .refl s, .inr ⟨rfl, nofun⟩⟩
      · cases he
        exact ⟨s, .refl s, .inr ⟨rfl, nofun⟩⟩
  · rename_i sid rejected
    have he := Option.some.inj h
    obtain ⟨hl, hd⟩ := drainList_changes (V := V) (R := R) (s := s) (d := d) sid rejected
    obtain ⟨s₁, hc, hn⟩ := drainNext_changes (V := V) (R := R)
      (s := (drainList s d sid rejected).1) (d := (drainList s d sid rejected).2)
    rw [he, hd] at hn
    exact ⟨s₁, hl.trans hc, hn⟩
  · obtain ⟨⟨s₁, d₁, v⟩, hv, he⟩ := Option.map_eq_some_iff.mp h
    cases he
    exact ⟨_, visitStep_changes conf s _ (hV _ rfl) hR hv, .inr ⟨rfl, nofun⟩⟩
  · cases h

theorem visitStep_completed {sid : ℤ} {pc pc' : VisitPc}
    (h : visitStep conf sid s d pc a = some (s', d', pc')) :
    d'.completed = d.completed ∧ d'.snapshot = d.snapshot := by
  unfold visitStep visitLoop at h
  split at h
  · cases h
    exact ⟨rfl, rfl⟩
  · split_ifs at h
    · cases h
      exact ⟨rfl, rfl⟩
    · cases h
      exact ⟨rfl, rfl⟩
    · dsimp only at h
      split at h
      · split_ifs at h
        cases h
        exact ⟨rfl, rfl⟩
      · cases h
        exact ⟨rfl, rfl⟩
      · cases h
        exact ⟨rfl, rfl⟩
      · cases h
  · cases h
    exact ⟨rfl, rfl⟩
  · cases h
    exact ⟨rfl, rfl⟩
  · cases h

/-- Only a stream that is ready at the end of its visit is put on the list. -/
theorem drainStep_completed {pc pc' : DrainPc} (h : drainStep conf s d pc a = some (s', d', pc')) :
    d'.snapshot = d.snapshot ∧ (d'.completed = d.completed ∨
      ∃ sid, pc = .visit sid (.leave false) ∧ s.has sid (·.ready) ∧ s.ngh3Dead = false ∧
        d'.completed = d.completed ++ [sid]) := by
  unfold drainStep at h
  split at h
  · have he := Option.some.inj h
    unfold drainScan at he
    dsimp only at he
    split_ifs at he <;> cases he <;> exact ⟨rfl, .inl rfl⟩
  · rename_i sid rejected
    have he := Option.some.inj h
    unfold drainNext drainList at he
    dsimp only at he
    split at he
    · rename_i hready
      simp only [Bool.and_eq_true, Bool.not_eq_eq_eq_not, Bool.not_true] at hready
      obtain ⟨⟨rfl, hr⟩, hdead⟩ := hready
      split at he <;> cases he <;> exact ⟨rfl, .inr ⟨sid, rfl, hr, hdead, rfl⟩⟩
    · split at he <;> cases he <;> exact ⟨rfl, .inl rfl⟩
  · obtain ⟨⟨s₁, d₁, v⟩, hv, he⟩ := Option.map_eq_some_iff.mp h
    cases he
    obtain ⟨h1, h2⟩ := visitStep_completed conf hv
    exact ⟨h2, .inl h1⟩
  · cases h

private theorem unblockStep_changes (sid : ℤ) (h : s.unblockStep sid a = some s') : Changes V R s s' := by
  unfold H3Session.unblockStep at h
  split_ifs at h
  · cases h
    exact .refl s
  · cases h
    exact changes_writeBlocked s sid false _
  · split at h
    · cases h
      have hop : Changes V R s (s.logOp .isWriteBlocked (s.qstream sid)) := changes_op s _ sid
      split
      · exact hop
      · exact hop.trans (changes_writeBlocked _ sid false _)
    · cases h

private theorem blockStream_changes (sid : ℤ) : Changes V R s (s.blockStream sid) := by
  unfold H3Session.blockStream
  split_ifs
  · exact .refl s
  · exact changes_writeBlocked s sid true _

theorem flushStep_changes {pc pc' : FlushPc}
    (hR : ∀ cb, a = .callback cb → cb.releases → R cb.sid)
    (h : flushStep conf s pc a = some (s', pc')) : Changes V R s s' := by
  unfold flushStep at h
  split at h
  · cases h
    exact .refl s
  · obtain ⟨s₁, hu, he⟩ := Option.map_eq_some_iff.mp h
    cases he
    exact unblockStep_changes _ hu
  · cases h
    exact callback_changes conf s _ (hR _ rfl)
  · cases h
    exact (changes_markNgh3Dead s _).trans (Change.free _).changes
  · cases h
    exact (Change.free s).changes
  · cases h
    exact .refl s
  · cases h
    exact changes_op s .write _
  · cases h
    exact callback_changes conf s _ (hR _ rfl)
  · rename_i blocked _
    cases h
    cases blocked with
    | none => exact .refl s
    | some sid => exact blockStream_changes sid
  · cases h

end

end ModHttp3.Session
