import ModHttp3.Session.Visit

/-! The rotation of `drain_ready_streams`: its cursor, which only a pass that spends its budget
moves, and what each step of a pass takes from the budget. -/
namespace ModHttp3.Session

/-- The cursor stays, and a dead nghttp3 stays dead. -/
structure Onward (s s' : H3Session) : Prop where
  cursor : s'.streamDrainCursor = s.streamDrainCursor
  dead : s.ngh3Dead → s'.ngh3Dead

section
variable {conf : SessionConf} {s s' s'' : H3Session}

theorem Onward.refl (s : H3Session) : Onward s s := ⟨rfl, id⟩

theorem Onward.trans (h : Onward s s') (h' : Onward s' s'') : Onward s s'' :=
  ⟨h'.cursor.trans h.cursor, h'.dead ∘ h.dead⟩

theorem onward_logOp (s : H3Session) (o : HandleOp) (h : Option Handle) : Onward s (s.logOp o h) := by
  cases h <;> exact ⟨rfl, id⟩

theorem onward_release (s : H3Session) (sid : ℤ) (f : H3Stream → H3Stream) : Onward s (s.release sid f) := by
  unfold H3Session.release
  cases s.qstream sid <;> exact ⟨rfl, id⟩

theorem onward_modifyAll (f : H3Stream → H3Stream) (sids : List ℤ) (s : H3Session) :
    Onward s (sids.foldl (fun s sid => s.modify sid f) s) := by
  induction sids generalizing s with
  | nil => exact .refl s
  | cons sid sids ih =>
    have hone : Onward s (s.modify sid f) := ⟨rfl, id⟩
    exact hone.trans (ih _)

theorem onward_destroy (s : H3Session) : Onward s s.destroy := by
  have hall := onward_modifyAll H3Stream.responseCancel s.streams { s with ngh3 := false }
  exact ⟨hall.cursor, hall.dead⟩

theorem onward_reclaim (snapshot : List ℤ) (s : H3Session) : Onward s (s.reclaim snapshot) := by
  unfold H3Session.reclaim
  induction snapshot generalizing s with
  | nil => exact .refl s
  | cons sid rest ih =>
    have hone : Onward s (s.reclaimStream sid) := by
      unfold H3Session.reclaimStream
      split_ifs <;> exact ⟨rfl, id⟩
    exact hone.trans (ih _)

theorem onward_callback (s : H3Session) (cb : Callback) : Onward s (s.callback conf cb) := by
  unfold H3Session.callback
  split_ifs
  · cases cb with
    | stopSending sid => exact onward_release s sid onStopSending
    | streamClose sid =>
      have hrelease := onward_release (s.log (.closed sid)) sid onStreamClose
      exact ⟨hrelease.cursor, hrelease.dead⟩
    | resetStream sid =>
      have hop := onward_logOp s .reset (s.qstream sid)
      exact ⟨hop.cursor, hop.dead⟩
    | _ => exact ⟨rfl, id⟩
  · exact .refl s

theorem onward_acceptStream {h : Handle} {sid : ℤ} (created : Bool) (hans : s.acceptAnswer h sid) :
    Onward s (s.acceptStream h sid created) := by
  apply H3Session.acceptStream_cases created hans
  · exact ⟨rfl, id⟩
  · exact ⟨rfl, id⟩
  · exact fun _ _ => ⟨rfl, id⟩

theorem onward_createControlStreams {opened : List (Option (ℤ × Handle))} {bound : Bool}
    {created : List Bool} (hans : s.controlAnswer opened created) :
    Onward s (s.createControlStreams opened bound created).1 := by
  apply H3Session.createControlStreams_cases hans (P := Onward s)
  · exact ⟨rfl, id⟩
  · exact fun s' x _ _ hs => ⟨hs.cursor, hs.dead⟩
  · exact fun s' hs => ⟨hs.cursor, hs.dead⟩
  · exact fun s' hs => ⟨hs.cursor, hs.dead⟩

private theorem onward_unblockStep {sid : ℤ} {a : Answer} (h : s.unblockStep sid a = some s') : Onward s s' := by
  unfold H3Session.unblockStep at h
  split_ifs at h
  · cases h
    exact .refl s
  · cases h
    exact ⟨rfl, id⟩
  · split at h
    · rename_i full
      have hop := onward_logOp s .isWriteBlocked (s.qstream sid)
      cases h
      cases full with
      | true => exact hop
      | false => exact ⟨hop.cursor, hop.dead⟩
    · cases h

theorem onward_flushStep {pc pc' : FlushPc} {a : Answer} (h : flushStep conf s pc a = some (s', pc')) :
    Onward s s' := by
  unfold flushStep at h
  split at h
  · cases h
    exact .refl s
  · obtain ⟨s₁, hs, he⟩ := Option.map_eq_some_iff.mp h
    cases he
    exact onward_unblockStep hs
  · cases h
    exact onward_callback s _
  · cases h
    exact ⟨rfl, fun _ => rfl⟩
  · cases h
    exact ⟨rfl, id⟩
  · cases h
    exact .refl s
  · cases h
    exact onward_logOp s .write _
  · cases h
    exact onward_callback s _
  · rename_i blocked _
    cases h
    cases blocked with
    | none => exact .refl s
    | some sid =>
      dsimp only [Option.elim]
      unfold H3Session.blockStream
      split_ifs <;> exact ⟨rfl, id⟩
  · cases h

private theorem onward_visitEnter (sid : ℤ) (rstate wstate : StreamState) :
    Onward s (s.visitEnter sid rstate wstate).1 := by
  have hop := onward_logOp s .readState (s.qstream sid)
  unfold H3Session.visitEnter
  dsimp only
  split_ifs <;> exact ⟨hop.cursor, hop.dead⟩

theorem onward_reject (s : H3Session) (sid : ℤ) (origin : RejectFrom) :
    Onward s (s.rejectMalformedStream sid origin).1 := onward_logOp s .reset _

theorem onward_finDone (s : H3Session) (sid : ℤ) (origin : FinFrom) : Onward s (s.finDone sid origin).1 := by
  rw [finDone_fst]
  exact ⟨rfl, id⟩

theorem onward_rejectCounted (s : H3Session) (sid : ℤ) : Onward s (s.rejectCounted conf sid) := by
  refine ⟨?_, rejectCounted_ngh3Dead conf s sid⟩
  unfold H3Session.rejectCounted
  dsimp only
  split_ifs <;> rfl

private theorem onward_callReturned (s : H3Session) (sid : ℤ) (err : Option LibErr) (call : LibCall) :
    Onward s (s.callReturned conf sid err call).1 := by
  have hpending : Onward s { s with pending := none } := ⟨rfl, id⟩
  cases call with
  | read =>
    unfold H3Session.callReturned H3Session.readReturned
    cases err with
    | none =>
      dsimp only
      split_ifs
      · exact hpending.trans (onward_reject _ sid .read)
      · exact hpending
      · exact hpending
    | some e =>
      dsimp only
      split_ifs
      · exact hpending.trans (onward_reject _ sid .read)
      · exact ⟨rfl, fun _ => rfl⟩
  | fin origin =>
    unfold H3Session.callReturned H3Session.finReturned
    cases err with
    | none =>
      dsimp only
      split_ifs
      · exact onward_reject s sid _
      · exact onward_finDone s sid origin
    | some e =>
      have hdead : Onward s (s.markNgh3Dead e) := ⟨rfl, fun _ => rfl⟩
      dsimp only
      split_ifs
      · exact onward_reject s sid _
      · exact hdead.trans (onward_finDone _ sid origin)
  | shutdown origin => exact .refl s
  | close origin =>
    cases origin with
    | read => exact onward_rejectCounted s sid
    | fin origin => exact (onward_rejectCounted s sid).trans (onward_finDone _ sid origin)
  | closeEnded => exact .refl s

end

/-- What a step of a visit takes from the budget: nothing, or one read of `n` bytes that the budget
still holds. -/
inductive Spends (d : Drain) : VisitPc → Answer → Drain → Prop
  | nothing {v : VisitPc} {a : Answer} (hread : ∀ n, v = .loop → a ≠ .data n) : Spends d v a d
  | read {n : ℕ} (hreads : 0 < d.readsRemaining) (hbytes : n ≤ d.bytesRemaining) :
      Spends d .loop (.data n) { d with
        readsRemaining := d.readsRemaining - 1
        bytesRemaining := d.bytesRemaining - n
        dataRead := true }

section
variable {conf : SessionConf} {s s' : H3Session} {d d' : Drain} {sid : ℤ} {a : Answer}

private theorem visitLoop_spends {v : VisitPc} (h : visitLoop conf sid s d a = some (s', d', v)) :
    Onward s s' ∧ Spends d .loop a d' := by
  unfold visitLoop at h
  split_ifs at h with hex hgo hnone hgo'
  · cases h
    subst hgo
    exact ⟨.refl s, .nothing nofun⟩
  · cases h
    subst hgo'
    exact ⟨⟨rfl, id⟩, .nothing nofun⟩
  · have hop := onward_logOp s .read (s.qstream sid)
    dsimp only at h
    split at h
    · rename_i n
      split_ifs at h with hn
      cases h
      simp only [Drain.exhausted, Bool.or_eq_true, beq_iff_eq, not_or] at hex
      refine ⟨⟨hop.cursor, hop.dead⟩, .read (by omega) ?_⟩
      exact Nat.le_trans hn.2 (Nat.min_le_right _ _)
    · cases h
      exact ⟨⟨hop.cursor, hop.dead⟩, .nothing nofun⟩
    · cases h
      exact ⟨hop, .nothing nofun⟩
    · cases h

private theorem visitStep_spends {v v' : VisitPc} (h : visitStep conf sid s d v a = some (s', d', v')) :
    Onward s s' ∧ Spends d v a d' := by
  unfold visitStep at h
  split at h
  · cases h
    exact ⟨onward_visitEnter sid _ _, .nothing nofun⟩
  · exact visitLoop_spends h
  · cases h
    exact ⟨onward_callback s _, .nothing nofun⟩
  · cases h
    exact ⟨onward_callReturned s sid _ _, .nothing nofun⟩
  · cases h

/-- The scan passes over the stream. -/
def H3Session.passesOver (s : H3Session) (sid : ℤ) : Bool :=
  s.has sid (·.done) || (s.qstream sid).isNone || h3SidIsServer sid

/-- What a step of a pass can be: ending it with nghttp3 dead or the whole snapshot looked at, going
past a stream, beginning a visit, a step of a visit, ending the pass with the budget spent, or going
on behind a visit. -/
inductive Turn (s : H3Session) (d : Drain) : DrainPc → Answer → H3Session → Drain → DrainPc → Prop
  | ends {s' : H3Session} (hend : s.ngh3Dead = true ∨ d.snapshot.length ≤ d.offset) (hs : Onward s s') :
      Turn s d .scan .go s' d .returned
  | goesPast (hin : d.offset < d.snapshot.length) (hover : s.passesOver (d.snapshot.getD d.index 0) = true) :
      Turn s d .scan .go s { d with offset := d.offset + 1 } .scan
  | begin (hin : d.offset < d.snapshot.length) :
      Turn s d .scan .go s d (.visit (d.snapshot.getD d.index 0) .enter)
  | visit {sid : ℤ} {v v' : VisitPc} {a : Answer} {s' : H3Session} {d' : Drain} (hs : Onward s s')
      (hd : Spends d v a d') : Turn s d (.visit sid v) a s' d' (.visit sid v')
  | spent {sid : ℤ} {rejected : Bool} {s' : H3Session} (completed : List ℤ) (hex : d.exhausted = true)
      (hcursor : s'.streamDrainCursor = (d.index + 1) % d.snapshot.length)
      (hdead : s.ngh3Dead → s'.ngh3Dead) :
      Turn s d (.visit sid (.leave rejected)) .go s' { d with completed := completed } .returned
  | next {sid : ℤ} {rejected : Bool} {s' : H3Session} (completed : List ℤ) (hex : d.exhausted = false)
      (hs : Onward s s') : Turn s d (.visit sid (.leave rejected)) .go s'
        { d with completed := completed, offset := d.offset + 1 } .scan

theorem drainStep_turn {pc pc' : DrainPc} (h : drainStep conf s d pc a = some (s', d', pc')) :
    Turn s d pc a s' d' pc' := by
  unfold drainStep at h
  split at h
  · have he := Option.some.inj h
    unfold drainScan at he
    dsimp only at he
    split_ifs at he with hend hover
    · cases he
      simp only [Bool.or_eq_true, decide_eq_true_eq] at hend
      exact .ends hend (onward_reclaim _ s)
    · cases he
      simp only [Bool.or_eq_true, decide_eq_true_eq, not_or] at hend
      exact .goesPast (by omega) hover
    · cases he
      simp only [Bool.or_eq_true, decide_eq_true_eq, not_or] at hend
      exact .begin (by omega)
  · rename_i sid rejected
    obtain ⟨hlist, completed, hcompleted⟩ : Onward s (drainList s d sid rejected).1 ∧
        ∃ completed, (drainList s d sid rejected).2 = { d with completed := completed } := by
      unfold drainList
      split_ifs
      · exact ⟨⟨rfl, id⟩, _, rfl⟩
      · exact ⟨.refl s, d.completed, rfl⟩
    have he := Option.some.inj h
    rw [hcompleted] at he
    unfold drainNext at he
    split_ifs at he with hex
    · cases he
      have hreclaim := onward_reclaim d.snapshot { (drainList s d sid rejected).1 with
        streamDrainCursor := (d.index + 1) % d.snapshot.length }
      exact .spent completed hex hreclaim.cursor (hreclaim.dead ∘ hlist.dead)
    · cases he
      exact .next completed (Bool.not_eq_true _ ▸ hex) hlist
  · obtain ⟨⟨s₁, d₁, v⟩, hv, he⟩ := Option.map_eq_some_iff.mp h
    cases he
    obtain ⟨hs, hd⟩ := visitStep_spends hv
    exact .visit hs hd
  · cases h

end

end ModHttp3.Session
