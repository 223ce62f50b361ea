import ModHttp3.Session.Progress

/-! What a step of a drain can be, and of the visit of a stream: what the visit finds first,
how it goes on when nghttp3 has returned, and how it ends. -/
namespace ModHttp3.Session

section
variable (conf : SessionConf) (s : H3Session)

/-- The session when the visit of a stream has found its read state. -/
def H3Session.entered (s : H3Session) (sid : ℤ) (rstate : StreamState) : H3Session :=
  (s.logOp .readState (s.qstream sid)).log (.stateSeen sid rstate)

@[simp] theorem entered_notes (sid : ℤ) (rstate : StreamState) :
    (s.entered sid rstate).notes = .stateSeen sid rstate :: s.notes := by
  unfold H3Session.entered
  cases s.qstream sid <;> rfl

@[simp] theorem entered_obj (sid : ℤ) (rstate : StreamState) : (s.entered sid rstate).obj = s.obj :=
  H3Session.logOp_obj s .readState _

@[simp] theorem entered_ngh3Dead (sid : ℤ) (rstate : StreamState) :
    (s.entered sid rstate).ngh3Dead = s.ngh3Dead :=
  H3Session.logOp_ngh3Dead s .readState _

theorem readFinished_iff (rstate wstate : StreamState) :
    (h3qStreamIsReadFinished rstate wstate).1 ↔ rstate = .finished ∨ rstate.broken := by
  cases rstate <;> simp [h3qStreamIsReadFinished, StreamState.broken]

theorem writeFinished_of_broken {rstate : StreamState} (wstate : StreamState) (h : rstate.broken) :
    (h3qStreamIsReadFinished rstate wstate).2 := by
  cases rstate <;> first | rfl | cases h

/-- A visit goes on reading, or if the read side has ended closes the stream or feeds a fin. -/
theorem visitEnter_cases {s : H3Session} (sid : ℤ) (rstate wstate : StreamState) {P : H3Session × VisitPc → Prop}
    (hloop : rstate ≠ .finished → rstate.broken = false → P (s.entered sid rstate, .loop))
    (hclose : s.has sid (·.bodyComplete) → P (s.entered sid rstate,
      (s.entered sid rstate).closeIfFinished sid (h3qStreamIsReadFinished rstate wstate).2))
    (hfin : rstate = .finished ∨ rstate.broken → s.has sid (·.bodyComplete) = false →
      P ((s.entered sid rstate).log (.finFed sid),
        .inside (.fin (.finished (h3qStreamIsReadFinished rstate wstate).2)))) :
    P (s.visitEnter sid rstate wstate) := by
  have hhas : (s.entered sid rstate).has sid (·.bodyComplete) = s.has sid (·.bodyComplete) := by
    unfold H3Session.has
    rw [entered_obj]
  unfold H3Session.visitEnter
  dsimp only
  change P (if _ then if (s.entered sid rstate).has sid (·.bodyComplete) then _ else _ else _)
  rw [hhas]
  split_ifs with hend hbody
  · exact hclose hbody
  · exact hfin ((readFinished_iff rstate wstate).mp hend) (Bool.eq_false_iff.mpr hbody)
  · rw [readFinished_iff, not_or] at hend
    exact hloop hend.1 (Bool.eq_false_iff.mpr hend.2)

theorem finDone_fst (sid : ℤ) (origin : FinFrom) :
    (s.finDone sid origin).1 = s.modify sid fun o => { o with bodyComplete := true } := by
  cases origin <;> rfl

/-- The fin was fed to a stream whose write side had ended as well. -/
def FinFrom.writeFinished : FinFrom → Bool
  | .finished writeFinished => writeFinished
  | .zeroReturn => false

/-- How a visit goes on after a fin: it closes the stream if its write side has ended, too. -/
def AfterFin (s : H3Session) (sid : ℤ) (origin : FinFrom) (v : VisitPc) : Prop :=
  v = .inside .closeEnded ∨ v = .leave false ∧ (origin.writeFinished → s.qstream sid = none)

theorem finDone_snd (sid : ℤ) (origin : FinFrom) : AfterFin s sid origin (s.finDone sid origin).2 := by
  have hq : (s.modify sid fun o => { o with bodyComplete := true }).qstream sid = s.qstream sid := by
    unfold H3Session.qstream
    rw [H3Session.modify_obj_self]
    cases s.obj sid <;> rfl
  cases origin with
  | finished writeFinished =>
    unfold H3Session.finDone H3Session.closeIfFinished
    dsimp only
    rw [hq]
    split_ifs with h
    · exact .inl rfl
    · refine .inr ⟨rfl, fun hw => ?_⟩
      cases hw
      simpa using h
  | zeroReturn => exact .inr ⟨rfl, nofun⟩

/-- How a visit goes on when nghttp3 has returned. -/
inductive Returned (s : H3Session) (sid : ℤ) : LibCall → H3Session → VisitPc → Prop
  | reject {call : LibCall} {s' : H3Session} {origin : RejectFrom} (ho : s'.obj = s.obj)
      (hd : s'.ngh3Dead = s.ngh3Dead) (hcall : call ≠ .closeEnded) :
      Returned s sid call s' (.inside (.shutdown origin))
  | readFailed {s' : H3Session} (ho : s'.obj = (s.modify sid fun o => { o with done := true }).obj)
      (hd : s'.ngh3Dead) : Returned s sid .read s' (.leave false)
  | read {s' : H3Session} {v : VisitPc} (ho : s'.obj = s.obj) (hd : s'.ngh3Dead = s.ngh3Dead)
      (hok : s.has sid (fun o => o.malformed && !o.done) = false) (hv : v = .loop ∨ v = .leave false) :
      Returned s sid .read s' v
  | finFailed {origin : FinFrom} {s' : H3Session} {v : VisitPc}
      (ho : s'.obj = (s.modify sid fun o => { o with bodyComplete := true }).obj)
      (hd : s'.ngh3Dead) (hv : AfterFin s sid origin v) : Returned s sid (.fin origin) s' v
  | fin {origin : FinFrom} {s' : H3Session} {v : VisitPc}
      (ho : s'.obj = (s.modify sid fun o => { o with bodyComplete := true }).obj)
      (hd : s'.ngh3Dead = s.ngh3Dead)
      (hok : s.has sid (fun o => o.malformed && !o.done) = false) (hv : AfterFin s sid origin v) :
      Returned s sid (.fin origin) s' v
  | shutdown {origin : RejectFrom} : Returned s sid (.shutdown origin) s (.inside (.close origin))
  | rejected {origin : RejectFrom} {s' : H3Session} {v : VisitPc}
      (ho : s'.obj = (s.modify sid fun o => { o with done := true, bodyComplete := true }).obj)
      (hd : s.ngh3Dead → s'.ngh3Dead)
      (hv : v = .leave true ∨ v = .inside .closeEnded ∨ v = .leave false) :
      Returned s sid (.close origin) s' v
  | closed : Returned s sid .closeEnded s (.leave false)

private theorem readReturned_returned (sid : ℤ) (err : Option LibErr) :
    Returned s sid .read (s.readReturned sid err).1 (s.readReturned sid err).2 := by
  have hreset : (({ s with pending := none } : H3Session).logOp .reset (s.qstream sid)).obj = s.obj :=
    H3Session.logOp_obj _ .reset _
  have hdead : (({ s with pending := none } : H3Session).logOp .reset (s.qstream sid)).ngh3Dead =
      s.ngh3Dead := H3Session.logOp_ngh3Dead _ .reset _
  unfold H3Session.readReturned
  cases err with
  | none =>
    dsimp only
    split_ifs with hbad hdone
    · exact .reject hreset hdead nofun
    · exact .read rfl rfl (Bool.eq_false_iff.mpr hbad) (.inr rfl)
    · exact .read rfl rfl (Bool.eq_false_iff.mpr hbad) (.inl rfl)
  | some e =>
    dsimp only
    split_ifs
    · exact .reject hreset hdead nofun
    · exact .readFailed rfl rfl

private theorem finReturned_returned (sid : ℤ) (origin : FinFrom) (err : Option LibErr) :
    Returned s sid (.fin origin) (s.finReturned sid origin err).1 (s.finReturned sid origin err).2 := by
  have hreset := H3Session.logOp_obj s .reset (s.qstream sid)
  have hdead := H3Session.logOp_ngh3Dead s .reset (s.qstream sid)
  unfold H3Session.finReturned
  cases err with
  | none =>
    dsimp only
    split_ifs with hbad
    · exact .reject hreset hdead nofun
    · have hfst := finDone_fst s sid origin
      refine .fin (congrArg _ hfst) ?_ (Bool.eq_false_iff.mpr hbad) (finDone_snd s sid origin)
      rw [hfst]
      rfl
  | some e =>
    dsimp only
    split_ifs
    · exact .reject hreset hdead nofun
    · have hfst := finDone_fst (s.markNgh3Dead e) sid origin
      refine .finFailed ((congrArg H3Session.obj hfst).trans rfl) ?_ (finDone_snd (s.markNgh3Dead e) sid origin)
      rw [hfst]
      rfl

theorem rejectCounted_obj (sid : ℤ) : (s.rejectCounted conf sid).obj =
    (s.modify sid fun o => { o with done := true, bodyComplete := true }).obj := by
  unfold H3Session.rejectCounted
  dsimp only
  split_ifs <;> rfl

theorem rejectCounted_ngh3Dead (sid : ℤ) (h : s.ngh3Dead) : (s.rejectCounted conf sid).ngh3Dead := by
  unfold H3Session.rejectCounted
  dsimp only
  split_ifs
  · rfl
  · exact h

theorem callReturned_returned (sid : ℤ) (err : Option LibErr) (call : LibCall) :
    Returned s sid call (s.callReturned conf sid err call).1 (s.callReturned conf sid err call).2 := by
  cases call with
  | read => exact readReturned_returned s sid err
  | fin origin => exact finReturned_returned s sid origin err
  | shutdown origin => exact .shutdown
  | close origin =>
    cases origin with
    | read =>
      exact .rejected (rejectCounted_obj conf s sid) (rejectCounted_ngh3Dead conf s sid) (.inl rfl)
    | fin origin =>
      have hfst := finDone_fst (s.rejectCounted conf sid) sid origin
      apply Returned.rejected
      · refine (congrArg H3Session.obj hfst).trans ?_
        rw [H3Session.modify_obj_congr (rejectCounted_obj conf s sid), H3Session.modify_modify_obj]
        rfl
      · intro hd
        unfold H3Session.callReturned
        dsimp only
        rw [hfst]
        exact rejectCounted_ngh3Dead conf s sid hd
      · rcases finDone_snd (s.rejectCounted conf sid) sid origin with h | ⟨h, -⟩
        · exact .inr (.inl h)
        · exact .inr (.inr h)
  | closeEnded => exact .closed

theorem callReturned_notes (sid : ℤ) (err : Option LibErr) (call : LibCall) :
    (s.callReturned conf sid err call).1.notes = s.notes := by
  have hfin : ∀ (s : H3Session) origin, (s.finDone sid origin).1.notes = s.notes := by
    intro s origin
    cases origin <;> rfl
  have hcounted : (s.rejectCounted conf sid).notes = s.notes := by
    unfold H3Session.rejectCounted
    dsimp only
    split_ifs <;> rfl
  cases call with
  | read =>
    unfold H3Session.callReturned H3Session.readReturned
    cases err with
    | none =>
      dsimp only
      split_ifs
      · exact notes_logOp _ .reset _
      · rfl
      · rfl
    | some e =>
      dsimp only
      split_ifs
      · exact notes_logOp _ .reset _
      · rfl
  | fin origin =>
    unfold H3Session.callReturned H3Session.finReturned
    cases err with
    | none =>
      dsimp only
      split_ifs
      · exact notes_logOp _ .reset _
      · exact hfin s origin
    | some e =>
      dsimp only
      split_ifs
      · exact notes_logOp _ .reset _
      · exact hfin _ origin
  | shutdown origin => rfl
  | close origin =>
    cases origin with
    | read => exact hcounted
    | fin origin => exact (hfin _ origin).trans hcounted
  | closeEnded => rfl

/-- How a visit goes on from the head of its read loop. -/
inductive Looped (s : H3Session) (sid : ℤ) : H3Session → VisitPc → Prop
  | left {s' : H3Session} (hs : Still s s') (hd : s'.ngh3Dead = s.ngh3Dead) :
      Looped s sid s' (.leave false)
  | gone : Looped s sid (s.modify sid fun o => { o with done := true }) (.leave false)
  | data {s' : H3Session} (ho : s'.obj = s.obj) (hn : s'.notes = s.notes)
      (hd : s'.ngh3Dead = s.ngh3Dead) : Looped s sid s' (.inside .read)
  | ended {s' : H3Session} (ho : s'.obj = s.obj)
      (hn : s'.notes = .finFed sid :: .zeroReturn sid :: s.notes) (hd : s'.ngh3Dead = s.ngh3Dead) :
      Looped s sid s' (.inside (.fin .zeroReturn))

variable {s} in
theorem visitLoop_looped {sid : ℤ} {s' : H3Session} {d d' : Drain} {a : Answer} {v : VisitPc}
    (h : visitLoop conf sid s d a = some (s', d', v)) : Looped s sid s' v := by
  have hs := still_logOp s .read (s.qstream sid)
  have ho := H3Session.logOp_obj s .read (s.qstream sid)
  have hd := H3Session.logOp_ngh3Dead s .read (s.qstream sid)
  unfold visitLoop at h
  split_ifs at h
  · cases h
    exact .left (.refl s) rfl
  · cases h
    exact .gone
  · dsimp only at h
    split at h
    · split_ifs at h
      cases h
      exact .data ho hs.notes hd
    · cases h
      refine .ended ho ?_ hd
      exact congrArg (fun l => Event.finFed sid :: Event.zeroReturn sid :: l) hs.notes
    · cases h
      exact .left hs hd
    · cases h

end

/-! The steps of a drain. -/
section

def DrainPc.isVisit : DrainPc → Bool
  | .visit _ _ => true
  | _ => false

/-- What a step of a drain can be: passing over a stream or ending, beginning a visit, a step
of a visit, and leaving one. -/
inductive DrainMove (conf : SessionConf) (s : H3Session) (d : Drain) :
    DrainPc → Answer → H3Session → Drain → DrainPc → Prop
  | pass {s' : H3Session} {d' : Drain} {pc' : DrainPc} (hs : Still s s')
      (hdead : s'.ngh3Dead = s.ngh3Dead) (hpc : pc'.isVisit = false)
      (hc : d'.completed = d.completed) : DrainMove conf s d .scan .go s' d' pc'
  | begin {sid : ℤ} (hdone : s.has sid (·.done) = false) (hq : (s.qstream sid).isSome)
      (hclient : h3SidIsServer sid = false) : DrainMove conf s d .scan .go s d (.visit sid .enter)
  | visit {sid : ℤ} {v v' : VisitPc} {a : Answer} {s' : H3Session} {d' : Drain}
      (hv : visitStep conf sid s d v a = some (s', d', v')) :
      DrainMove conf s d (.visit sid v) a s' d' (.visit sid v')
  | leave {sid : ℤ} {rejected : Bool} {s' : H3Session} {d' : Drain} {pc' : DrainPc}
      (hs : Still (drainList s d sid rejected).1 s') (hdead : s'.ngh3Dead = s.ngh3Dead)
      (hpc : pc'.isVisit = false) (hc : d'.completed = (drainList s d sid rejected).2.completed) :
      DrainMove conf s d (.visit sid (.leave rejected)) .go s' d' pc'

variable {conf : SessionConf} {s s' : H3Session} {d d' : Drain} {pc pc' : DrainPc} {a : Answer}

private theorem drainNext_still (s : H3Session) (d : Drain) :
    Still s (drainNext s d).1 ∧ (drainNext s d).1.ngh3Dead = s.ngh3Dead ∧
      (drainNext s d).2.2.isVisit = false ∧ (drainNext s d).2.1.completed = d.completed := by
  unfold drainNext
  split
  · have hc : Still s { s with streamDrainCursor := (d.index + 1) % d.snapshot.length } :=
      ⟨rfl, rfl, .of_obj rfl⟩
    exact ⟨hc.trans (still_reclaim _ _), reclaim_ngh3Dead _ _, rfl, rfl⟩
  · exact ⟨.refl s, rfl, rfl, rfl⟩

private theorem drainList_ngh3Dead (s : H3Session) (d : Drain) (sid : ℤ) (rejected : Bool) :
    (drainList s d sid rejected).1.ngh3Dead = s.ngh3Dead := by
  unfold drainList
  split <;> rfl

theorem drainList_obj (s : H3Session) (d : Drain) (sid : ℤ) (rejected : Bool) :
    (drainList s d sid rejected).1.obj = s.obj := by
  unfold drainList
  split <;> rfl

/-- What is on the list at the end of a visit. -/
theorem mem_drainList {sid x : ℤ} {rejected : Bool}
    (h : x ∈ (drainList s d sid rejected).2.completed) :
    x ∈ d.completed ∨ x = sid ∧ s.has sid (·.ready) ∧ s.ngh3Dead = false := by
  unfold drainList at h
  split_ifs at h with hready
  · rcases List.mem_append.mp h with hold | hnew
    · exact .inl hold
    · simp only [Bool.and_eq_true, Bool.not_eq_true'] at hready
      exact .inr ⟨List.mem_singleton.mp hnew, hready.1.2, hready.2⟩
  · exact .inl h

theorem drainStep_move (h : drainStep conf s d pc a = some (s', d', pc')) :
    DrainMove conf s d pc a s' d' pc' := by
  unfold drainStep at h
  split at h
  · have he := Option.some.inj h
    unfold drainScan at he
    dsimp only at he
    split_ifs at he with hend hskip
    · cases he
      exact .pass (still_reclaim _ _) (reclaim_ngh3Dead _ _) rfl rfl
    · cases he
      exact .pass (.refl s) rfl rfl rfl
    · cases he
      simp only [Bool.or_eq_true, not_or, Bool.not_eq_true, Option.isNone_eq_false_iff] at hskip
      exact .begin hskip.1.1 hskip.1.2 hskip.2
  · rename_i sid rejected
    obtain ⟨hs, hdead, hpc, hc⟩ :=
      drainNext_still (drainList s d sid rejected).1 (drainList s d sid rejected).2
    have he := Option.some.inj h
    rw [he] at hs hdead hpc hc
    exact .leave hs (hdead.trans (drainList_ngh3Dead s d sid rejected)) hpc hc
  · obtain ⟨⟨s₁, d₁, v⟩, hv, he⟩ := Option.map_eq_some_iff.mp h
    cases he
    exact .visit hv
  · cases h

end

end ModHttp3.Session
