import ModHttp3.Lib.History
import ModHttp3.System.Effect
import ModHttp3.System.Safety

/-! Only whole requests are dispatched if nghttp3 has called `stream_close` when the close of a stream
whose headers have ended returns. The module also relies on it that nghttp3 reports the end of a request
in `end_headers` only if it was fed the fin, and that for OpenSSL a reset or lost read side stays so. -/
namespace ModHttp3.System
open Session Lib

/-- A visit finds the read side of the stream reset or lost. -/
def loses (sid : ℤ) : Event → Bool
  | .stateSeen x st => x == sid && st.broken
  | _ => false

def lost (sid : ℤ) (l : List Event) : Bool := l.any (loses sid)

def clientEnded (sid : ℤ) (l : List Event) : Prop :=
  .stateSeen sid .finished ∈ l ∨ .zeroReturn sid ∈ l

/-- nghttp3 reports a request without a body only if it was fed the fin. -/
def finReported (σ : State) : Action → Bool
  | .event (.callback (.endHeaders sid true)) => decide (.finFed sid ∈ σ.session.trace)
  | _ => true

/-- nghttp3 has called back when it has closed a stream whose headers have ended. It puts the callback off for a
stream that waits for QPACK inserts. -/
def closeReported (σ : State) : Action → Bool
  | .event (.returned _) => match σ.pc.visit with
    | some (sid, .inside .closeEnded) =>
      !σ.session.has sid (·.headersComplete) || decide (.closed sid ∈ σ.session.trace)
    | _ => true
  | _ => true

/-- A read side that was found reset or lost is found so again. -/
def lossFinal (σ : State) : Action → Bool
  | .event (.state rstate _) => match σ.pc.visit with
    | some (sid, _) => rstate.broken || !lost sid σ.session.trace
    | none => true
  | _ => true

def contract (σ : State) (act : Action) : Bool :=
  finReported σ act && closeReported σ act && lossFinal σ act

/-- What is on record before a stream is put on the list of completed requests. -/
def WholeRequest : Event → List Event → Prop
  | .listed sid, earlier => h3SidIsBidi sid ∧ h3SidIsServer sid = false ∧
      .headersEnded sid ∈ earlier ∧ clientEnded sid earlier ∧
      ∀ st, .stateSeen sid st ∈ earlier → st.broken = false
  | _, _ => True

/-- The marks of a stream agree with what is on record. -/
structure Recorded (notes : List Event) (sid : ℤ) (o : H3Stream) : Prop where
  isBidi : o.isBidi = h3SidIsBidi sid
  headers : o.headersComplete → .headersEnded sid ∈ notes
  body : o.bodyComplete → o.done ∨ .finFed sid ∈ notes
  closed : .closed sid ∈ notes → o.done
  gone : o.qstream = none → o.done

/-- Where the visit of a stream with a reset or lost read side can be. -/
def lossy : VisitPc → Bool
  | .loop | .inside .read | .inside (.fin .zeroReturn) | .inside (.fin (.finished false)) => false
  | _ => true

/-- What holds during the visit of a stream. A reset or lost one is left closed, or without
headers. -/
structure Visits (s : H3Session) (sid : ℤ) (v : VisitPc) : Prop where
  client : h3SidIsServer sid = false
  feeding : ∀ origin, v = .inside (.fin origin) → .finFed sid ∈ s.notes
  lossy : lost sid s.notes → lossy v
  left : v = .leave false → lost sid s.notes →
    ∀ o, s.obj sid = some o → o.done ∨ o.headersComplete = false

structure Requests (σ : State) : Prop where
  recorded : ∀ sid o, σ.session.obj sid = some o → Recorded σ.session.notes sid o
  known : ∀ sid, .closed sid ∈ σ.session.notes → (σ.session.obj sid).isSome
  fed : ∀ sid, .finFed sid ∈ σ.session.notes →
    clientEnded sid σ.session.notes ∨ lost sid σ.session.notes
  visit : ∀ sid v, σ.pc.visit = some (sid, v) → Visits σ.session sid v
  listed : Justified WholeRequest σ.session.notes

section
variable {conf : SessionConf} {σ σ' : State} {act : Action} {s s' : H3Session}

private theorem requests_start : Requests .start := by
  constructor
  · intro sid o ho
    cases ho
  · nofun
  · nofun
  · nofun
  · exact justified_nil

theorem Recorded.same {notes : List Event} {sid : ℤ} {o o' : H3Stream} (hr : Recorded notes sid o)
    (h : SameRequest o o') : Recorded notes sid o' := by
  constructor
  · rw [h.isBidi]
    exact hr.isBidi
  · rw [h.headersComplete]
    exact hr.headers
  · rw [h.bodyComplete, h.done]
    exact hr.body
  · rw [h.done]
    exact hr.closed
  · rw [h.qstream, h.done]
    exact hr.gone

/-- More may come on record, but not that the stream was closed. -/
theorem Recorded.more {notes : List Event} {sid : ℤ} {o : H3Stream} (hr : Recorded notes sid o)
    (new : List Event) (hnew : .closed sid ∉ new) : Recorded (new ++ notes) sid o := by
  constructor
  · exact hr.isBidi
  · exact fun h => List.mem_append_right _ (hr.headers h)
  · exact fun h => (hr.body h).imp id (List.mem_append_right _)
  · intro h
    rcases List.mem_append.mp h with h | h
    · exact absurd h hnew
    · exact hr.closed h
  · exact hr.gone

theorem lost_cons {sid : ℤ} {l : List Event} {e : Event} (he : loses sid e = false) :
    lost sid (e :: l) = lost sid l := by
  unfold lost
  rw [List.any_cons, he, Bool.false_or]

theorem lost_entered (sid : ℤ) (rstate : StreamState) (s : H3Session) :
    lost sid (s.entered sid rstate).notes = (rstate.broken || lost sid s.notes) := by
  rw [entered_notes]
  simp [lost, loses]

private theorem lost_trace (sid : ℤ) (s : H3Session) : lost sid s.notes = lost sid s.trace := by
  unfold lost H3Session.notes
  rw [List.any_filter]
  congr 1
  funext e
  cases e <;> simp [Event.onHandle, loses]

private theorem lost_iff {sid : ℤ} {l : List Event} :
    lost sid l = false ↔ ∀ st, .stateSeen sid st ∈ l → st.broken = false := by
  unfold lost
  rw [List.any_eq_false]
  constructor
  · intro h st hst
    simpa [loses] using h _ hst
  · intro h e he
    cases e with
    | stateSeen x st =>
      simp only [loses, Bool.and_eq_true, beq_iff_eq, not_and, Bool.not_eq_true]
      rintro rfl
      exact h st he
    | _ => exact Bool.false_ne_true

theorem clientEnded_mono {sid : ℤ} {l l' : List Event} (h : clientEnded sid l) (hl : l ⊆ l') :
    clientEnded sid l' := h.imp (hl ·) (hl ·)

private theorem lost_mono {sid : ℤ} {l l' : List Event} (h : lost sid l) (hl : l ⊆ l') : lost sid l' := by
  obtain ⟨e, he, hlost⟩ := List.any_eq_true.mp h
  exact List.any_eq_true.mpr ⟨e, hl he, hlost⟩

theorem Visits.still {sid : ℤ} {v : VisitPc} (hv : Visits s sid v) (hs : Still s s') :
    Visits s' sid v := by
  refine ⟨hv.client, ?_, ?_, ?_⟩
  · rw [hs.notes]
    exact hv.feeding
  · rw [hs.notes]
    exact hv.lossy
  · rw [hs.notes]
    intro he hl o ho
    obtain ⟨o₀, ho₀, hsame⟩ := hs.requests.obj ho
    rw [hsame.done, hsame.headersComplete]
    exact hv.left he hl o₀ ho₀

/-- No request has come further, and the visit is the same or has ended. -/
theorem Requests.still (hR : Requests σ) (hs : Still σ.session σ'.session)
    (hvisit : σ'.pc.visit = none ∨ σ'.pc.visit = σ.pc.visit) : Requests σ' := by
  constructor
  · intro sid o ho
    obtain ⟨o₀, ho₀, hsame⟩ := hs.requests.obj ho
    rw [hs.notes]
    exact (hR.recorded sid o₀ ho₀).same hsame
  · intro sid hc
    rw [hs.notes] at hc
    have hr := hs.requests sid
    have hsome := hR.known sid hc
    revert hr hsome
    cases σ.session.obj sid <;> cases σ'.session.obj sid <;> rintro (hr | _) hsome
    · exact hsome
    · rfl
  · rw [hs.notes]
    exact hR.fed
  · intro sid v hv
    rcases hvisit with he | he
    · rw [he] at hv
      cases hv
    · exact (hR.visit sid v (he ▸ hv)).still hs
  · rw [hs.notes]
    exact hR.listed

theorem Requests.added (hR : Requests σ) (hs : Added σ.session σ'.session)
    (hvisit : σ'.pc.visit = none) : Requests σ' := by
  constructor
  · intro sid o ho
    rw [hs.notes]
    rcases hs.obj sid with he | ⟨hnone, h, he⟩
    · exact hR.recorded sid o (he ▸ ho)
    · cases he.symm.trans ho
      refine ⟨rfl, nofun, nofun, fun hc => ?_, nofun⟩
      have hsome := hR.known sid hc
      rw [hnone] at hsome
      cases hsome
  · intro sid hc
    rw [hs.notes] at hc
    rcases hs.obj sid with he | ⟨-, h, he⟩
    · rw [he]
      exact hR.known sid hc
    · rw [he]
      rfl
  · rw [hs.notes]
    exact hR.fed
  · intro sid v hv
    rw [hvisit] at hv
    cases hv
  · rw [hs.notes]
    exact hR.listed

/-- What a callback leaves of the stream that it finds. -/
theorem Recorded.callback {cb : Callback} {o : H3Stream} (hr : Recorded s.notes cb.sid o)
    (hfin : ∀ sid, cb = .endHeaders sid true → .finFed sid ∈ s.notes) :
    Recorded (cb.note ++ s.notes) cb.sid (cb.onStream conf o) := by
  cases cb with
  | beginHeaders sid => exact ⟨hr.isBidi, hr.headers, hr.body, hr.closed, hr.gone⟩
  | recvHeader sid field =>
    obtain ⟨_, _, _, _, _, _, _, _, -, he⟩ := onRecvHeader_eq conf field o
    rw [Callback.onStream, he]
    exact ⟨hr.isBidi, hr.headers, hr.body, hr.closed, hr.gone⟩
  | endHeaders sid fin =>
    have hmore := hr.more [.headersEnded sid] (by simp)
    simp only [Callback.onStream, onEndHeaders]
    split_ifs
    · refine ⟨hmore.isBidi, fun _ => List.mem_cons_self, ?_, hmore.closed, hmore.gone⟩
      intro hb
      rcases Bool.or_eq_true_iff.mp hb with hb | rfl
      · exact hmore.body hb
      · exact .inr (List.mem_cons_of_mem _ (hfin sid rfl))
    · exact hmore
  | recvData sid data => exact hr.same (onRecvData_sameRequest conf data o)
  | stopSending sid => exact ⟨hr.isBidi, hr.headers, fun _ => .inl rfl, fun _ => rfl, fun _ => rfl⟩
  | resetStream sid => exact ⟨hr.isBidi, hr.headers, fun _ => .inl rfl, fun _ => rfl, fun _ => rfl⟩
  | streamClose sid =>
    refine ⟨hr.isBidi, ?_, fun _ => .inl rfl, fun _ => rfl, fun _ => rfl⟩
    exact fun hh => List.mem_cons_of_mem _ (hr.headers hh)
  | responseData sid => exact hr

theorem Callback.note_spec {cb : Callback} {e : Event} (he : e ∈ cb.note) :
    e = .headersEnded cb.sid ∨ e = .closed cb.sid := by
  cases cb <;> first | (cases he; done) | skip
  · exact .inl (List.mem_singleton.mp he)
  · exact .inr (List.mem_singleton.mp he)

theorem lost_note (cb : Callback) (sid : ℤ) (l : List Event) : lost sid (cb.note ++ l) = lost sid l := by
  cases cb <;> rfl

theorem Requests.callback {cb : Callback} (hR : Requests σ) (hok : contract σ (.event (.callback cb)))
    (hpc : ∀ sid v, σ.pc.visit = some (sid, v) → ∃ call, v = .inside call) :
    Requests { σ with session := σ.session.callback conf cb } := by
  have hnotes := callback_notes conf σ.session cb
  by_cases hf : σ.session.finds cb
  · rw [if_pos hf] at hnotes
    have hobj : (σ.session.callback conf cb).obj =
        (σ.session.modify cb.sid (cb.onStream conf)).obj := by
      unfold H3Session.callback
      rw [if_pos hf, deliver_obj]
    have hfin : ∀ sid, cb = .endHeaders sid true → .finFed sid ∈ σ.session.notes := by
      rintro sid rfl
      simp only [contract, finReported, closeReported, lossFinal, Bool.and_true, decide_eq_true_eq] at hok
      exact mem_notes hok rfl
    have hsome : .closed cb.sid ∈ cb.note → (σ.session.obj cb.sid).isSome := by
      intro hc
      cases cb <;> first | (cases hc; done) | skip
      · cases List.mem_singleton.mp hc
      · obtain ⟨o, ho, -⟩ := H3Session.has_iff.mp hf
        exact Option.isSome_of_eq_some ho
    constructor
    · dsimp only
      rw [hobj, hnotes]
      refine modify_forall hR.recorded (fun x o hx hr => ?_) fun o _ hr => hr.callback hfin
      refine hr.more cb.note fun hc => ?_
      rcases Callback.note_spec hc with he | he
      · cases he
      · cases he
        exact hx rfl
    · dsimp only
      rw [hobj, hnotes]
      intro x hc
      rw [H3Session.modify_obj_isSome]
      rcases List.mem_append.mp hc with hnew | hold
      · rcases Callback.note_spec hnew with he | he
        · cases he
        · cases he
          exact hsome hnew
      · exact hR.known x hold
    · dsimp only
      rw [hnotes]
      intro x hx
      rcases List.mem_append.mp hx with hnew | hold
      · rcases Callback.note_spec hnew with he | he <;> cases he
      · rw [lost_note]
        exact (hR.fed x hold).imp (clientEnded_mono · (List.subset_append_right _ _)) id
    · intro x v hv
      have hvisits := hR.visit x v hv
      refine ⟨hvisits.client, fun origin he => ?_, fun hl => ?_, fun he => ?_⟩
      · dsimp only
        rw [hnotes]
        exact List.mem_append_right _ (hvisits.feeding origin he)
      · dsimp only at hl
        rw [hnotes, lost_note] at hl
        exact hvisits.lossy hl
      · obtain ⟨call, hcall⟩ := hpc x v hv
        cases hcall.symm.trans he
    · dsimp only
      rw [hnotes]
      cases cb with
      | endHeaders sid fin => exact hR.listed.cons trivial
      | streamClose sid => exact hR.listed.cons trivial
      | _ => exact hR.listed
  · have hsame : σ.session.callback conf cb = σ.session := by
      unfold H3Session.callback
      rw [if_neg hf]
    rw [hsame]
    exact hR

theorem Requests.begin {d : Drain} {sid : ℤ} (hR : Requests σ) (hclient : h3SidIsServer sid = false) :
    Requests { σ with pc := .drain d (.visit sid .enter) } := by
  refine ⟨hR.recorded, hR.known, hR.fed, fun x v hv => ?_, hR.listed⟩
  cases hv
  exact ⟨hclient, nofun, fun _ => rfl, nofun⟩

/-- The records with more notes, none of them a close. -/
theorem Requests.noted (hR : Requests σ) (s : H3Session) (new : List Event)
    (ho : s.obj = σ.session.obj) (hn : s.notes = new ++ σ.session.notes)
    (hclosed : ∀ sid, .closed sid ∉ new) (hlisted : Justified WholeRequest s.notes)
    (hfed : ∀ sid, .finFed sid ∈ new → clientEnded sid s.notes ∨ lost sid s.notes) {pc : EventPc}
    (hvisit : ∀ sid v, pc.visit = some (sid, v) → Visits s sid v) : Requests ⟨s, pc, σ.tasks⟩ := by
  have hsub : σ.session.notes ⊆ s.notes := by
    rw [hn]
    exact List.subset_append_right _ _
  constructor
  · dsimp only
    rw [ho, hn]
    exact fun sid o hx => (hR.recorded sid o hx).more new (hclosed sid)
  · dsimp only
    rw [ho, hn]
    intro sid hc
    exact hR.known sid ((List.mem_append.mp hc).resolve_left (hclosed sid))
  · intro sid hx
    dsimp only at hx
    rw [hn] at hx
    rcases List.mem_append.mp hx with hnew | hold
    · exact hfed sid hnew
    · exact (hR.fed sid hold).imp (clientEnded_mono · hsub) (lost_mono · hsub)
  · exact hvisit
  · exact hlisted

theorem Requests.enter {d : Drain} {sid : ℤ} {rstate wstate : StreamState} (hR : Requests σ)
    (hpc : σ.pc = .drain d (.visit sid .enter)) (hok : contract σ (.event (.state rstate wstate))) :
    Requests ⟨(σ.session.visitEnter sid rstate wstate).1,
      .drain d (.visit sid (σ.session.visitEnter sid rstate wstate).2), σ.tasks⟩ := by
  have hvisits := hR.visit sid .enter (by rw [hpc]; rfl)
  -- a reset or lost read side is found so by this visit
  have hbroken : lost sid (σ.session.entered sid rstate).notes → rstate.broken := by
    rw [lost_entered]
    intro hl
    rcases Bool.or_eq_true_iff.mp hl with hb | hold
    · exact hb
    · simp only [contract, finReported, closeReported, lossFinal, hpc, EventPc.visit, Bool.and_true,
        Bool.true_and, ← lost_trace, hold, Bool.not_true, Bool.or_false] at hok
      exact hok
  have hgone : (σ.session.entered sid rstate).qstream sid = none →
      ∀ o, σ.session.obj sid = some o → o.done := by
    intro hq o ho
    refine (hR.recorded sid o ho).gone ?_
    unfold H3Session.qstream at hq
    rw [entered_obj, ho] at hq
    exact hq
  have hlisted : Justified WholeRequest (σ.session.entered sid rstate).notes := by
    rw [entered_notes]
    exact hR.listed.cons trivial
  have hnotes := entered_notes σ.session sid rstate
  have hobj := entered_obj σ.session sid rstate
  apply visitEnter_cases sid rstate wstate
    (P := fun next => Requests ⟨next.1, .drain d (.visit sid next.2), σ.tasks⟩)
  · intro _ hnot
    refine hR.noted _ [.stateSeen sid rstate] hobj hnotes (by simp) hlisted (by simp) fun x v hv => ?_
    cases hv
    refine ⟨hvisits.client, nofun, fun hl => ?_, nofun⟩
    rw [hbroken hl] at hnot
    cases hnot
  · intro _
    refine hR.noted _ [.stateSeen sid rstate] hobj hnotes (by simp) hlisted (by simp) fun x v hv => ?_
    cases hv
    refine ⟨hvisits.client, ?_, ?_, ?_⟩
    · unfold H3Session.closeIfFinished
      split_ifs <;> nofun
    · unfold H3Session.closeIfFinished
      split_ifs <;> exact fun _ => rfl
    · intro hleave hl o ho
      rw [hobj] at ho
      unfold H3Session.closeIfFinished at hleave
      rw [writeFinished_of_broken wstate (hbroken hl), Bool.and_true] at hleave
      split_ifs at hleave with hq
      exact .inl (hgone (Option.not_isSome_iff_eq_none.mp hq) o ho)
  · intro hend hnot
    have hfed : clientEnded sid (.finFed sid :: (σ.session.entered sid rstate).notes) ∨
        lost sid (.finFed sid :: (σ.session.entered sid rstate).notes) := by
      rcases hend with rfl | hb
      · rw [hnotes]
        exact .inl (.inl (by simp))
      · rw [lost_cons rfl, lost_entered, hb]
        exact .inr rfl
    have hlisted' : Justified WholeRequest (.finFed sid :: (σ.session.entered sid rstate).notes) :=
      hlisted.cons trivial
    refine hR.noted ((σ.session.entered sid rstate).log (.finFed sid))
      [.finFed sid, .stateSeen sid rstate] hobj ?_ (by simp) hlisted' (fun x hx => ?_) fun x v hv => ?_
    · exact congrArg (List.cons (Event.finFed sid)) hnotes
    · simp at hx
      subst hx
      exact hfed
    · cases hv
      refine ⟨hvisits.client, fun _ _ => List.mem_cons_self, fun hl => ?_, nofun⟩
      rw [writeFinished_of_broken wstate (hbroken hl)]
      rfl

theorem Requests.loop {a : Answer} {d d' : Drain} {sid : ℤ} {s : H3Session} {v : VisitPc}
    (hR : Requests σ) (hpc : σ.pc = .drain d (.visit sid .loop))
    (hv : visitLoop conf sid σ.session d a = some (s, d', v)) :
    Requests ⟨s, .drain d' (.visit sid v), σ.tasks⟩ := by
  have hvisits := hR.visit sid .loop (by rw [hpc]; rfl)
  have hnot : lost sid σ.session.notes = false := by
    refine Bool.eq_false_iff.mpr fun hl => ?_
    cases hvisits.lossy hl
  cases visitLoop_looped conf hv with
  | left hs hd =>
    have hleft : Requests ⟨σ.session, .drain d' (.visit sid (.leave false)), σ.tasks⟩ := by
      refine ⟨hR.recorded, hR.known, hR.fed, fun x v' hv' => ?_, hR.listed⟩
      cases hv'
      refine ⟨hvisits.client, nofun, fun _ => rfl, fun _ hl => ?_⟩
      cases hl.symm.trans hnot
    exact hleft.still hs (.inr rfl)
  | gone =>
    refine ⟨?_, ?_, hR.fed, fun x v' hv' => ?_, hR.listed⟩
    · refine modify_forall hR.recorded (fun _ _ _ hr => hr) fun o _ hr => ?_
      exact ⟨hr.isBidi, hr.headers, fun _ => .inl rfl, fun _ => rfl, fun _ => rfl⟩
    · intro x hc
      dsimp only
      rw [H3Session.modify_obj_isSome]
      exact hR.known x hc
    · cases hv'
      refine ⟨hvisits.client, nofun, fun _ => rfl, fun _ hl => ?_⟩
      cases hl.symm.trans hnot
  | data ho hn hd =>
    refine hR.noted s [] ho hn nofun (hn ▸ hR.listed) nofun fun x v' hv' => ?_
    cases hv'
    refine ⟨hvisits.client, nofun, fun hl => ?_, nofun⟩
    rw [hn] at hl
    cases hl.symm.trans hnot
  | ended ho hn hd =>
    have hzero : Justified WholeRequest (.zeroReturn sid :: σ.session.notes) := hR.listed.cons trivial
    have hlisted : Justified WholeRequest s.notes := by
      rw [hn]
      exact hzero.cons trivial
    refine hR.noted s [.finFed sid, .zeroReturn sid] ho hn (by simp) hlisted (fun x hx => ?_)
      fun x v' hv' => ?_
    · simp at hx
      subst hx
      rw [hn]
      exact .inl (.inr (by simp))
    · cases hv'
      refine ⟨hvisits.client, fun _ _ => ?_, fun hl => ?_, nofun⟩
      · rw [hn]
        exact List.mem_cons_self
      · rw [hn, lost_cons rfl, lost_cons rfl] at hl
        cases hl.symm.trans hnot

/-- The visited stream is marked as done, or as complete after its fin was fed. -/
theorem Requests.marked {f : H3Stream → H3Stream} {sid : ℤ} {s : H3Session} {pc : EventPc}
    (hR : Requests σ) (ho : s.obj = (σ.session.modify sid f).obj) (hn : s.notes = σ.session.notes)
    (hf : ∀ o, Recorded σ.session.notes sid o → Recorded σ.session.notes sid (f o))
    (hvisit : ∀ sid v, pc.visit = some (sid, v) → Visits s sid v) : Requests ⟨s, pc, σ.tasks⟩ := by
  constructor
  · dsimp only
    rw [ho, hn]
    exact modify_forall hR.recorded (fun _ _ _ hr => hr) fun o _ hr => hf o hr
  · dsimp only
    rw [hn, ho]
    intro x hc
    rw [H3Session.modify_obj_isSome]
    exact hR.known x hc
  · dsimp only
    rw [hn]
    exact hR.fed
  · exact hvisit
  · dsimp only
    rw [hn]
    exact hR.listed

/-- After a fin, a reset or lost stream is closed next, unless it has already been. -/
theorem Visits.afterFin {sid : ℤ} {origin : FinFrom} {v : VisitPc}
    (hv : Visits σ.session sid (.inside (.fin origin))) (hR : Requests σ)
    (ho : s.obj = (σ.session.modify sid fun o => { o with bodyComplete := true }).obj)
    (hn : s.notes = σ.session.notes) (hafter : AfterFin σ.session sid origin v) : Visits s sid v := by
  rcases hafter with rfl | ⟨rfl, hgone⟩
  · exact ⟨hv.client, nofun, fun _ => rfl, nofun⟩
  · refine ⟨hv.client, nofun, fun _ => rfl, fun _ hl o hx => ?_⟩
    rw [hn] at hl
    have hwrite : origin.writeFinished := by
      have hlossy := hv.lossy hl
      cases origin with
      | finished w =>
        cases w with
        | true => rfl
        | false => cases hlossy
      | zeroReturn => cases hlossy
    rw [ho, H3Session.modify_obj_self] at hx
    obtain ⟨o₀, ho₀, rfl⟩ := Option.map_eq_some_iff.mp hx
    refine .inl ((hR.recorded sid o₀ ho₀).gone ?_)
    have hq := hgone hwrite
    unfold H3Session.qstream at hq
    rw [ho₀] at hq
    exact hq

theorem Requests.returned {d : Drain} {sid : ℤ} {call : LibCall} {err : Option LibErr} {v : VisitPc}
    (hR : Requests σ) (hpc : σ.pc = .drain d (.visit sid (.inside call)))
    (hok : contract σ (.event (.returned err))) (hn : s.notes = σ.session.notes)
    (h : Returned σ.session sid call s v) : Requests ⟨s, .drain d (.visit sid v), σ.tasks⟩ := by
  have hvisits := hR.visit sid (.inside call) (by rw [hpc]; rfl)
  have hsame : s.obj = σ.session.obj → Visits s sid v →
      Requests ⟨s, .drain d (.visit sid v), σ.tasks⟩ := by
    intro ho hv
    refine hR.noted s [] ho hn nofun (hn ▸ hR.listed) nofun fun x v' hv' => ?_
    cases hv'
    exact hv
  have hmarked : ∀ {f : H3Stream → H3Stream}, s.obj = (σ.session.modify sid f).obj →
      (∀ o, Recorded σ.session.notes sid o → Recorded σ.session.notes sid (f o)) → Visits s sid v →
      Requests ⟨s, .drain d (.visit sid v), σ.tasks⟩ := by
    intro f ho hf hv
    refine hR.marked ho hn hf fun x v' hv' => ?_
    cases hv'
    exact hv
  have hdone : ∀ o b, Recorded σ.session.notes sid o →
      Recorded σ.session.notes sid { o with done := true, bodyComplete := b } :=
    fun o b hr => ⟨hr.isBidi, hr.headers, fun _ => .inl rfl, fun _ => rfl, fun _ => rfl⟩
  have hread : call = .read → ¬ lost sid s.notes := by
    rintro rfl hl
    rw [hn] at hl
    cases hvisits.lossy hl
  cases h with
  | reject ho hd hcall => exact hsame ho ⟨hvisits.client, nofun, fun _ => rfl, nofun⟩
  | readFailed ho hd =>
    refine hmarked ho (fun o hr => hdone o o.bodyComplete hr) ?_
    exact ⟨hvisits.client, nofun, fun _ => rfl, fun _ hl => absurd hl (hread rfl)⟩
  | read ho hd hlooked hv =>
    apply hsame ho
    rcases hv with rfl | rfl
    · exact ⟨hvisits.client, nofun, fun hl => absurd hl (hread rfl), nofun⟩
    · exact ⟨hvisits.client, nofun, fun _ => rfl, fun _ hl => absurd hl (hread rfl)⟩
  | finFailed ho hd hv =>
    refine hmarked ho (fun o hr => ?_) (hvisits.afterFin hR ho hn hv)
    exact ⟨hr.isBidi, hr.headers, fun _ => .inr (hvisits.feeding _ rfl), hr.closed, hr.gone⟩
  | fin ho hd hlooked hv =>
    refine hmarked ho (fun o hr => ?_) (hvisits.afterFin hR ho hn hv)
    exact ⟨hr.isBidi, hr.headers, fun _ => .inr (hvisits.feeding _ rfl), hr.closed, hr.gone⟩
  | shutdown => exact hsame rfl ⟨hvisits.client, nofun, fun _ => rfl, nofun⟩
  | rejected ho hd hv =>
    refine hmarked ho (fun o hr => hdone o true hr) ?_
    rcases hv with rfl | rfl | rfl
    · exact ⟨hvisits.client, nofun, fun _ => rfl, nofun⟩
    · exact ⟨hvisits.client, nofun, fun _ => rfl, nofun⟩
    · refine ⟨hvisits.client, nofun, fun _ => rfl, fun _ _ o hx => ?_⟩
      rw [ho, H3Session.modify_obj_self] at hx
      obtain ⟨o₀, -, rfl⟩ := Option.map_eq_some_iff.mp hx
      exact .inl rfl
  | closed =>
    refine hsame rfl ⟨hvisits.client, nofun, fun _ => rfl, fun _ _ o hx => ?_⟩
    simp only [contract, finReported, closeReported, lossFinal, hpc, EventPc.visit, Bool.and_true,
      Bool.true_and, Bool.or_eq_true, Bool.not_eq_true', decide_eq_true_eq] at hok
    rcases hok with hheaders | hclosed
    · rw [H3Session.has_of_obj hx] at hheaders
      exact .inr hheaders
    · exact .inl ((hR.recorded sid o hx).closed (mem_notes hclosed rfl))

/-- A stream is put on the list only if its request is whole. -/
theorem Requests.wholeRequest {d : Drain} {sid : ℤ} (hR : Requests σ)
    (hpc : σ.pc = .drain d (.visit sid (.leave false))) (hready : σ.session.has sid (·.ready)) :
    WholeRequest (.listed sid) σ.session.notes := by
  have hvisits := hR.visit sid (.leave false) (by rw [hpc]; rfl)
  obtain ⟨o, ho, hready⟩ := H3Session.has_iff.mp hready
  simp only [H3Stream.ready, Bool.and_eq_true, Bool.not_eq_true'] at hready
  obtain ⟨⟨⟨⟨hbidi, hdone⟩, hheaders⟩, hbody⟩, -⟩ := hready
  have hr := hR.recorded sid o ho
  have hnot : lost sid σ.session.notes = false := by
    refine Bool.eq_false_iff.mpr fun hl => ?_
    rcases hvisits.left rfl hl o ho with h | h
    · cases hdone.symm.trans h
    · cases hheaders.symm.trans h
  have hfed : .finFed sid ∈ σ.session.notes := by
    apply (hr.body hbody).resolve_left
    rw [hdone]
    exact Bool.false_ne_true
  refine ⟨hr.isBidi.symm.trans hbidi, hvisits.client, hr.headers hheaders, ?_, lost_iff.mp hnot⟩
  apply (hR.fed sid hfed).resolve_right
  rw [hnot]
  exact Bool.false_ne_true

theorem Requests.leave {d d' : Drain} {sid : ℤ} {rejected : Bool} {pc : DrainPc} (hR : Requests σ)
    (hpc : σ.pc = .drain d (.visit sid (.leave rejected)))
    (hs : Still (drainList σ.session d sid rejected).1 s)
    (hvisit : (EventPc.drain d' pc).visit = none) : Requests ⟨s, .drain d' pc, σ.tasks⟩ := by
  have hlist : Requests ⟨(drainList σ.session d sid rejected).1, .drain d' pc, σ.tasks⟩ := by
    unfold drainList
    split_ifs with h
    · simp only [Bool.and_eq_true, Bool.not_eq_true'] at h
      obtain ⟨⟨rfl, hready⟩, -⟩ := h
      have hlisted := hR.listed.cons (hR.wholeRequest hpc hready)
      refine hR.noted (σ.session.log (.listed sid)) [.listed sid] rfl rfl (by simp) hlisted (by simp)
        fun x v hv => ?_
      rw [hvisit] at hv
      cases hv
    · exact hR.still (.refl _) (.inl hvisit)
  exact hlist.still hs (.inr rfl)

theorem Requests.step (hR : Requests σ) (hok : contract σ act) (h : σ.step conf act = some σ') :
    Requests σ' := by
  cases step_effect h with
  | added hs hvisit hc => exact hR.added hs hvisit.1
  | still hs hdead hvisit hc =>
    apply hR.still hs
    rcases hvisit with ⟨hv, -⟩ | ⟨hv, -⟩
    · exact .inl hv
    · exact .inr hv
  | callback hpc => exact hR.callback hok hpc
  | begin hpc hdone hq hclient => exact hR.begin hclient
  | enter hpc => exact hR.enter hpc hok
  | loop hpc hv hc => exact hR.loop hpc hv
  | returned hpc =>
    exact hR.returned hpc hok (callReturned_notes conf _ _ _ _) (callReturned_returned conf _ _ _ _)
  | leave hpc hs hdead hvisit hc => exact hR.leave hpc hs hvisit

theorem requests_reach (h : Reach (State.step conf) (fun σ act => contract σ act) .start σ) :
    Requests σ :=
  h.invariant requests_start fun _ _ _ hR hok hs => hR.step hok hs

end

end ModHttp3.System
