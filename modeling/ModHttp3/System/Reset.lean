import ModHttp3.Lib.History
import ModHttp3.System.Effect

/-! Streams that the client resets. A visit treats a read side that was reset, or lost with the
connection, like one that the client has ended: if the request is not complete, it feeds
nghttp3 a fin that was never received. -/
namespace ModHttp3.System
open Session Lib

/-- A fin is fed only after the client's own. -/
def FinRead : Event → List Event → Prop
  | .finFed sid, earlier => .stateSeen sid .finished ∈ earlier ∨ .zeroReturn sid ∈ earlier
  | _, _ => True

def seenState (sid : ℤ) : Event → Option StreamState
  | .stateSeen x st => if x = sid then some st else none
  | _ => none

/-- The read state that the last visit of the stream has found. -/
def lastSeen (sid : ℤ) (l : List Event) : Option StreamState := l.findSome? (seenState sid)

/-- A visit finds the read side reset or lost only when the request is already complete. -/
def resetAfterBody (σ : State) (act : Action) : Bool :=
  match σ.pc.visit, act with
  | some (sid, .enter), .event (.state rstate _) => !rstate.broken || σ.session.has sid (·.bodyComplete)
  | _, _ => true

/-- Where a visit that found the read side reset or lost can be, if it feeds no fin. -/
def calm : VisitPc → Bool
  | .enter | .inside .closeEnded | .leave false => true
  | _ => false

structure Resets (σ : State) : Prop where
  fin : Justified FinRead σ.session.notes
  calm : ∀ sid v st, σ.pc.visit = some (sid, v) → lastSeen sid σ.session.notes = some st →
    st.broken → calm v

section
variable {conf : SessionConf} {σ σ' : State} {act : Action}

theorem lastSeen_cons {e : Event} {l : List Event} {sid : ℤ} (he : seenState sid e = none) :
    lastSeen sid (e :: l) = lastSeen sid l := by
  unfold lastSeen
  rw [List.findSome?_cons, he]

private theorem lastSeen_stateSeen (sid : ℤ) (st : StreamState) (l : List Event) :
    lastSeen sid (.stateSeen sid st :: l) = some st := by
  unfold lastSeen
  rw [List.findSome?_cons]
  simp [seenState]

private theorem lastSeen_trace (sid : ℤ) (s : H3Session) : lastSeen sid s.notes = lastSeen sid s.trace := by
  apply findSome?_filter
  intro e he
  cases e <;> first | rfl | cases he

/-- The same notes, and the same visit or none. -/
theorem Resets.same (hR : Resets σ) (hn : σ'.session.notes = σ.session.notes)
    (hv : σ'.pc.visit = none ∨ σ'.pc.visit = σ.pc.visit) : Resets σ' := by
  constructor
  · rw [hn]
    exact hR.fin
  · intro sid v st hvisit
    rw [hn]
    rcases hv with he | he
    · rw [he] at hvisit
      cases hvisit
    · exact hR.calm sid v st (he ▸ hvisit)

theorem Resets.callback (hR : Resets σ) (cb : Callback) :
    Resets { σ with session := σ.session.callback conf cb } := by
  have hnotes := callback_notes conf σ.session cb
  split_ifs at hnotes
  · cases cb with
    | endHeaders sid fin | streamClose sid =>
      constructor
      · dsimp only
        rw [hnotes]
        exact hR.fin.cons trivial
      · intro x v st hvisit hseen
        dsimp only at hseen
        rw [hnotes] at hseen
        exact hR.calm x v st hvisit ((lastSeen_cons rfl).symm.trans hseen)
    | _ => exact hR.same hnotes (.inr rfl)
  · exact hR.same hnotes (.inr rfl)

/-- What a visit that feeds no fin it has not read finds first. -/
theorem Resets.enter {d : Drain} {sid : ℤ} {rstate wstate : StreamState} (hR : Resets σ)
    (hpc : σ.pc = .drain d (.visit sid .enter)) (hok : resetAfterBody σ (.event (.state rstate wstate))) :
    Resets ⟨(σ.session.visitEnter sid rstate wstate).1,
      .drain d (.visit sid (σ.session.visitEnter sid rstate wstate).2), σ.tasks⟩ := by
  have hbody : rstate.broken → σ.session.has sid (·.bodyComplete) := by
    unfold resetAfterBody at hok
    rw [hpc] at hok
    simpa [EventPc.visit, ← Bool.not_eq_true, Classical.or_iff_not_imp_left] using hok
  have hseen : lastSeen sid (σ.session.entered sid rstate).notes = some rstate := by
    rw [entered_notes]
    exact lastSeen_stateSeen sid rstate _
  have hfin : Justified FinRead (σ.session.entered sid rstate).notes := by
    rw [entered_notes]
    exact hR.fin.cons trivial
  apply visitEnter_cases sid rstate wstate
    (P := fun next => Resets ⟨next.1, .drain d (.visit sid next.2), σ.tasks⟩)
  · intro _ hnot
    refine ⟨hfin, fun x v st hvisit hst hb => ?_⟩
    cases hvisit
    cases hseen.symm.trans hst
    rw [hb] at hnot
    cases hnot
  · intro _
    refine ⟨hfin, fun x v st hvisit hst hb => ?_⟩
    cases hvisit
    cases hseen.symm.trans hst
    rw [writeFinished_of_broken wstate hb]
    unfold H3Session.closeIfFinished
    split <;> rfl
  · intro hend hnot
    have hfinished : rstate = .finished := by
      apply hend.resolve_right
      intro hb
      rw [hbody hb] at hnot
      cases hnot
    subst hfinished
    constructor
    · apply hfin.cons
      rw [entered_notes]
      exact .inl List.mem_cons_self
    · intro x v st hvisit hst hb
      cases hvisit
      cases hseen.symm.trans ((lastSeen_cons rfl).symm.trans hst)
      cases hb

theorem Resets.loop {a : Answer} {d d' : Drain} {sid : ℤ} {s : H3Session} {v : VisitPc}
    (hR : Resets σ) (hpc : σ.pc = .drain d (.visit sid .loop))
    (hv : visitLoop conf sid σ.session d a = some (s, d', v)) :
    Resets ⟨s, .drain d' (.visit sid v), σ.tasks⟩ := by
  have hnot : ∀ st, lastSeen sid σ.session.notes = some st → ¬ st.broken := by
    intro st hseen hb
    have := hR.calm sid .loop st (by rw [hpc]; rfl) hseen hb
    cases this
  have hvacuous : ∀ {s₁ : H3Session}, lastSeen sid s₁.notes = lastSeen sid σ.session.notes →
      Justified FinRead s₁.notes → Resets ⟨s₁, .drain d' (.visit sid v), σ.tasks⟩ := by
    intro s₁ he hfin
    refine ⟨hfin, fun x v' st hvisit hst hb => ?_⟩
    cases hvisit
    exact absurd hb (hnot st (he.symm.trans hst))
  cases visitLoop_looped conf hv with
  | left hs hd => exact hvacuous (congrArg _ hs.notes) (hs.notes ▸ hR.fin)
  | gone => exact hvacuous rfl hR.fin
  | data ho hn hd => exact hvacuous (congrArg _ hn) (hn ▸ hR.fin)
  | ended ho hn hd =>
    apply hvacuous
    · rw [hn, lastSeen_cons rfl, lastSeen_cons rfl]
    · have hzero : Justified FinRead (.zeroReturn sid :: σ.session.notes) := hR.fin.cons trivial
      rw [hn]
      exact hzero.cons (.inr List.mem_cons_self)

theorem Resets.returned {d : Drain} {sid : ℤ} {call : LibCall} {err : Option LibErr} (hR : Resets σ)
    (hpc : σ.pc = .drain d (.visit sid (.inside call))) :
    Resets ⟨(σ.session.callReturned conf sid err call).1,
      .drain d (.visit sid (σ.session.callReturned conf sid err call).2), σ.tasks⟩ := by
  have hnotes := callReturned_notes conf σ.session sid err call
  constructor
  · dsimp only
    rw [hnotes]
    exact hR.fin
  · intro x v st hvisit hseen hb
    dsimp only at hseen
    rw [hnotes] at hseen
    cases hvisit
    have hcalm := hR.calm sid (.inside call) st (by rw [hpc]; rfl) hseen hb
    cases call <;> cases hcalm
    rfl

theorem Resets.step (hR : Resets σ) (hok : resetAfterBody σ act) (h : σ.step conf act = some σ') :
    Resets σ' := by
  cases step_effect h with
  | added hs hvisit hc => exact hR.same hs.notes (.inl hvisit.1)
  | still hs hdead hvisit hc =>
    apply hR.same hs.notes
    rcases hvisit with ⟨hv, -⟩ | ⟨hv, -⟩
    · exact .inl hv
    · exact .inr hv
  | callback hpc => exact hR.callback _
  | begin hpc hdone hq hclient =>
    refine ⟨hR.fin, fun sid v st hvisit _ _ => ?_⟩
    cases hvisit
    rfl
  | enter hpc => exact hR.enter hpc hok
  | loop hpc hv hc => exact hR.loop hpc hv
  | returned hpc => exact hR.returned hpc
  | @leave d d' sid rejected s pc hpc hs hdead hvisit hc =>
    have hlist : Resets ⟨(drainList σ.session d sid rejected).1, .drain d' pc, σ.tasks⟩ := by
      unfold drainList
      split_ifs
      · refine ⟨hR.fin.cons trivial, fun x v st he => ?_⟩
        rw [hvisit] at he
        cases he
      · exact hR.same rfl (.inl hvisit)
    exact hlist.same hs.notes (.inr rfl)

private theorem resets_reach (h : Reach (State.step conf) (fun σ act => resetAfterBody σ act) .start σ) :
    Resets σ := by
  refine h.invariant ⟨justified_nil, nofun⟩ ?_
  exact fun _ _ _ hR hok hs => hR.step hok hs

/-- A calm visit does not end the connection. -/
private theorem ngh3Dead_of_calm {sid : ℤ} {v : VisitPc} (hvisit : σ.pc.visit = some (sid, v)) (hv : calm v)
    (h : σ.step conf act = some σ') : σ'.session.ngh3Dead = σ.session.ngh3Dead := by
  have hat : ∀ {d : Drain} {x : ℤ} {v' : VisitPc}, σ.pc = .drain d (.visit x v') → v' = v := by
    intro d x v' hpc
    rw [hpc] at hvisit
    cases hvisit
    rfl
  cases step_effect h with
  | added hs hv' hc => exact hs.ngh3Dead
  | still hs hdead hv' hc =>
    rcases hv' with ⟨-, hnone⟩ | ⟨-, hsame⟩
    · rw [hvisit] at hnone
      cases hnone
    · exact hsame
  | callback hpc => exact callback_ngh3Dead conf σ.session _
  | begin hpc hdone hq hclient => rfl
  | @enter d x rstate wstate hpc =>
    exact visitEnter_cases x rstate wstate (P := fun next => next.1.ngh3Dead = σ.session.ngh3Dead)
      (fun _ _ => entered_ngh3Dead σ.session x rstate) (fun _ => entered_ngh3Dead σ.session x rstate)
      (fun _ _ => entered_ngh3Dead σ.session x rstate)
  | loop hpc hloop hc =>
    cases hat hpc
    cases hv
  | @returned d x call err hpc =>
    cases hat hpc
    cases call <;> cases hv
    rfl
  | leave hpc hs hdead hvisit hc => exact hdead

/-- If every stream found reset or lost had its request complete, a fin is fed only after the
client's own, and the visit of a stream last found reset or lost never ends the connection. -/
theorem reset_spares_connection
    (h : Reach (State.step conf) (fun σ act => resetAfterBody σ act) .start σ) :
    (∀ later sid earlier, σ.session.trace = later ++ .finFed sid :: earlier →
      .stateSeen sid .finished ∈ earlier ∨ .zeroReturn sid ∈ earlier) ∧
    (∀ sid v st act σ', σ.pc.visit = some (sid, v) → lastSeen sid σ.session.trace = some st →
      st.broken → σ.step conf act = some σ' → σ'.session.ngh3Dead = σ.session.ngh3Dead) := by
  have hR := resets_reach h
  constructor
  · intro later sid earlier htrace
    have hfin : Justified FinRead σ.session.trace := by
      apply hR.fin.of_filter
      · intro e l _ hJ
        cases e with
        | finFed x => exact hJ.imp (List.mem_filter.mp · |>.1) (List.mem_filter.mp · |>.1)
        | _ => trivial
      · intro e l he
        cases e <;> trivial
    exact hfin later (.finFed sid) earlier htrace
  · intro sid v st act σ' hvisit hseen hb hstep
    rw [← lastSeen_trace] at hseen
    exact ngh3Dead_of_calm hvisit (hR.calm sid v st hvisit hseen hb) hstep

/-- The first bytes of a request on stream 0 arrive. -/
def partialRequest : List Action :=
  [.event (.accepted 20 0 true), .event (.noMore [0, 3, 7, 11]), .event .go, .event (.state .ok .ok),
    .event (.data 5), .event (.returned none), .event .nothing, .event .go, .event .go, .event .go,
    .event .go, .event .go, .event .go]

/-- The next visit of stream 0 finds the given read state. -/
def visitAgain (rstate : StreamState) : List Action :=
  [.event (.flag false), .event (.flag false), .event (.noMore [0, 3, 7, 11]), .event .go,
    .event (.state rstate .ok)]

/-- A connection that is lost after the end of the request. -/
theorem reset_spares_connection_run :
    ∃ σ, Reach (State.step sampleConf) (fun σ act => resetAfterBody σ act) .start σ ∧
      lastSeen 0 σ.session.trace = some .connClosed ∧ σ.session.ngh3Dead = false ∧
      ∀ act σ', σ.step sampleConf act = some σ' → σ'.session.ngh3Dead = false := by
  have hrun : (runChecked (State.step sampleConf) (fun σ act => resetAfterBody σ act) .start
      (openSession ++ receiveRequest ++ visitAgain .connClosed)).map
      (fun σ => (σ.pc.visit, lastSeen 0 σ.session.trace, σ.session.ngh3Dead)) =
        some (some (0, .inside .closeEnded), some .connClosed, false) := by
    decide +kernel
  obtain ⟨σ, hσ, he⟩ := Option.map_eq_some_iff.mp hrun
  simp only [Prod.mk.injEq] at he
  obtain ⟨hvisit, hseen, hdead⟩ := he
  have hreach := Reach.of_runChecked _ hσ
  refine ⟨σ, hreach, hseen, hdead, fun act σ' hstep => ?_⟩
  exact ((reset_spares_connection hreach).2 0 _ _ act σ' hvisit hseen rfl hstep).trans hdead

/-- A request stream that is reset in the middle of its first frame: nghttp3 is fed a fin that
was not read, fails, and the connection ends. -/
theorem reset_ends_connection :
    ∃ σ σ', Reach (State.step sampleConf) anyStep .start σ ∧
      lastSeen 0 σ.session.trace = some .resetRemote ∧
      (∃ earlier, σ.session.trace = .finFed 0 :: earlier ∧ .stateSeen 0 .finished ∉ earlier ∧
        .zeroReturn 0 ∉ earlier) ∧
      σ.session.ngh3Dead = false ∧
      σ.step sampleConf (.event (.returned (some (.other (-1))))) = some σ' ∧
      σ'.session.ngh3Dead = true := by
  have hrun : ((runActions (State.step sampleConf) .start
      (openSession ++ partialRequest ++ endPass ++ visitAgain .resetRemote)).bind fun σ =>
        (σ.step sampleConf (.event (.returned (some (.other (-1)))))).map fun σ' =>
          (lastSeen 0 σ.session.trace, σ.session.trace.head?,
            decide (.stateSeen 0 .finished ∈ σ.session.trace),
            decide (.zeroReturn 0 ∈ σ.session.trace), σ.session.ngh3Dead, σ'.session.ngh3Dead)) =
        some (some .resetRemote, some (.finFed 0), false, false, false, true) := by
    decide +kernel
  obtain ⟨σ, hσ, hrest⟩ := Option.bind_eq_some_iff.mp hrun
  obtain ⟨σ', hσ', he⟩ := Option.map_eq_some_iff.mp hrest
  simp only [Prod.mk.injEq, decide_eq_false_iff_not] at he
  obtain ⟨hseen, hhead, hfinished, hzero, hdead, hdead'⟩ := he
  obtain ⟨earlier, htrace⟩ := List.head?_eq_some_iff.mp hhead
  refine ⟨σ, σ', Reach.of_runActions _ hσ, hseen, ⟨earlier, htrace, ?_, ?_⟩, hdead, hσ', hdead'⟩
  · exact fun hm => hfinished (htrace ▸ List.mem_cons_of_mem _ hm)
  · exact fun hm => hzero (htrace ▸ List.mem_cons_of_mem _ hm)

end

end ModHttp3.System
