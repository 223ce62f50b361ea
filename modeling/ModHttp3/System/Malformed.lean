import ModHttp3.System.Effect

/-! Malformed requests. Whether a request is malformed is looked up only after nghttp3 has read
data or the fin of its own stream, but it may be found out while another stream is read: when
the QPACK encoder stream brings what the request's field section was waiting for. -/
namespace ModHttp3.System
open Session Lib

/-- The field marks its request as malformed. -/
def badField (conf : SessionConf) (field : HeaderField) : Bool :=
  decide (field.token ≠ .regular) &&
    (fieldOversized conf field || decide (field.value.length = 0 ∨ 8192 ≤ field.value.length))

/-- nghttp3 is called for the visited stream, and whether it is malformed will be looked up. -/
def VisitPc.checking : VisitPc → Bool
  | .inside .closeEnded => false
  | .inside _ => true
  | _ => false

def EventPc.checks (pc : EventPc) (sid : ℤ) : Bool :=
  match pc.visit with
  | some (x, v) => x == sid && VisitPc.checking v
  | none => false

/-- No request is found malformed after its fin was fed, and none that was found malformed is
ended by a callback, unless nghttp3 is called for it. -/
def foundInTime (conf : SessionConf) (σ : State) : Action → Bool
  | .event (.callback (.recvHeader sid field)) =>
    !badField conf field || !σ.session.has sid (·.bodyComplete)
  | .event (.callback (.endHeaders sid true)) =>
    !σ.session.has sid (fun o => o.malformed && !o.done) || σ.pc.checks sid
  | _ => true

/-- If the stream is malformed and its request complete, it is done, or something else holds. -/
def Settled (o : H3Stream) (rest : Prop) : Prop := o.malformed → o.bodyComplete → o.done ∨ rest

/-- A malformed stream whose request is complete is done or being checked, and a stream on the
list of completed requests is not malformed. -/
def Judged (σ : State) (sid : ℤ) (o : H3Stream) : Prop :=
  Settled o (σ.pc.checks sid ∨ σ.session.ngh3Dead) ∧
    (sid ∈ σ.pc.completed → o.bodyComplete ∧ o.malformed = false)

section
variable {conf : SessionConf} {σ σ' : State} {act : Action}

private theorem setPseudo_malformed {token : Token} (ht : token ≠ .regular) (value : Bytes) (o : H3Stream) :
    (setPseudo token value o).malformed =
      (o.malformed || decide (value.length = 0 ∨ 8192 ≤ value.length)) := by
  unfold setPseudo
  by_cases hlen : value.length = 0 ∨ 8192 ≤ value.length
  · rw [if_pos hlen, decide_eq_true hlen, Bool.or_true]
  · rw [if_neg hlen, decide_eq_false hlen, Bool.or_false]
    cases token
    case regular => exact absurd rfl ht
    all_goals rfl

private theorem onRecvHeader_malformed (conf : SessionConf) (field : HeaderField) (o : H3Stream) :
    (onRecvHeader conf field o).malformed = (o.malformed || badField conf field) := by
  unfold onRecvHeader badField
  by_cases ht : field.token ≠ .regular
  · rw [if_pos ht, decide_eq_true ht, Bool.true_and]
    cases fieldOversized conf field with
    | true => exact (Bool.or_true _).symm
    | false => exact setPseudo_malformed ht field.value o
  · rw [if_neg ht, decide_eq_false ht, Bool.false_and, Bool.or_false]
    cases o.headers with
    | none => rfl
    | some headers =>
      dsimp only
      unfold addField
      dsimp only
      split_ifs <;> rfl

/-- A header callback tells whether the request is malformed, and nothing else. -/
theorem onRecvHeader_sameRequest (conf : SessionConf) (field : HeaderField) (o : H3Stream) :
    SameRequest { o with malformed := o.malformed || badField conf field } (onRecvHeader conf field o) := by
  have hm := onRecvHeader_malformed conf field o
  obtain ⟨_, _, _, _, _, _, _, _, -, he⟩ := onRecvHeader_eq conf field o
  rw [he] at hm ⊢
  exact ⟨rfl, rfl, rfl, rfl, rfl, rfl, rfl, hm⟩

theorem Settled.same {o o' : H3Stream} {rest : Prop} (hs : Settled o rest) (h : SameRequest o o') :
    Settled o' rest := by
  unfold Settled
  rw [h.malformed, h.bodyComplete, h.done]
  exact hs

/-- What a callback that comes in time leaves of a stream. -/
private theorem onStream_settled {cb : Callback} {o : H3Stream} {dead : Prop}
    (hin : foundInTime conf σ (.event (.callback cb))) (ho : σ.session.obj cb.sid = some o)
    (hs : Settled o (σ.pc.checks cb.sid ∨ dead)) :
    Settled (cb.onStream conf o) (σ.pc.checks cb.sid ∨ dead) := by
  cases cb with
  | beginHeaders sid => exact hs
  | recvHeader sid field =>
    change σ.session.obj sid = some o at ho
    refine Settled.same ?_ (onRecvHeader_sameRequest conf field o)
    intro hbad hbody
    rcases Bool.or_eq_true_iff.mp hbad with hold | hnew
    · exact hs hold hbody
    · have hnot : o.bodyComplete = false := by
        simpa [foundInTime, hnew, H3Session.has_of_obj ho] using hin
      cases hbody.symm.trans hnot
  | endHeaders sid fin =>
    change σ.session.obj sid = some o at ho
    simp only [Callback.onStream, onEndHeaders]
    split_ifs
    · intro hbad hbody
      rcases Bool.or_eq_true_iff.mp hbody with hold | rfl
      · exact hs hbad hold
      · have hin' : o.done ∨ σ.pc.checks sid := by
          have hbad : o.malformed = true := hbad
          simpa [foundInTime, H3Session.has_of_obj ho, hbad] using hin
        exact hin'.imp id .inl
    · exact hs
  | recvData sid data => exact hs.same (onRecvData_sameRequest conf data o)
  | stopSending sid => exact fun _ _ => .inl rfl
  | resetStream sid => exact fun _ _ => .inl rfl
  | streamClose sid => exact fun _ _ => .inl rfl
  | responseData sid => exact hs

theorem onStream_listed {cb : Callback} {o : H3Stream}
    (hin : foundInTime conf σ (.event (.callback cb))) (ho : σ.session.obj cb.sid = some o)
    (hb : o.bodyComplete) (hm : o.malformed = false) :
    (cb.onStream conf o).bodyComplete ∧ (cb.onStream conf o).malformed = false := by
  cases cb with
  | recvHeader sid field =>
    change σ.session.obj sid = some o at ho
    have hs := onRecvHeader_sameRequest conf field o
    have hgood : badField conf field = false := by
      simpa [foundInTime, H3Session.has_of_obj ho, hb] using hin
    refine ⟨hs.bodyComplete.trans hb, hs.malformed.trans ?_⟩
    rw [hm, hgood]
    rfl
  | endHeaders sid fin =>
    simp only [Callback.onStream, onEndHeaders]
    split_ifs
    · exact ⟨by rw [hb]; rfl, hm⟩
    · exact ⟨hb, hm⟩
  | recvData sid data =>
    have hs := onRecvData_sameRequest conf data o
    exact ⟨hs.bodyComplete.trans hb, hs.malformed.trans hm⟩
  | stopSending sid => exact ⟨rfl, hm⟩
  | _ => exact ⟨hb, hm⟩

theorem checks_eq {pc : EventPc} {sid x : ℤ} {v : VisitPc} (hpc : pc.visit = some (x, v)) :
    pc.checks sid = (x == sid && VisitPc.checking v) := by
  unfold EventPc.checks
  rw [hpc]

theorem checks_none {pc : EventPc} (hpc : pc.visit = none) (sid : ℤ) : pc.checks sid = false := by
  unfold EventPc.checks
  rw [hpc]

/-- The stream has made no progress, and is checked no less. -/
theorem Judged.same {sid : ℤ} {o o' : H3Stream} (hJ : Judged σ sid o) (h : SameRequest o o')
    (hrest : σ.pc.checks sid ∨ σ.session.ngh3Dead → σ'.pc.checks sid ∨ σ'.session.ngh3Dead)
    (hc : σ'.pc.completed ⊆ σ.pc.completed) : Judged σ' sid o' := by
  constructor
  · intro hm hb
    rw [h.malformed] at hm
    rw [h.bodyComplete] at hb
    rw [h.done]
    exact (hJ.1 hm hb).imp id hrest
  · intro hin
    rw [h.malformed, h.bodyComplete]
    exact hJ.2 (hc hin)

/-- The same stream in a visit that goes on, of this stream or another. -/
theorem Judged.visit {d d' : Drain} {x sid : ℤ} {v v' : VisitPc} {o : H3Stream} {s : H3Session}
    (hJ : Judged σ sid o) (hpc : σ.pc = .drain d (.visit x v))
    (hv : x = sid → VisitPc.checking v → VisitPc.checking v')
    (hdead : σ.session.ngh3Dead → s.ngh3Dead) (hc : d'.completed = d.completed) :
    Judged ⟨s, .drain d' (.visit x v'), σ.tasks⟩ sid o := by
  apply hJ.same (.refl o)
  · rintro (hchecks | hd)
    · rw [hpc, checks_eq rfl, Bool.and_eq_true, beq_iff_eq] at hchecks
      left
      rw [checks_eq rfl, Bool.and_eq_true, beq_iff_eq]
      exact ⟨hchecks.1, hv hchecks.1 hchecks.2⟩
    · exact .inr (hdead hd)
  · rw [hpc]
    change d'.completed ⊆ d.completed
    rw [hc]
    exact List.Subset.refl _

private theorem judged_returned {d : Drain} {sid : ℤ} {call : LibCall} {s : H3Session} {v : VisitPc}
    (hI : ∀ x o, σ.session.obj x = some o → Judged σ x o)
    (hpc : σ.pc = .drain d (.visit sid (.inside call))) (h : Returned σ.session sid call s v) :
    ∀ x o, s.obj x = some o → Judged ⟨s, .drain d (.visit sid v), σ.tasks⟩ x o := by
  -- the streams that are not visited
  have hother : ∀ {s' : H3Session} {v' : VisitPc}, (σ.session.ngh3Dead → s'.ngh3Dead) →
      ∀ x o, x ≠ sid → Judged σ x o → Judged ⟨s', .drain d (.visit sid v'), σ.tasks⟩ x o :=
    fun hd x o hx hJ => hJ.visit hpc (fun he => absurd he.symm hx) hd rfl
  -- the visited one is done, checked or the connection is dead
  have hself : ∀ {s' : H3Session} {v' : VisitPc} {o o' : H3Stream}, Judged σ sid o →
      o'.malformed = o.malformed → (o.bodyComplete → o'.bodyComplete) →
      (o.malformed → o'.done ∨ VisitPc.checking v' ∨ s'.ngh3Dead) →
      Judged ⟨s', .drain d (.visit sid v'), σ.tasks⟩ sid o' := by
    intro s' v' o o' hJ hm hb hs
    constructor
    · intro hm' _
      rw [hm] at hm'
      refine (hs hm').imp id (.imp (fun hv => ?_) id)
      rw [checks_eq rfl, hv]
      simp
    · intro hin
      have hl := hJ.2 (hpc ▸ hin)
      exact ⟨hb hl.1, hm.trans hl.2⟩
  have hlooked : σ.session.has sid (fun o => o.malformed && !o.done) = false →
      ∀ o, σ.session.obj sid = some o → o.malformed → o.done := by
    intro hok o ho hm
    simpa [H3Session.has_of_obj ho, hm] using hok
  cases h with
  | reject ho hd hcall =>
    intro x o hx
    rw [ho] at hx
    exact (hI x o hx).visit hpc (fun _ _ => rfl) (fun h => hd.trans h) rfl
  | readFailed ho hd =>
    rw [ho]
    exact modify_forall hI (hother fun _ => hd) fun o _ hJ =>
      hself hJ rfl id fun _ => .inl rfl
  | read ho hd hok hv =>
    rw [ho]
    intro x o hx
    by_cases hxs : x = sid
    · subst hxs
      exact hself (hI x o hx) rfl id fun hm => .inl (hlooked hok o hx hm)
    · exact hother (fun h => hd.trans h) x o hxs (hI x o hx)
  | finFailed ho hd hv =>
    rw [ho]
    exact modify_forall hI (hother fun _ => hd) fun o _ hJ =>
      hself hJ rfl (fun _ => rfl) fun _ => .inr (.inr hd)
  | fin ho hd hok hv =>
    rw [ho]
    exact modify_forall hI (hother fun h => hd.trans h) fun o hx hJ =>
      hself hJ rfl (fun _ => rfl) fun hm => .inl (hlooked hok o hx hm)
  | shutdown => exact fun x o hx => (hI x o hx).visit hpc (fun _ _ => rfl) id rfl
  | rejected ho hd hv =>
    rw [ho]
    exact modify_forall hI (hother hd) fun o _ hJ => hself hJ rfl (fun _ => rfl) fun _ => .inl rfl
  | closed => exact fun x o hx => (hI x o hx).visit hpc (fun _ h => h) id rfl

private theorem judged_loop {d d' : Drain} {x : ℤ} {s : H3Session} {v : VisitPc}
    (hI : ∀ sid o, σ.session.obj sid = some o → Judged σ sid o)
    (hpc : σ.pc = .drain d (.visit x .loop)) (hc : d'.completed = d.completed)
    (hv : Looped σ.session x s v) :
    ∀ sid o, s.obj sid = some o → Judged ⟨s, .drain d' (.visit x v), σ.tasks⟩ sid o := by
  cases hv with
  | left hs hd =>
    intro sid o ho
    obtain ⟨o₀, ho₀, hsame⟩ := hs.requests.obj ho
    have hJ : Judged ⟨s, .drain d' (.visit x (.leave false)), σ.tasks⟩ sid o₀ :=
      (hI sid o₀ ho₀).visit hpc nofun (fun h => hd.trans h) hc
    exact hJ.same hsame id (List.Subset.refl _)
  | gone =>
    refine modify_forall hI (fun sid o _ hJ => hJ.visit hpc nofun id hc) fun o _ hJ => ?_
    refine ⟨fun _ _ => .inl rfl, fun hin => hJ.2 ?_⟩
    rw [hpc]
    change x ∈ d.completed
    rw [← hc]
    exact hin
  | data ho hn hd =>
    rw [ho]
    exact fun sid o hx => (hI sid o hx).visit hpc nofun (fun h => hd.trans h) hc
  | ended ho hn hd =>
    rw [ho]
    exact fun sid o hx => (hI sid o hx).visit hpc nofun (fun h => hd.trans h) hc

/-- At the end of a visit nothing is left to check, and only a stream that is not done is listed. -/
private theorem judged_leave {d d' : Drain} {x : ℤ} {rejected : Bool} {s : H3Session} {pc : DrainPc}
    (hI : ∀ sid o, σ.session.obj sid = some o → Judged σ sid o)
    (hpc : σ.pc = .drain d (.visit x (.leave rejected)))
    (hs : Still (drainList σ.session d x rejected).1 s) (hdead : s.ngh3Dead = σ.session.ngh3Dead)
    (hc : d'.completed = (drainList σ.session d x rejected).2.completed) :
    ∀ sid o, s.obj sid = some o → Judged ⟨s, .drain d' pc, σ.tasks⟩ sid o := by
  intro sid o ho
  obtain ⟨o₀, ho₀, hsame⟩ := hs.requests.obj ho
  rw [drainList_obj] at ho₀
  have hJ := hI sid o₀ ho₀
  have hsettled : Settled o₀ (σ.session.ngh3Dead) := by
    intro hm hb
    refine (hJ.1 hm hb).imp id (Or.resolve_left · ?_)
    rw [hpc, checks_eq rfl]
    simp [VisitPc.checking]
  constructor
  · apply Settled.same _ hsame
    exact fun hm hb => (hsettled hm hb).imp id fun h => .inr (hdead.trans h)
  · intro hin
    rw [hsame.malformed, hsame.bodyComplete]
    change sid ∈ d'.completed at hin
    rw [hc] at hin
    rcases mem_drainList hin with hold | ⟨rfl, hready, halive⟩
    · apply hJ.2
      rw [hpc]
      exact hold
    · rw [H3Session.has_of_obj ho₀] at hready
      simp only [H3Stream.ready, Bool.and_eq_true, Bool.not_eq_true'] at hready
      have hb := hready.1.2
      refine ⟨hb, Bool.eq_false_iff.mpr fun hm => ?_⟩
      rcases hsettled hm hb with hdone | hdead'
      · rw [hready.1.1.1.2] at hdone
        cases hdone
      · rw [halive] at hdead'
        cases hdead'

theorem judged_step (hI : ∀ sid o, σ.session.obj sid = some o → Judged σ sid o)
    (hin : foundInTime conf σ act) (h : σ.step conf act = some σ') :
    ∀ sid o, σ'.session.obj sid = some o → Judged σ' sid o := by
  cases step_effect h with
  | added hs hvisit hc =>
    intro sid o ho
    rcases hs.obj sid with he | ⟨-, g, he⟩
    · refine (hI sid o (he ▸ ho)).same (.refl o) ?_ ?_
      · rw [checks_none hvisit.2, hs.ngh3Dead]
        exact fun hor => .inr (hor.resolve_left Bool.false_ne_true)
      · rw [hc]
        exact List.nil_subset _
    · cases he.symm.trans ho
      refine ⟨nofun, ?_⟩
      rw [hc]
      nofun
  | still hs hdead hvisit hc =>
    intro sid o ho
    obtain ⟨o₀, ho₀, hsame⟩ := hs.requests.obj ho
    refine (hI sid o₀ ho₀).same hsame ?_ hc
    have hchecks : σ'.pc.checks sid = σ.pc.checks sid := by
      unfold EventPc.checks
      rcases hvisit with ⟨h', h''⟩ | ⟨h', -⟩
      · rw [h', h'']
      · rw [h']
    rw [hchecks]
    exact Or.imp id hdead
  | @callback cb hpc =>
    have hsame : ∀ sid o, Judged { σ with session := σ.session.callback conf cb } sid o =
        Judged σ sid o := by
      intro sid o
      unfold Judged
      rw [callback_ngh3Dead]
    simp only [hsame]
    exact callback_forall conf hI fun _ o ho hJ => ⟨onStream_settled hin ho hJ.1,
      fun hc => onStream_listed hin ho (hJ.2 hc).1 (hJ.2 hc).2⟩
  | @begin d x hpc hdone hq hclient =>
    intro sid o ho
    refine (hI sid o ho).same (.refl o) ?_ ?_
    · rw [hpc, checks_none rfl]
      exact fun hor => .inr (hor.resolve_left Bool.false_ne_true)
    · rw [hpc]
      exact List.Subset.refl _
  | @enter d x rstate wstate hpc =>
    have hdead : σ.session.ngh3Dead → (σ.session.entered x rstate).ngh3Dead :=
      fun h => (entered_ngh3Dead σ.session x rstate).trans h
    apply visitEnter_cases x rstate wstate (P := fun next => ∀ sid o, next.1.obj sid = some o →
      Judged ⟨next.1, .drain d (.visit x next.2), σ.tasks⟩ sid o)
    all_goals
      intros
      rename_i sid o ho
      have ho' : σ.session.obj sid = some o := (entered_obj σ.session x rstate) ▸ ho
      exact (hI sid o ho').visit hpc nofun hdead rfl
  | loop hpc hv hc => exact judged_loop hI hpc hc (visitLoop_looped conf hv)
  | @returned d x call err hpc => exact judged_returned hI hpc (callReturned_returned conf _ x err call)
  | leave hpc hs hdead hvisit hc => exact judged_leave hI hpc hs hdead hc

private theorem judged_reach (h : Reach (State.step conf) (fun σ act => foundInTime conf σ act) .start σ) :
    ∀ sid o, σ.session.obj sid = some o → Judged σ sid o := by
  refine h.invariant (I := fun σ => ∀ sid o, σ.session.obj sid = some o → Judged σ sid o) ?_ ?_
  · intro sid o ho
    cases ho
  · exact fun _ _ _ hI hin hs => judged_step hI hin hs

/-- If malformed requests are found in time, none is on the list that `drain_ready_streams`
returns or waits for `h3_process_request`, and one that is complete is done when its visit
ends, unless the connection is about to be closed. -/
theorem malformed_never_listed
    (h : Reach (State.step conf) (fun σ act => foundInTime conf σ act) .start σ) :
    (∀ sid ∈ σ.pc.completed, σ.session.has sid (·.malformed) = false) ∧
    (∀ sid rejected, σ.pc.visit = some (sid, .leave rejected) →
      σ.session.has sid (fun o => o.malformed && o.bodyComplete) → σ.session.ngh3Dead = false →
      σ.session.has sid (·.done)) := by
  have hI := judged_reach h
  constructor
  · intro sid hin
    refine Bool.eq_false_iff.mpr fun hm => ?_
    obtain ⟨o, ho, hm⟩ := H3Session.has_iff.mp hm
    cases hm.symm.trans ((hI sid o ho).2 hin).2
  · intro sid rejected hvisit hbad halive
    obtain ⟨o, ho, hbad⟩ := H3Session.has_iff.mp hbad
    obtain ⟨hm, hb⟩ := Bool.and_eq_true_iff.mp hbad
    rw [H3Session.has_of_obj ho]
    apply ((hI sid o ho).1 hm hb).resolve_right
    rw [checks_eq hvisit, halive]
    simp [VisitPc.checking]

/-- A request with a path that is longer than `LimitRequestFieldSize`. -/
def longPath : HeaderField := ⟨.path, [58], List.replicate 60 47⟩

/-- It is rejected when its stream has been read. -/
theorem malformed_never_listed_rejected :
    ∃ σ, Reach (State.step sampleConf) (fun σ act => foundInTime sampleConf σ act) .start σ ∧
      σ.session.has 0 (fun o => o.malformed && o.bodyComplete) ∧ σ.session.has 0 (·.done) := by
  have hrun : (runChecked (State.step sampleConf) (fun σ act => foundInTime sampleConf σ act) .start
      (openSession ++
        [.event (.accepted 20 0 true), .event (.noMore [0, 3, 7, 11]), .event .go,
          .event (.state .ok .ok), .event (.data 100), .event (.callback (.beginHeaders 0)),
          .event (.callback (.recvHeader 0 longPath)), .event (.returned none),
          .event (.returned none), .event (.callback (.streamClose 0)), .event (.returned none)])).map
      (fun σ => (σ.pc.visit, σ.session.has 0 (fun o => o.malformed && o.bodyComplete),
        σ.session.ngh3Dead)) = some (some (0, .leave true), true, false) := by
    decide +kernel
  obtain ⟨σ, hσ, he⟩ := Option.map_eq_some_iff.mp hrun
  simp only [Prod.mk.injEq] at he
  obtain ⟨hvisit, hbad, halive⟩ := he
  have hreach := Reach.of_runChecked _ hσ
  exact ⟨σ, hreach, hbad, (malformed_never_listed hreach).2 0 true hvisit hbad halive⟩

/-- The field section of the request on stream 0 waits for the QPACK encoder stream, which is
read after the request's fin and brings a path that is too long. -/
def blockedRequest : List Action :=
  [.event (.accepted 20 0 true), .event (.accepted 21 2 true), .event (.noMore [0, 2, 3, 7, 11]),
    .event .go, .event (.state .ok .ok), .event (.data 50), .event (.callback (.beginHeaders 0)),
    .event (.returned none), .event .zeroReturn, .event (.returned none), .event .go,
    .event .go, .event (.state .ok .ok), .event (.data 30), .event (.callback (.recvHeader 0 longPath)),
    .event (.callback (.endHeaders 0 true)), .event (.returned none), .event .nothing, .event .go,
    .event .go, .event .go, .event .go, .event .go, .event .go]

/-- The next pass lists stream 0 and gets as far as dispatching it. -/
def listRequest : List Action :=
  [.event (.flag false), .event (.flag false), .event (.noMore [0, 2, 3, 7, 11]),
    .event .go, .event (.state .finished .ok), .event .go,
    .event .go, .event (.state .ok .ok), .event .nothing, .event .go,
    .event .go, .event .go, .event .go, .event .go, .event .go,
    .event .writevEmpty, .event .go, .event .go]

/-- A malformed request is about to be passed to `h3_process_request`. -/
theorem malformed_dispatched :
    ¬ ∀ σ, Reach (State.step sampleConf) anyStep .start σ →
      ∀ sid rest, σ.pc = .dispatch (sid :: rest) → σ.session.has sid (·.malformed) = false := by
  intro hall
  have hrun : (runActions (State.step sampleConf) .start
      (openSession ++ blockedRequest ++ endPass ++ listRequest)).map
      (fun σ => (σ.pc, σ.session.has 0 (·.malformed))) = some (.dispatch [0], true) := by
    decide +kernel
  obtain ⟨σ, hσ, he⟩ := Option.map_eq_some_iff.mp hrun
  simp only [Prod.mk.injEq] at he
  obtain ⟨hpc, hm⟩ := he
  cases hm.symm.trans (hall σ (Reach.of_runActions _ hσ) 0 [] hpc)

end

end ModHttp3.System
