import ModHttp3.Request.Build
import ModHttp3.System.Alter
import ModHttp3.System.Malformed

/-! The URI of a request, from the header section that nghttp3 passes on to the `request_rec` that
is built for it. -/
namespace ModHttp3.System
open Session Lib Request

def hasToken (fields : List HeaderField) (token : Token) : Bool := fields.any (·.token == token)

def isConnect (fields : List HeaderField) : Bool :=
  fields.any fun f => f.token == .method && f.value == ascii "CONNECT"

/-- The session, the fields of every stream since its header section began, and whether a header section that has ended
was that of a CONNECT request. -/
structure Sectioned where
  sys : State
  sections : ℤ → List HeaderField
  connects : ℤ → Bool

def Sectioned.start : Sectioned := ⟨.start, fun _ => [], fun _ => false⟩

def Sectioned.sectionsAfter (w : Sectioned) : Action → ℤ → List HeaderField
  | .event (.callback (.beginHeaders sid)) => Function.update w.sections sid []
  | .event (.callback (.recvHeader sid field)) => Function.update w.sections sid (w.sections sid ++ [field])
  | _ => w.sections

def Sectioned.connectsAfter (w : Sectioned) : Action → ℤ → Bool
  | .event (.callback (.endHeaders sid _)) =>
    Function.update w.connects sid (w.connects sid || isConnect (w.sections sid))
  | _ => w.connects

def Sectioned.step (conf : SessionConf) (w : Sectioned) (act : Action) : Option Sectioned :=
  (w.sys.step conf act).map fun σ => ⟨σ, w.sectionsAfter act, w.connectsAfter act⟩

/-- The pseudo-headers of a request that nghttp3 accepts. -/
def acceptable (fields : List HeaderField) : Bool :=
  hasToken fields .method &&
    if isConnect fields then hasToken fields .authority && !hasToken fields .path
    else hasToken fields .scheme && hasToken fields .path

/-- nghttp3 ends acceptable header sections only. -/
def endsAcceptable (w : Sectioned) : Action → Bool
  | .event (.callback (.endHeaders sid _)) => acceptable (w.sections sid)
  | _ => true

/-- No CONNECT request is put on the list of completed requests. -/
def listsNoConnect (conf : SessionConf) (w : Sectioned) (act : Action) : Bool :=
  (w.sys.step conf act).all fun σ => σ.pc.completed.all fun sid => !w.connects sid

def plainRequests (conf : SessionConf) (w : Sectioned) (act : Action) : Bool :=
  endsAcceptable w act && listsNoConnect conf w act && foundInTime conf w.sys act

section
variable {conf : SessionConf} {w w' : Sectioned} {act : Action}

/-- The path of a request has been stored, or the request is malformed. -/
def PathSettled (o : H3Stream) : Prop := o.path.isSome ∨ o.malformed

/-- What is known of the path of a stream with this header section. -/
structure PathKnown (fields : List HeaderField) (connect : Bool) (o : H3Stream) : Prop where
  received : o.userData → hasToken fields .path → PathSettled o
  complete : o.headersComplete → PathSettled o ∨ connect

private theorem pathKnown_new (fields : List HeaderField) (connect : Bool) (sid : ℤ) (h : Handle) :
    PathKnown fields connect (.new sid h) :=
  ⟨nofun, nofun⟩

theorem PathSettled.sets {o : H3Stream} (h : PathSettled o) {f : H3Stream → H3Stream} (hf : Sets f) :
    PathSettled (f o) := by
  cases hf with
  | touch hf =>
    cases hf with
    | respond gone call =>
      obtain ⟨_, _, _, he⟩ := respond_eq gone call o
      rw [he]
      exact h
    | _ => exact h
  | _ => exact h

/-- Only callbacks of nghttp3 set what the path depends on. -/
theorem PathKnown.sets {fields : List HeaderField} {connect : Bool} {o : H3Stream} (hk : PathKnown fields connect o)
    {f : H3Stream → H3Stream} (hf : Sets f) : PathKnown fields connect (f o) := by
  cases hf with
  | touch hf =>
    cases hf with
    | respond gone call =>
      obtain ⟨_, _, _, he⟩ := respond_eq gone call o
      rw [he]
      exact ⟨hk.received, hk.complete⟩
    | _ => exact ⟨hk.received, hk.complete⟩
  | _ => exact ⟨hk.received, hk.complete⟩

/-- A `:path` is stored or marks its request as malformed; no field takes a path away. -/
theorem onRecvHeader_path (conf : SessionConf) (field : HeaderField) (o : H3Stream) :
    (PathSettled o → PathSettled (onRecvHeader conf field o)) ∧
      (field.token = .path → PathSettled (onRecvHeader conf field o)) := by
  unfold onRecvHeader
  by_cases ht : field.token ≠ .regular
  · rw [if_pos ht]
    split_ifs
    · exact ⟨fun _ => .inr rfl, fun _ => .inr rfl⟩
    · unfold setPseudo
      split_ifs
      · exact ⟨fun _ => .inr rfl, fun _ => .inr rfl⟩
      · cases field.token with
        | path => exact ⟨fun _ => .inl rfl, fun _ => .inl rfl⟩
        | regular => exact ⟨fun _ => .inr rfl, nofun⟩
        | _ => exact ⟨id, nofun⟩
  · rw [if_neg ht, not_not.mp ht]
    refine ⟨?_, nofun⟩
    cases o.headers with
    | none => exact id
    | some headers =>
      dsimp only
      unfold addField
      dsimp only
      split_ifs <;> exact id

theorem PathKnown.recvHeader {fields : List HeaderField} {connect : Bool} {o : H3Stream}
    (hk : PathKnown fields connect o) (field : HeaderField) :
    PathKnown (fields ++ [field]) connect (onRecvHeader conf field o) := by
  obtain ⟨hkeep, hpath⟩ := onRecvHeader_path conf field o
  have hsame := onRecvHeader_sameRequest conf field o
  constructor
  · rw [(onRecvHeader_kept conf field o).2.2]
    intro hu ht
    unfold hasToken at ht
    rw [List.any_append, Bool.or_eq_true] at ht
    rcases ht with ht | ht
    · exact hkeep (hk.received hu ht)
    · rw [List.any_cons, List.any_nil, Bool.or_false] at ht
      exact hpath (eq_of_beq ht)
  · rw [hsame.headersComplete]
    exact fun hc => (hk.complete hc).imp_left hkeep

/-- No callback takes a path away. -/
private theorem onStream_pathSettled (conf : SessionConf) (cb : Callback) {o : H3Stream} (h : PathSettled o) :
    PathSettled (cb.onStream conf o) := by
  cases cb with
  | recvHeader sid field => exact (onRecvHeader_path conf field o).1 h
  | endHeaders sid fin =>
    change PathSettled (onEndHeaders fin o)
    unfold onEndHeaders
    split_ifs <;> exact h
  | recvData sid data =>
    change PathSettled (onRecvData conf data o)
    unfold onRecvData
    dsimp only
    split_ifs <;> exact h
  | _ => exact h

/-- A callback that finds its stream. -/
theorem PathKnown.callback {cb : Callback} {o : H3Stream}
    (hk : PathKnown (w.sections cb.sid) (w.connects cb.sid) o) (hend : endsAcceptable w (.event (.callback cb)))
    (hu : (∃ sid, cb = .beginHeaders sid) ∨ o.userData) :
    PathKnown (w.sectionsAfter (.event (.callback cb)) cb.sid) (w.connectsAfter (.event (.callback cb)) cb.sid)
      (cb.onStream conf o) := by
  cases cb with
  | beginHeaders sid =>
    change PathKnown (Function.update w.sections sid [] sid) _ (onBeginHeaders o)
    rw [Function.update_self]
    exact ⟨fun _ => nofun, hk.complete⟩
  | recvHeader sid field =>
    change PathKnown (Function.update w.sections sid (w.sections sid ++ [field]) sid) _ _
    rw [Function.update_self]
    exact hk.recvHeader field
  | endHeaders sid fin =>
    change PathKnown (w.sections sid) (Function.update w.connects sid _ sid) (onEndHeaders fin o)
    rw [Function.update_self]
    have hud : o.userData := hu.resolve_left nofun
    -- a section that ends has a path, or is that of a CONNECT request
    have hsettled : PathSettled o ∨ (w.connects sid || isConnect (w.sections sid)) = true := by
      cases hconnect : isConnect (w.sections sid) with
      | true => exact .inr (Bool.or_true _)
      | false =>
        unfold endsAcceptable acceptable at hend
        dsimp only at hend
        rw [hconnect, if_neg Bool.false_ne_true] at hend
        simp only [Bool.and_eq_true] at hend
        exact .inl (hk.received hud hend.2.2)
    unfold onEndHeaders
    split_ifs
    · exact ⟨hk.received, fun _ => hsettled⟩
    · exact ⟨hk.received, fun _ => hsettled⟩
  | recvData sid data =>
    change PathKnown (w.sections sid) (w.connects sid) (onRecvData conf data o)
    unfold onRecvData
    dsimp only
    split_ifs <;> exact ⟨hk.received, hk.complete⟩
  | _ => exact ⟨hk.received, hk.complete⟩

/-- A callback that does not find its stream: its header section is not recorded in it. -/
theorem PathKnown.unfound {cb : Callback} {o : H3Stream} (hk : PathKnown (w.sections cb.sid) (w.connects cb.sid) o)
    (hu : (∃ sid, cb = .beginHeaders sid) ∨ o.userData = false) :
    PathKnown (w.sectionsAfter (.event (.callback cb)) cb.sid) (w.connectsAfter (.event (.callback cb)) cb.sid) o := by
  refine ⟨fun hud => ?_, fun hc => (hk.complete hc).imp_right fun hconnect => ?_⟩
  · rcases hu with ⟨sid, rfl⟩ | hu
    · change hasToken (Function.update w.sections sid [] sid) .path → _
      rw [Function.update_self]
      nofun
    · rw [hu] at hud
      cases hud
  · cases cb with
    | endHeaders sid fin =>
      change Function.update w.connects sid _ sid = true
      rw [Function.update_self]
      exact Bool.or_eq_true_iff.mpr (.inl hconnect)
    | _ => exact hconnect

private theorem recordsAfter_ne {cb : Callback} {x : ℤ} (hx : x ≠ cb.sid) :
    w.sectionsAfter (.event (.callback cb)) x = w.sections x ∧
      w.connectsAfter (.event (.callback cb)) x = w.connects x := by
  cases cb with
  | beginHeaders sid => exact ⟨Function.update_of_ne hx .., rfl⟩
  | recvHeader sid field => exact ⟨Function.update_of_ne hx .., rfl⟩
  | endHeaders sid fin => exact ⟨rfl, Function.update_of_ne hx ..⟩
  | _ => exact ⟨rfl, rfl⟩

/-- What is known of the paths of all streams. -/
def Sectioned.Known (w : Sectioned) : Prop :=
  w.sys.session.Each fun sid o => PathKnown (w.sections sid) (w.connects sid) o

private theorem known_callback {cb : Callback} (hI : w.Known) (hend : endsAcceptable w (.event (.callback cb))) :
    (w.sys.session.callback conf cb).Each fun sid o =>
      PathKnown (w.sectionsAfter (.event (.callback cb)) sid) (w.connectsAfter (.event (.callback cb)) sid) o := by
  have hother : ∀ x o, x ≠ cb.sid → PathKnown (w.sections x) (w.connects x) o →
      PathKnown (w.sectionsAfter (.event (.callback cb)) x) (w.connectsAfter (.event (.callback cb)) x) o := by
    intro x o hx hk
    obtain ⟨hsections, hconnects⟩ := recordsAfter_ne (w := w) hx
    rw [hsections, hconnects]
    exact hk
  unfold H3Session.callback
  split_ifs with hf
  · refine H3Session.Each.of_obj ?_ (deliver_obj conf _ cb)
    apply modify_forall hI hother
    intro o ho hk
    exact hk.callback hend ((finds_userData ho).imp id (·.symm.trans hf))
  · intro x o ho
    by_cases hx : x = cb.sid
    · subst hx
      rw [Bool.not_eq_true] at hf
      exact (hI _ o ho).unfound ((finds_userData ho).imp id (·.symm.trans hf))
    · exact hother x o hx (hI x o ho)

private theorem known_step (hI : w.Known) (hend : endsAcceptable w act) (h : w.step conf act = some w') : w'.Known := by
  obtain ⟨σ, hσ, rfl⟩ := Option.map_eq_some_iff.mp h
  unfold Sectioned.Known
  by_cases hcb : ∃ cb, act = .event (.callback cb)
  · obtain ⟨cb, rfl⟩ := hcb
    rw [step_callback hσ]
    exact known_callback hI hend
  · have hsections : w.sectionsAfter act = w.sections := by
      unfold Sectioned.sectionsAfter
      split
      · exact absurd ⟨_, rfl⟩ hcb
      · exact absurd ⟨_, rfl⟩ hcb
      · rfl
    have hconnects : w.connectsAfter act = w.connects := by
      unfold Sectioned.connectsAfter
      split
      · exact absurd ⟨_, rfl⟩ hcb
      · rfl
    have halters : Alters conf (fun _ => False) (fun _ _ => True) w.sys.session σ.session :=
      step_alters (fun cb he => hcb ⟨cb, he⟩) (fun _ _ => trivial) hσ
    dsimp only
    rw [hsections, hconnects]
    refine halters.each (fun sid g => pathKnown_new _ _ sid g) ?_ nofun hI
    exact fun f hf sid o hk => hk.sets hf

end

/-! From the header section to the tasks. -/
section
variable {conf : SessionConf} {σ σ' : State} {act : Action}

/-- A request that may be answered. -/
structure Answerable (o : H3Stream) : Prop where
  headersComplete : o.headersComplete
  bodyComplete : o.bodyComplete
  malformed : o.malformed = false

theorem Answerable.sets {f : H3Stream → H3Stream} (hf : Sets f) {o : H3Stream} (h : Answerable o) :
    Answerable (f o) := by
  cases hf with
  | touch hf =>
    cases hf with
    | respond gone call =>
      have hs := respond_sameRequest gone call o
      exact ⟨hs.headersComplete.trans h.headersComplete, hs.bodyComplete.trans h.bodyComplete,
        hs.malformed.trans h.malformed⟩
    | bodyComplete => exact ⟨h.headersComplete, rfl, h.malformed⟩
    | rejected => exact ⟨h.headersComplete, rfl, h.malformed⟩
    | _ => exact ⟨h.headersComplete, h.bodyComplete, h.malformed⟩
  | _ => exact ⟨h.headersComplete, h.bodyComplete, h.malformed⟩

/-- No step takes a path away. -/
theorem settled_persists (h : σ.step conf act = some σ') {sid : ℤ}
    (hs : ∃ o, σ.session.obj sid = some o ∧ PathSettled o) : ∃ o, σ'.session.obj sid = some o ∧ PathSettled o := by
  have halters : Alters conf (fun _ => True) (fun _ _ => True) σ.session σ'.session :=
    step_alters (fun _ _ => trivial) (fun _ _ => trivial) h
  exact halters.persist (G := PathSettled) (fun f hf o hsettled => hsettled.sets hf)
    (fun cb _ o hsettled => onStream_pathSettled conf cb hsettled) hs

private theorem answerable_persists (hin : foundInTime conf σ act) (h : σ.step conf act = some σ') {sid : ℤ}
    (hs : ∃ o, σ.session.obj sid = some o ∧ Answerable o) :
    ∃ o, σ'.session.obj sid = some o ∧ Answerable o := by
  by_cases hcb : ∃ cb, act = .event (.callback cb)
  · obtain ⟨cb, rfl⟩ := hcb
    obtain ⟨o, ho, hans⟩ := hs
    rw [step_callback h]
    dsimp only
    unfold H3Session.callback
    split_ifs
    · rw [deliver_obj]
      by_cases hsid : sid = cb.sid
      · subst hsid
        obtain ⟨hb, hm⟩ := onStream_listed hin ho hans.bodyComplete hans.malformed
        refine ⟨_, ?_, (onStream_later conf cb o).headersComplete hans.headersComplete, hb, hm⟩
        rw [H3Session.modify_obj_self, ho, Option.map_some]
      · exact ⟨o, (H3Session.modify_obj_ne _ _ hsid).trans ho, hans⟩
    · exact ⟨o, ho, hans⟩
  · have halters : Alters conf (fun _ => False) (fun _ _ => True) σ.session σ'.session :=
      step_alters (fun cb he => hcb ⟨cb, he⟩) (fun _ _ => trivial) h
    exact halters.persist (G := Answerable) (fun f hf o => Answerable.sets hf) nofun hs

end

section
variable {conf : SessionConf} {w w' : Sectioned} {act : Action}

/-- The path of a request is settled when it is put on the list of completed requests. -/
structure Addressed (w : Sectioned) : Prop where
  judged : ∀ sid o, w.sys.session.obj sid = some o → Judged w.sys sid o
  paths : w.Known
  completed : ∀ sid ∈ w.sys.pc.completed, ∃ o, w.sys.session.obj sid = some o ∧ o.headersComplete
  listed : ∀ sid ∈ w.sys.pc.completed, ∃ o, w.sys.session.obj sid = some o ∧ PathSettled o
  tasks : ∀ t ∈ w.sys.tasks, ∃ o, w.sys.session.obj (Task.sid t) = some o ∧ Answerable o
  pushed : ∀ t ∈ w.sys.tasks, ∃ o, w.sys.session.obj (Task.sid t) = some o ∧ PathSettled o

private theorem addressed_start : Addressed .start := by
  have hnone : ∀ sid, Sectioned.start.sys.session.obj sid = none := fun _ => rfl
  refine ⟨fun sid o ho => ?_, fun sid o ho => ?_, fun sid hsid => absurd hsid List.not_mem_nil,
    fun sid hsid => absurd hsid List.not_mem_nil, fun t ht => absurd ht List.not_mem_nil,
    fun t ht => absurd ht List.not_mem_nil⟩
  · cases (hnone sid).symm.trans ho
  · cases (hnone sid).symm.trans ho

/-- A stream that is put on the list has its path, since it is not that of a CONNECT request. -/
theorem Addressed.lists (hA : Addressed w) (hplain : listsNoConnect conf w act) {σ : State}
    (h : w.sys.step conf act = some σ) {sid : ℤ} (hsid : sid ∈ σ.pc.completed) :
    ∃ o, σ.session.obj sid = some o ∧ PathSettled o := by
  apply settled_persists h
  rcases completed_step h hsid with hold | hready
  · exact hA.listed sid hold
  · obtain ⟨o, ho, hr⟩ := H3Session.has_iff.mp hready
    simp only [H3Stream.ready, Bool.and_eq_true] at hr
    have hno : w.connects sid = false := by
      unfold listsNoConnect at hplain
      rw [h, Option.all_some, List.all_eq_true] at hplain
      simpa using hplain sid hsid
    refine ⟨o, ho, ((hA.paths sid o ho).complete hr.1.1.2).resolve_right ?_⟩
    rw [hno]
    exact Bool.false_ne_true

theorem Addressed.step (hA : Addressed w) (hok : plainRequests conf w act) (h : w.step conf act = some w') :
    Addressed w' := by
  simp only [plainRequests, Bool.and_eq_true] at hok
  obtain ⟨⟨hend, hplain⟩, hin⟩ := hok
  have hpaths := known_step hA.paths hend h
  obtain ⟨σ, hσ, rfl⟩ := Option.map_eq_some_iff.mp h
  refine ⟨judged_step hA.judged hin hσ, hpaths, completed_headers hA.completed hσ,
    fun sid hsid => hA.lists hplain hσ hsid, fun t ht => answerable_persists hin hσ ?_,
    fun t ht => settled_persists hσ ?_⟩
  · rcases tasks_step hσ ht with ⟨u, hu, he⟩ | hcompleted
    · rw [← he]
      exact hA.tasks u hu
    · obtain ⟨o, ho, hc⟩ := hA.completed _ hcompleted
      obtain ⟨hb, hm⟩ := (hA.judged _ o ho).2 hcompleted
      exact ⟨o, ho, hc, hb, hm⟩
  · rcases tasks_step hσ ht with ⟨u, hu, he⟩ | hcompleted
    · rw [← he]
      exact hA.pushed u hu
    · exact hA.listed _ hcompleted

private theorem addressed_reach (h : Reach (Sectioned.step conf) (fun w act => plainRequests conf w act) .start w) :
    Addressed w :=
  h.invariant addressed_start fun _ _ _ hA hok hs => hA.step hok hs

/-- If no CONNECT request is put on the list of completed requests and malformed requests are found in time, the stream
of every task has a path, so that the request built for it has a URI and a request line. -/
theorem requests_have_uri (httpd : Httpd)
    (h : Reach (Sectioned.step conf) (fun w act => plainRequests conf w act) .start w) :
    ∀ t ∈ w.sys.tasks, ∃ o, w.sys.session.obj (Task.sid t) = some o ∧
      (buildRequest httpd o).uri.isSome ∧ (buildRequest httpd o).theRequest.isSome := by
  intro t ht
  have hA := addressed_reach h
  obtain ⟨o, ho, hans⟩ := hA.tasks t ht
  obtain ⟨o', ho', hsettled⟩ := hA.pushed t ht
  obtain rfl : o' = o := Option.some.inj (ho'.symm.trans ho)
  have hpath : o'.path.isSome := by
    apply hsettled.resolve_right
    rw [hans.malformed]
    exact Bool.false_ne_true
  obtain ⟨path, hpath⟩ := Option.isSome_iff_exists.mp hpath
  refine ⟨o', ho, ?_⟩
  unfold buildRequest
  rw [hpath]
  exact ⟨rfl, rfl⟩

end

/-- The request on stream 0 arrives with these fields, and a worker starts to process it. -/
def requestWith (fields : List HeaderField) : List Action :=
  openSession ++
    ([.event (.accepted 20 0 true), .event (.noMore [0, 3, 7, 11]), .event .go, .event (.state .ok .ok),
      .event (.data 100), .event (.callback (.beginHeaders 0))] : List Action) ++
    (fields.map fun f => Action.event (.callback (.recvHeader 0 f))) ++
    ([.event (.callback (.endHeaders 0 true)), .event (.returned none), .event .zeroReturn,
      .event (.returned none), .event .go, .event .go, .event .go, .event .go, .event .go, .event .go,
      .event .writevEmpty, .event .go, .event .go, .event .go, .event (.flag true), .event (.flag true),
      .worker 0 .go, .worker 0 (.flag true), .worker 0 (.flag true)] : List Action)

def sampleHttpd : Httpd := ⟨fun path => (path, true), fun _ => true⟩

def getFields : List HeaderField :=
  [⟨.method, ascii ":method", ascii "GET"⟩, ⟨.scheme, ascii ":scheme", ascii "https"⟩,
    ⟨.path, ascii ":path", ascii "/"⟩]

theorem requests_have_uri_get :
    ∃ w, Reach (Sectioned.step sampleConf) (fun w act => plainRequests sampleConf w act) .start w ∧
      w.sys.tasks = [⟨0, .processing⟩] ∧ ∃ o, w.sys.session.obj 0 = some o ∧
        (buildRequest sampleHttpd o).uri.isSome ∧ (buildRequest sampleHttpd o).theRequest.isSome := by
  have hrun : (runChecked (Sectioned.step sampleConf) (fun w act => plainRequests sampleConf w act) .start
      (requestWith getFields)).map (fun w => w.sys.tasks) = some [⟨0, .processing⟩] := by
    decide +kernel
  obtain ⟨w, hw, he⟩ := Option.map_eq_some_iff.mp hrun
  have hr := Reach.of_runChecked _ hw
  refine ⟨w, hr, he, requests_have_uri sampleHttpd hr ⟨0, .processing⟩ ?_⟩
  rw [he]
  exact List.mem_cons_self

def connectFields : List HeaderField :=
  [⟨.method, ascii ":method", ascii "CONNECT"⟩, ⟨.authority, ascii ":authority", ascii "a.example:443"⟩]

/-- A CONNECT request is processed without a URI and without a request line. -/
theorem connect_without_uri :
    ∃ w, Reach (Sectioned.step sampleConf)
        (fun w act => endsAcceptable w act && foundInTime sampleConf w.sys act) .start w ∧
      w.sys.tasks = [⟨0, .processing⟩] ∧ ∃ o, w.sys.session.obj 0 = some o ∧
        handling o (buildRequest sampleHttpd o) = .process ∧
        (buildRequest sampleHttpd o).uri = none ∧ (buildRequest sampleHttpd o).theRequest = none := by
  have hrun : ((runChecked (Sectioned.step sampleConf)
      (fun w act => endsAcceptable w act && foundInTime sampleConf w.sys act) .start
      (requestWith connectFields)).bind fun w => (w.sys.session.obj 0).map fun o =>
        (w.sys.tasks, handling o (buildRequest sampleHttpd o), (buildRequest sampleHttpd o).uri,
          (buildRequest sampleHttpd o).theRequest)) = some ([⟨0, .processing⟩], .process, none, none) := by
    decide +kernel
  obtain ⟨w, hw, h⟩ := Option.bind_eq_some_iff.mp hrun
  obtain ⟨o, ho, he⟩ := Option.map_eq_some_iff.mp h
  simp only [Prod.mk.injEq] at he
  exact ⟨w, Reach.of_runChecked _ hw, he.1, o, ho, he.2⟩

end ModHttp3.System
