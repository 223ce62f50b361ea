import ModHttp3.Session.Drain
import ModHttp3.Session.Flush

/-! Opening and destroying a session, accepting streams, and what request workers change in
it under its lock. -/
namespace ModHttp3.Session

namespace H3Session

def logObtained (s : H3Session) (handles : List Handle) : H3Session :=
  { s with trace := (handles.map Event.obtained).reverse ++ s.trace }

def freeOpened (s : H3Session) (handles : List Handle) : H3Session :=
  { s with ngh3 := false, trace := (handles.map Event.freed).reverse ++ s.trace }

/-- `track_stream` with its result ignored. -/
def trackOpened (s : H3Session) (x : (ℤ × Handle) × Bool) : H3Session :=
  (s.trackStream x.1.1 x.1.2 x.2).getD s

/-- `h3_session_create_control_streams`; `opened` are the answers of OpenSSL for the control
and the two QPACK streams, `created` those of APR for tracking them. -/
def createControlStreams (s : H3Session) (opened : List (Option (ℤ × Handle))) (bound : Bool)
    (created : List Bool) : H3Session × Bool :=
  let streams := opened.filterMap id
  let s := s.logObtained (streams.map Prod.snd)
  if opened.all Option.isSome && bound then
    ({ (streams.zip created).foldl trackOpened s with controlStreamsCreated := true }, true)
  else (s.freeOpened (streams.map Prod.snd), false)

/-- OpenSSL's answers for the control streams: distinct new handles and distinct ids of
server-initiated unidirectional streams. -/
def controlAnswer (s : H3Session) (opened : List (Option (ℤ × Handle))) (created : List Bool) :
    Bool :=
  let streams := opened.filterMap id
  opened.length == 3 && created.length == 3 &&
    decide (streams.map Prod.snd).Nodup && decide (streams.map Prod.fst).Nodup &&
    streams.all fun x => h3SidIsServer x.1 && !h3SidIsBidi x.1 && (s.obj x.1).isNone &&
      !s.trace.contains (.obtained x.2)

/-- The body of the accept loop. -/
def acceptStream (s : H3Session) (h : Handle) (sid : ℤ) (created : Bool) : H3Session :=
  let s := (s.log (.obtained h)).log (.op .streamId h)
  if sid < 0 then s.log (.freed h)
  else (s.trackStream sid h created).getD (s.log (.freed h))

/-- OpenSSL's answers for an accepted stream: a new handle and a new id of the client's. -/
def acceptAnswer (s : H3Session) (h : Handle) (sid : ℤ) : Bool :=
  !s.trace.contains (.obtained h) && (decide (sid < 0) || (s.obj sid).isNone && !h3SidIsServer sid)

theorem acceptAnswer_fresh {s : H3Session} {h : Handle} {sid : ℤ} (hans : s.acceptAnswer h sid) :
    s.trace.contains (.obtained h) = false := by
  simp only [acceptAnswer, Bool.and_eq_true, Bool.not_eq_true'] at hans
  exact hans.1

/-- What becomes of an accepted stream: it is freed at once, or added to the table. -/
theorem acceptStream_cases {s : H3Session} {h : Handle} {sid : ℤ} (created : Bool)
    (hans : s.acceptAnswer h sid) {P : H3Session → Prop}
    (hfreed : P (((s.log (.obtained h)).log (.op .streamId h)).log (.freed h)))
    (hsame : P ((s.log (.obtained h)).log (.op .streamId h)))
    (hadd : s.obj sid = none → h3SidIsServer sid = false →
      P (((s.log (.obtained h)).log (.op .streamId h)).addStream sid h)) :
    P (s.acceptStream h sid created) := by
  simp only [acceptAnswer, Bool.and_eq_true, Bool.or_eq_true, decide_eq_true_eq,
    Option.isNone_iff_eq_none, Bool.not_eq_true'] at hans
  unfold acceptStream
  dsimp only
  split
  · exact hfreed
  · rename_i hsid
    obtain ⟨hnew, hclient⟩ := hans.2.resolve_left hsid
    cases ht : ((s.log (.obtained h)).log (.op .streamId h)).trackStream sid h created with
    | none => exact hfreed
    | some s' =>
      rcases trackStream_new (s := (s.log (.obtained h)).log (.op .streamId h)) hnew ht with rfl | rfl
      · exact hsame
      · exact hadd hnew hclient

/-- `h3_session_destroy`. -/
def destroy (s : H3Session) : H3Session :=
  let s := s.streams.foldl (fun s sid => s.modify sid H3Stream.responseCancel) { s with ngh3 := false }
  s.freePending

/-- A stream that `abandon_stalled_responses` may find stalled. -/
def mayStall (s : H3Session) (sid : ℤ) : Bool :=
  s.streams.contains sid && s.has sid fun o => !o.responseCancelled && !o.responseComplete

def abandonStalledResponses (s : H3Session) (stalled : List ℤ) : H3Session :=
  stalled.foldl (fun s sid => s.modify sid H3Stream.responseCancel) s

def setStreamDispatched (s : H3Session) (sid : ℤ) (dispatched : Bool) : H3Session :=
  s.modify sid fun o => { o with dispatched := dispatched }

/-- Tracking the opened streams one by one: each is added to the table, unless that fails. -/
theorem trackAll_induct {P : H3Session → Prop} (l : List ((ℤ × Handle) × Bool)) {s : H3Session}
    (hids : (l.map fun x => x.1.1).Nodup) (hnew : ∀ x ∈ l, s.obj x.1.1 = none) (hP : P s)
    (hstep : ∀ s' x, x ∈ l → s'.obj x.1.1 = none → P s' → P (s'.addStream x.1.1 x.1.2)) :
    P (l.foldl trackOpened s) := by
  induction l generalizing s with
  | nil => exact hP
  | cons x rest ih =>
    rw [List.map_cons, List.nodup_cons] at hids
    have hx := hnew x List.mem_cons_self
    have hor : s.trackOpened x = s ∨ s.trackOpened x = s.addStream x.1.1 x.1.2 := by
      unfold trackOpened
      cases ht : s.trackStream x.1.1 x.1.2 x.2 with
      | none => exact .inl rfl
      | some s' => exact trackStream_new hx ht
    apply ih hids.2
    · intro y hy
      have hne : y.1.1 ≠ x.1.1 := fun he => hids.1 (List.mem_map.mpr ⟨y, hy, he⟩)
      rcases hor with he | he
      · rw [he]
        exact hnew y (List.mem_cons_of_mem _ hy)
      · rw [he]
        exact (addStream_obj_ne s _ hne).trans (hnew y (List.mem_cons_of_mem _ hy))
    · rcases hor with he | he
      · rw [he]
        exact hP
      · rw [he]
        exact hstep s x List.mem_cons_self hx hP
    · exact fun s' y hy => hstep s' y (List.mem_cons_of_mem _ hy)

theorem controlAnswer_length {s : H3Session} {opened : List (Option (ℤ × Handle))}
    {created : List Bool} (hans : s.controlAnswer opened created) : opened.length = 3 := by
  simp only [controlAnswer, Bool.and_eq_true, beq_iff_eq] at hans
  exact hans.1.1.1.1

theorem controlAnswer_spec {s : H3Session} {opened : List (Option (ℤ × Handle))} {created : List Bool}
    (hans : s.controlAnswer opened created) :
    (opened.filterMap id).length ≤ created.length ∧ ((opened.filterMap id).map Prod.snd).Nodup ∧
      ((opened.filterMap id).map Prod.fst).Nodup ∧
      ∀ x ∈ opened.filterMap id, h3SidIsServer x.1 ∧ s.obj x.1 = none ∧
        s.trace.contains (.obtained x.2) = false := by
  simp only [controlAnswer, Bool.and_eq_true, decide_eq_true_eq, List.all_eq_true,
    Option.isNone_iff_eq_none, beq_iff_eq, Bool.not_eq_true'] at hans
  obtain ⟨⟨⟨⟨h3, h3'⟩, hhandles⟩, hids⟩, hall⟩ := hans
  refine ⟨?_, hhandles, hids, fun x hx => ?_⟩
  · have := List.length_filterMap_le id opened
    omega
  · obtain ⟨⟨⟨hserver, -⟩, hobj⟩, hnew⟩ := hall x hx
    exact ⟨hserver, hobj, hnew⟩

theorem createControlStreams_opened {s : H3Session} {opened : List (Option (ℤ × Handle))}
    {bound : Bool} {created : List Bool} (hall : (s.createControlStreams opened bound created).2 = true) :
    opened.all Option.isSome ∧ (s.createControlStreams opened bound created).1 =
      { ((opened.filterMap id).zip created).foldl trackOpened
          (s.logObtained ((opened.filterMap id).map Prod.snd)) with controlStreamsCreated := true } := by
  unfold createControlStreams at hall ⊢
  dsimp only at hall ⊢
  split at hall
  · rename_i hok
    rw [if_pos hok]
    exact ⟨(Bool.and_eq_true_iff.mp hok).1, rfl⟩
  · cases hall

theorem createControlStreams_failed {s : H3Session} {opened : List (Option (ℤ × Handle))}
    {bound : Bool} {created : List Bool} (hall : (s.createControlStreams opened bound created).2 = false) :
    (s.createControlStreams opened bound created).1 =
      (s.logObtained ((opened.filterMap id).map Prod.snd)).freeOpened
        ((opened.filterMap id).map Prod.snd) := by
  unfold createControlStreams at hall ⊢
  dsimp only at hall ⊢
  split at hall
  · cases hall
  · rename_i hfail
    rw [if_neg hfail]

/-- The control streams are all tracked one by one, or all freed. -/
theorem createControlStreams_cases {s : H3Session} {opened : List (Option (ℤ × Handle))}
    {bound : Bool} {created : List Bool} (hans : s.controlAnswer opened created)
    {P : H3Session → Prop} (h0 : P (s.logObtained ((opened.filterMap id).map Prod.snd)))
    (hadd : ∀ s' x, x ∈ opened.filterMap id → s'.obj x.1 = none → P s' → P (s'.addStream x.1 x.2))
    (hcreated : ∀ s', P s' → P { s' with controlStreamsCreated := true })
    (hfree : ∀ s', P s' → P (s'.freeOpened ((opened.filterMap id).map Prod.snd))) :
    P (s.createControlStreams opened bound created).1 := by
  obtain ⟨hlen, -, hids, hall⟩ := controlAnswer_spec hans
  unfold createControlStreams
  dsimp only
  split
  · apply hcreated
    have hfst := congrArg (List.map Prod.fst) (List.map_fst_zip hlen)
    rw [List.map_map] at hfst
    apply trackAll_induct _ (hfst ▸ hids) _ h0
    · exact fun s' x hx => hadd s' x.1 (List.of_mem_zip hx).1
    · exact fun x hx => (hall x.1 (List.of_mem_zip hx).1).2.1
  · exact hfree _ h0

def flags (s : H3Session) : SessionFlags := ⟨s.aborted, s.ngh3Dead, s.ngh3⟩

end H3Session

/-- The response calls of a worker and their outcomes, as far as the stream's flags go. -/
inductive RespondCall
  | submit (accepted : Bool)
  | append (stored : Bool)
  | complete
  deriving DecidableEq, Repr

def H3Stream.respond (gone : Bool) (call : RespondCall) (o : H3Stream) : H3Stream :=
  match call with
  | .submit accepted =>
    if o.responseSubmitted || o.responseCancelled || gone then o
    else if accepted then { o with responseSubmitted := true }
    else o.responseCancel
  | .append stored => if o.responseCancelled || gone || stored then o else o.responseCancel
  | .complete => { o with responseComplete := true }

/-- Whatever the call and its outcome, only the response flags change. -/
theorem respond_eq (gone : Bool) (call : RespondCall) (o : H3Stream) :
    ∃ submitted complete cancelled : Bool, o.respond gone call = { o with
      responseSubmitted := submitted, responseComplete := complete, responseCancelled := cancelled } := by
  unfold H3Stream.respond
  cases call with
  | complete => exact ⟨_, _, _, rfl⟩
  | _ =>
    dsimp only
    split_ifs <;> exact ⟨_, _, _, rfl⟩

end ModHttp3.Session
