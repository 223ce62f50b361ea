import ModHttp3.Response.Fields
import ModHttp3.Response.SameBody

/-! Which header block is sent on the devel build: interim and final RESPONSE buckets, what the
context keeps of them, and the calls of `nghttp3_conn_submit_response`. -/
namespace ModHttp3.Response
open Lib ModHttp3.Request

/-- `ap_bucket_response`. -/
structure ResponseBucket where
  status : ℕ
  headers : Option (List TableEntry)
  deriving DecidableEq, Repr

namespace ResponseBucket

def interim (b : ResponseBucket) : Bool := decide (100 ≤ b.status) && decide (b.status < 200)

/-- The copy of the headers that the filter makes. -/
def copied (b : ResponseBucket) : Option (List TableEntry) :=
  b.headers.map (·.filter fun e => e.1.isSome && e.2.isSome)

/-- The header block of this response. -/
def nva (find : FindToken) (b : ResponseBucket) : List (Bytes × Bytes) :=
  buildResponseNva find nvaCap ⟨b.copied, b.status, none, 0⟩

end ResponseBucket

/-- The buckets at which a streaming filter calls `h3_response_start`. -/
def Bucket.starts : Bucket → Bool
  | .response | .data _ | .eos | .flush => true
  | .error | .metadata => false

/-- On the devel build, the step calls `submit_response_nva`; the value is nghttp3's answer. -/
def Request.starting (σ : Request) : RequestAction → Option Bool
  | .bucket accepted _ => match σ.worker with
    | .filter (b :: _) => if b.starts && σ.ctx.streaming then some accepted else none
    | _ => none
  | .respond accepted => some accepted
  | _ => none

/-- A request with its header fields. `submitted` records what `nghttp3_conn_submit_response` was
called with, `final` the final response once the filter has taken it. -/
structure Sending where
  request : Request
  respStatus : ℕ
  respHeaders : Option (List TableEntry)
  submitted : List (List (Bytes × Bytes))
  final : Option ResponseBucket

/-- `response` is what the step's bucket holds when it is a RESPONSE bucket; `headersOut` and
`status` are those of the `request_rec`, which the handler may change between two steps. -/
structure SendingAct where
  act : RequestAction
  response : ResponseBucket
  headersOut : Option (List TableEntry)
  status : ℕ

namespace Sending

def start (streaming : Bool) (bufferLimit : ℕ) (now : ℤ) (flags : SessionFlags) : Sending :=
  ⟨.start streaming bufferLimit now flags, 0, none, [], none⟩

/-- The RESPONSE bucket that the step takes. -/
def taken (w : Sending) (a : SendingAct) : Option ResponseBucket :=
  match a.act, w.request.worker with
  | .bucket _ _, .filter (.response :: _) => some a.response
  | _, _ => none

/-- The context takes over the status, and the headers if the bucket has any. -/
def keep (w : Sending) : Option ResponseBucket → Sending
  | none => w
  | some b =>
    { w with
      respStatus := b.status
      respHeaders := b.copied.or w.respHeaders
      final := if b.interim then w.final else some b }

/-- The array `stream_worker` sends in place of a response that is too large. -/
def oversizedNva : List (Bytes × Bytes) :=
  [(ascii ":status", decimal 500), (ascii "content-type", ascii "text/plain")]

/-- The array of the submission in this step. -/
def nva (find : FindToken) (w : Sending) (a : SendingAct) : List (Bytes × Bytes) :=
  match a.act, w.request.ctx.responseTooLarge with
  | .respond _, true => oversizedNva
  | _, _ => buildResponseNva find nvaCap ⟨w.respHeaders, w.respStatus, a.headersOut, a.status⟩

/-- What the step calls `nghttp3_conn_submit_response` with. -/
def call (find : FindToken) (w : Sending) (a : SendingAct) : Option (List (Bytes × Bytes)) :=
  (w.request.starting a.act).bind fun accepted =>
    (submitNva w.request.core.flags accepted (w.nva find a) w.request.core.queue).2

def step (find : FindToken) (sizeMax limit : ℕ) (w : Sending) (a : SendingAct) : Option Sending :=
  (w.request.step ⟨sizeMax, true, limit⟩ a.act).map fun request =>
    { w.keep (w.taken a) with
      request := request
      submitted := w.submitted ++ ((w.keep (w.taken a)).call find a).toList }

/-- Interim responses come before the one final response, which comes before the handler's end. -/
def sequenced (w : Sending) (a : SendingAct) : Bool :=
  match w.taken a, a.act with
  | some b, _ => w.final.isNone && (b.interim || decide (200 ≤ b.status))
  | none, .respond _ => w.final.isSome
  | none, _ => true

/-- No submission before the final response, which has a header table, and none in its place: a
streaming filter takes no interim response and, before the final one, no data, flush or EOS. -/
def unmixed (w : Sending) (a : SendingAct) : Bool :=
  match w.taken a, a.act with
  | some b, _ => if b.interim then !w.request.ctx.streaming else b.headers.isSome
  | none, .respond _ => !w.request.ctx.responseTooLarge
  | none, act => (w.request.starting act).isNone || w.final.isSome

end Sending

/-- What a step does to the submission of the response. -/
structure Request.Submits (σ σ' : Request) (a : RequestAction) : Prop where
  tried : ∀ accepted, σ.starting a = some accepted →
    σ'.core.queue = (submitResponseNva σ.core.flags accepted σ.core.queue).2
  same : σ.starting a = none → σ'.core.queue.responseSubmitted = σ.core.queue.responseSubmitted
  usable : σ'.usable → σ.usable
  early : σ'.worker.early = false → σ.worker.early = false ∨ ∃ accepted, a = .respond accepted

namespace Request

variable {sizeMax limit : ℕ} {σ σ' : Request}

private theorem submit_cancelled {st : SessionFlags} {accepted : Bool} {r : Queue} (h : r.responseCancelled = true) :
    (submitResponseNva st accepted r).2.responseCancelled = true := by
  unfold submitResponseNva
  split_ifs
  · exact h
  · exact h
  · exact h
  · rfl

theorem usable_of {q : Queue} {flags : SessionFlags}
    (hc : σ.core.queue.responseCancelled = true → q.responseCancelled = true)
    (hg : σ.core.flags.gone = true → flags.gone = true) (h : (!q.responseCancelled && !flags.gone) = true) :
    σ.usable := by
  unfold usable
  simp only [Bool.and_eq_true, Bool.not_eq_true', ← Bool.not_eq_true] at h ⊢
  exact ⟨fun hc' => h.1 (hc hc'), fun hg' => h.2 (hg hg')⟩

/-- A step without a submission: the flags of the response and of the session only rise. -/
theorem Submits.quiet {a : RequestAction} (ha : σ.starting a = none)
    (hs : σ'.core.queue.responseSubmitted = σ.core.queue.responseSubmitted)
    (hc : σ.core.queue.responseCancelled = true → σ'.core.queue.responseCancelled = true)
    (hg : σ.core.flags.gone = true → σ'.core.flags.gone = true)
    (he : σ'.worker.early = false → σ.worker.early = false) : σ.Submits σ' a where
  tried := fun accepted h => by rw [ha] at h; cases h
  same := fun _ => hs
  usable := usable_of hc hg
  early := fun h => .inl (he h)

/-- A step that tries to submit. -/
theorem Submits.loud {a : RequestAction} {accepted : Bool} (ha : σ.starting a = some accepted)
    (hcore : σ'.core.queue = (submitResponseNva σ.core.flags accepted σ.core.queue).2 ∧
      σ'.core.flags = σ.core.flags)
    (he : σ'.worker.early = false → σ.worker.early = false ∨ ∃ accepted, a = .respond accepted) :
    σ.Submits σ' a where
  tried := by
    intro accepted' h
    rw [ha] at h
    cases h
    exact hcore.1
  same := fun h => by rw [ha] at h; cases h
  usable := by
    refine usable_of (fun hc => ?_) (fun hg => ?_)
    · rw [hcore.1]
      exact submit_cancelled hc
    · rw [hcore.2]
      exact hg
  early := he

private theorem responseStart_early (accepted : Bool) {next failed : Request → Request}
    (hnext : ∀ τ, (next τ).worker.early = true) (hfailed : ∀ τ, (failed τ).worker.early = true) :
    (σ.responseStart accepted next failed).worker.early = true := by
  unfold responseStart
  split
  · exact hnext _
  · exact hfailed _

private theorem streamBucket_early (pieces : List Piece) (bb : List Bucket) (τ : Request) :
    (streamBucket pieces bb τ).worker.early = true := by
  unfold streamBucket
  split <;> rfl

/-- One bucket on the devel build. -/
private theorem filterBucket_submits (accepted headerOnly : Bool) {b : Bucket} {bb : List Bucket}
    (hw : σ.worker = .filter (b :: bb)) :
    σ.Submits (σ.filterBucket ⟨sizeMax, true, limit⟩ accepted headerOnly b bb) (.bucket accepted headerOnly) := by
  have hsame : ∀ τ : Request, τ.core.queue = τ.core.queue ∧ τ.core.flags = τ.core.flags := fun _ => ⟨rfl, rfl⟩
  have hstarting : σ.starting (.bucket accepted headerOnly) =
      if b.starts && σ.ctx.streaming then some accepted else none := by
    unfold starting
    rw [hw]
  have hquiet : ∀ (τ : Request), τ.core = σ.core → τ.worker.early = true → (b.starts && σ.ctx.streaming) = false →
      σ.Submits τ (.bucket accepted headerOnly) := by
    intro τ hcore hearly hno
    rw [hno] at hstarting
    have hrise : ∀ h : τ.worker.early = false, σ.worker.early = false := by
      intro h
      rw [hearly] at h
      cases h
    exact .quiet hstarting (by rw [hcore]) (by rw [hcore]; exact id) (by rw [hcore]; exact id) hrise
  have hloud : ∀ {next failed : Request → Request},
      (∀ τ, (next τ).core.queue = τ.core.queue ∧ (next τ).core.flags = τ.core.flags) →
      (∀ τ, (failed τ).core.queue = τ.core.queue ∧ (failed τ).core.flags = τ.core.flags) →
      (∀ τ, (next τ).worker.early = true) → (∀ τ, (failed τ).worker.early = true) →
      (b.starts && σ.ctx.streaming) = true →
      σ.Submits (σ.responseStart accepted next failed) (.bucket accepted headerOnly) := by
    intro next failed hn hf hen hef hyes
    rw [hyes, if_pos rfl] at hstarting
    refine .loud hstarting (responseStart_core accepted hn hf) fun h => ?_
    rw [responseStart_early accepted hen hef] at h
    cases h
  unfold filterBucket
  cases b with
  | error | metadata => exact hquiet _ rfl rfl rfl
  | response | eos | flush =>
    dsimp only
    split_ifs with hstream
    · exact hloud hsame hsame (fun _ => rfl) (fun _ => rfl) hstream
    · exact hquiet _ rfl rfl (Bool.not_eq_true _ ▸ hstream)
  | data pieces =>
    dsimp only
    split_ifs with hskip hstream
    · exact absurd hskip Bool.false_ne_true
    · exact hloud (streamBucket_core pieces bb) hsame (streamBucket_early pieces bb) (fun _ => rfl) hstream
    · exact hquiet _ rfl rfl (Bool.not_eq_true _ ▸ hstream)

theorem finish_submits (accepted : Bool) : σ.Submits (σ.finish accepted) (.respond accepted) := by
  refine .loud rfl (responseStart_core accepted (fun τ => ?_) fun _ => ⟨rfl, rfl⟩) fun _ => .inr ⟨accepted, rfl⟩
  split_ifs <;> exact ⟨rfl, rfl⟩

theorem append_ctl {st : SessionFlags} {data : Bytes} {offset : ℕ} {malloc : Option Addr} {r : Queue}
    {x : AppendStep × Queue} (hx : h3StreamResponseAppend sizeMax st data offset malloc r = some x) :
    x.2.responseSubmitted = r.responseSubmitted ∧
      (r.responseCancelled = true → x.2.responseCancelled = true) := by
  unfold h3StreamResponseAppend at hx
  dsimp only at hx
  split_ifs at hx
  · cases hx
    exact ⟨rfl, id⟩
  · cases hx
    exact ⟨rfl, id⟩
  · cases hx
    exact ⟨rfl, fun _ => rfl⟩
  · cases malloc with
    | none =>
      cases hx
      exact ⟨rfl, fun _ => rfl⟩
    | some a =>
      obtain ⟨q, hq, rfl⟩ := Option.map_eq_some_iff.mp hx
      obtain ⟨chunks, -, rfl⟩ := Option.map_eq_some_iff.mp hq
      exact ⟨rfl, id⟩

theorem appendReturns_early (ok : Bool) {w : Worker} (h : (appendReturns ok w).early = false) :
    w.early = false := by
  cases w with
  | appending bb => cases ok <;> cases h
  | _ => exact h

theorem afterAppend_core (data : Bytes) (offset : ℕ) (x : AppendStep × Queue) :
    (σ.afterAppend data offset x).core.queue = x.2 ∧ (σ.afterAppend data offset x).core.flags = σ.core.flags := by
  obtain ⟨outcome, q⟩ := x
  cases outcome <;> exact ⟨rfl, rfl⟩

private theorem afterAppend_early {data : Bytes} {offset : ℕ} {x : AppendStep × Queue}
    (h : (σ.afterAppend data offset x).worker.early = false) : σ.worker.early = false := by
  unfold afterAppend at h
  dsimp only at h
  split at h
  · exact h
  · exact appendReturns_early false h
  · dsimp only at h
    split_ifs at h
    · exact appendReturns_early true h
    · exact h

private theorem step_submits {a : RequestAction} (h : σ.step ⟨sizeMax, true, limit⟩ a = some σ') : σ.Submits σ' a := by
  cases step_move h with
  | @passed mainRequest bb hw =>
    refine .quiet rfl rfl id id fun hl => ?_
    cases mainRequest <;> cases hl
  | bucket hw => exact filterBucket_submits _ _ hw
  | @filtered accepted headerOnly hw =>
    have hnone : σ.starting (.bucket accepted headerOnly) = none := by
      unfold starting
      rw [hw]
    exact .quiet hnone rfl id id nofun
  | @append _ data offset x hp hm hx =>
    obtain ⟨hsub, hcan⟩ := append_ctl hx
    obtain ⟨hqueue, hflags⟩ := afterAppend_core (σ := σ) data offset x
    refine .quiet rfl ?_ ?_ ?_ afterAppend_early
    · rw [hqueue]
      exact hsub
    · rw [hqueue]
      exact hcan
    · rw [hflags]
      exact id
  | waitFails hp => exact .quiet rfl rfl id id (appendReturns_early false)
  | endOfStream hw => exact .quiet rfl rfl id id nofun
  | endHandler hw => exact .quiet rfl rfl id id nofun
  | respond hw => exact finish_submits _
  | complete hw => exact .quiet rfl rfl id id fun _ => by rw [hw]; rfl
  | @read veccnt x hserving hs hv hx =>
    obtain ⟨answer, q⟩ := x
    have hctl := readData_ctl hx
    have hsub := congrArg ResponseCtl.responseSubmitted hctl
    have hcan := congrArg ResponseCtl.responseCancelled hctl
    cases answer <;> exact .quiet rfl hsub (fun hc => hcan.trans hc) id id
  | @ack now datalen q hn hq =>
    have hreader := ackLoop_sameReader now datalen hq
    exact .quiet rfl hreader.submitted (fun hc => hreader.cancelled.trans hc) id id
  | abandoned | stopSending | resetStream | streamClose => exact .quiet rfl rfl (fun _ => rfl) id id
  | waited => exact .quiet rfl rfl id id id
  | abort => exact .quiet rfl rfl id (fun _ => rfl) id
  | dead =>
    refine .quiet rfl rfl id (fun _ => ?_) id
    simp [SessionFlags.gone]

end Request

/-- At most one call was made, with the final response; the context keeps that response, and after
the handler the call has been made unless the response could not be sent. -/
structure Sending.Settled (find : FindToken) (w : Sending) : Prop where
  once : w.submitted = [] ∨ ∃ b, w.final = some b ∧ w.submitted = [b.nva find]
  closed : w.submitted ≠ [] → w.request.usable → w.request.core.queue.responseSubmitted = true
  made : w.request.core.queue.responseSubmitted = true → w.submitted ≠ []
  kept : ∀ b, w.final = some b →
    b.headers.isSome ∧ 200 ≤ b.status ∧ w.respStatus = b.status ∧ w.respHeaders = b.copied
  late : w.request.worker.early = false → w.request.usable → w.submitted ≠ []

namespace Sending

variable {find : FindToken} {sizeMax limit : ℕ} {w w' : Sending} {a : SendingAct}

theorem settled_start (streaming : Bool) (bufferLimit : ℕ) (now : ℤ) (flags : SessionFlags) :
    (start streaming bufferLimit now flags).Settled find := by
  refine ⟨.inl rfl, fun h => absurd rfl h, ?_, ?_, ?_⟩
  · intro h
    cases h
  · intro b h
    cases h
  · intro h
    cases h

/-- Only the first final response is kept, with all of its head. -/
theorem Settled.keep (h : w.Settled find) (hseq : w.sequenced a) (hun : w.unmixed a) :
    ∀ b, (w.keep (w.taken a)).final = some b → b.headers.isSome ∧ 200 ≤ b.status ∧
      (w.keep (w.taken a)).respStatus = b.status ∧ (w.keep (w.taken a)).respHeaders = b.copied := by
  intro b hb
  unfold sequenced at hseq
  unfold unmixed at hun
  cases ht : w.taken a with
  | none =>
    rw [ht] at hb
    exact h.kept b hb
  | some r =>
    rw [ht] at hb hseq hun
    simp only [Bool.and_eq_true, Option.isNone_iff_eq_none] at hseq
    obtain ⟨hnone, hstatus⟩ := hseq
    simp only [Sending.keep, hnone] at hb ⊢
    split_ifs at hb with hinterim
    cases hb
    simp only [hinterim, Bool.false_or, decide_eq_true_eq, Bool.false_eq_true, if_false] at hstatus hun
    obtain ⟨headers, hheaders⟩ := Option.isSome_iff_exists.mp hun
    refine ⟨hun, hstatus, rfl, ?_⟩
    simp [ResponseBucket.copied, hheaders]

/-- The array is the final response's own, whatever the `request_rec` holds. -/
private theorem nva_eq {b : ResponseBucket} (hheaders : b.headers.isSome) (hstatus : 200 ≤ b.status)
    (hs : w.respStatus = b.status) (hh : w.respHeaders = b.copied)
    (hfits : ∀ accepted, a.act = .respond accepted → w.request.ctx.responseTooLarge = false) : w.nva find a = b.nva find := by
  have hne : b.status ≠ 0 := by omega
  obtain ⟨headers, hheaders⟩ := Option.isSome_iff_exists.mp hheaders
  unfold nva
  split
  · rename_i hact hlarge
    rw [hfits _ hact] at hlarge
    cases hlarge
  · simp [ResponseBucket.nva, ResponseBucket.copied, buildResponseNva, Head.headers, Head.statusField, hs, hh, hne,
      hheaders]

theorem keep_request (r : Option ResponseBucket) : (w.keep r).request = w.request := by
  cases r <;> rfl

/-- A step that tries to submit does so with the final response at hand. -/
theorem Settled.ready (h : w.Settled find) (hseq : w.sequenced a) (hun : w.unmixed a) {accepted : Bool}
    (hstart : w.request.starting a.act = some accepted) :
    ∃ b, (w.keep (w.taken a)).final = some b ∧ (w.keep (w.taken a)).nva find a = b.nva find := by
  have hfinal : ∃ b, (w.keep (w.taken a)).final = some b := by
    unfold sequenced at hseq
    unfold unmixed at hun
    cases ht : w.taken a with
    | some r =>
      have hstream : w.request.ctx.streaming = true := by
        unfold taken at ht
        split at ht
        · rename_i hact hw
          simp only [hact, Request.starting, hw] at hstart
          split_ifs at hstart with hs
          exact (Bool.and_eq_true_iff.mp hs).2
        · cases ht
      rw [ht, hstream] at hun
      have hnot : r.interim = false := by
        by_contra hi
        dsimp only at hun
        rw [if_pos (Bool.not_eq_false _ ▸ hi)] at hun
        cases hun
      exact ⟨r, by simp [Sending.keep, hnot]⟩
    | none =>
      rw [ht] at hseq hun
      apply Option.isSome_iff_exists.mp
      change w.final.isSome = true
      cases hact : a.act with
      | respond accepted =>
        rw [hact] at hseq
        exact hseq
      | _ =>
        rw [hact] at hun hstart
        dsimp only at hun
        rw [hstart] at hun
        exact hun
  obtain ⟨b, hb⟩ := hfinal
  obtain ⟨hheaders, hstatus, hs, hh⟩ := h.keep hseq hun b hb
  refine ⟨b, hb, nva_eq hheaders hstatus hs hh fun accepted hact => ?_⟩
  have hnone : w.taken a = none := by
    unfold taken
    rw [hact]
  rw [keep_request]
  unfold unmixed at hun
  rw [hnone, hact] at hun
  simpa using hun

/-- The final response stays once there was a call. -/
theorem Settled.final_stays (h : w.Settled find) (hseq : w.sequenced a) (hne : w.submitted ≠ []) :
    ∃ b, (w.keep (w.taken a)).final = some b ∧ w.submitted = [b.nva find] := by
  obtain ⟨b, hb, hsub⟩ := h.once.resolve_left hne
  refine ⟨b, ?_, hsub⟩
  cases ht : w.taken a with
  | none => exact hb
  | some r =>
    unfold sequenced at hseq
    rw [ht, hb] at hseq
    cases hseq

private theorem call_eq (accepted : Bool) (hstart : w.request.starting a.act = some accepted) (r : Option ResponseBucket) :
    (w.keep r).call find a = (submitNva w.request.core.flags accepted ((w.keep r).nva find a) w.request.core.queue).2 := by
  unfold call
  rw [keep_request, hstart]
  rfl

/-- A step that makes no call. -/
theorem Settled.silent {request : Request} (h : w.Settled find) (hseq : w.sequenced a) (hun : w.unmixed a)
    (husable : request.usable → w.request.usable)
    (hsub : request.core.queue.responseSubmitted = w.request.core.queue.responseSubmitted)
    (hlate : request.worker.early = false → request.usable → w.submitted ≠ []) :
    Settled find { w.keep (w.taken a) with request := request, submitted := w.submitted } := by
  refine ⟨?_, fun hne hu => ?_, fun hm => h.made (hsub.symm.trans hm), h.keep hseq hun, hlate⟩
  · by_cases hne : w.submitted = []
    · exact .inl hne
    · exact .inr (h.final_stays hseq hne)
  · exact hsub.trans (h.closed hne (husable hu))

/-- The call: none was made before, and the response counts as submitted unless nghttp3 refuses it. -/
theorem Settled.called {request : Request} {accepted : Bool} {b : ResponseBucket} (h : w.Settled find)
    (hseq : w.sequenced a) (hun : w.unmixed a) (hb : (w.keep (w.taken a)).final = some b)
    (hqueue : request.core.queue = (submitResponseNva w.request.core.flags accepted w.request.core.queue).2)
    (hdone : w.request.core.queue.responseSubmitted = false) (hu : w.request.usable) :
    Settled find { w.keep (w.taken a) with request := request, submitted := w.submitted ++ [b.nva find] } := by
  have hfirst : w.submitted = [] := by
    by_contra hne
    rw [h.closed hne hu] at hdone
    cases hdone
  have hsubmitted : request.usable → request.core.queue.responseSubmitted = true := by
    intro hu'
    simp only [Request.usable, Bool.and_eq_true, Bool.not_eq_true'] at hu hu'
    unfold submitResponseNva at hqueue
    rw [hdone, hu.1, hu.2] at hqueue
    cases accepted with
    | true =>
      rw [hqueue]
      rfl
    | false =>
      rw [hqueue] at hu'
      cases hu'.1
  rw [hfirst, List.nil_append]
  refine ⟨.inr ⟨b, hb, rfl⟩, fun _ => hsubmitted, fun _ => List.cons_ne_nil _ _, h.keep hseq hun, ?_⟩
  exact fun _ _ => List.cons_ne_nil _ _

theorem Settled.step (h : w.Settled find) (hseq : w.sequenced a) (hun : w.unmixed a)
    (hs : w.step find sizeMax limit a = some w') : w'.Settled find := by
  obtain ⟨request, hreq, rfl⟩ := Option.map_eq_some_iff.mp hs
  have hsub := Request.step_submits hreq
  cases hstart : w.request.starting a.act with
  | none =>
    have hcall : (w.keep (w.taken a)).call find a = none := by
      unfold call
      rw [keep_request, hstart]
      rfl
    rw [hcall, Option.toList_none, List.append_nil]
    refine h.silent hseq hun hsub.usable (hsub.same hstart) fun hlate hu => ?_
    rcases hsub.early hlate with hold | ⟨accepted, hact⟩
    · exact h.late hold (hsub.usable hu)
    · rw [hact] at hstart
      cases hstart
  | some accepted =>
    obtain ⟨b, hb, hnva⟩ := h.ready hseq hun hstart
    have hqueue := hsub.tried accepted hstart
    rw [call_eq accepted hstart, hnva]
    by_cases hopen : (w.request.core.queue.responseSubmitted || w.request.core.queue.responseCancelled ||
        w.request.core.flags.gone) = true
    · -- No call: the response was submitted before, or cannot be sent.
      have hnone : (submitNva w.request.core.flags accepted (b.nva find) w.request.core.queue).2 = none := if_pos hopen
      have hsame : request.core.queue = w.request.core.queue := by
        rw [hqueue]
        unfold submitResponseNva
        simp only [Bool.or_eq_true, or_assoc] at hopen
        split_ifs with hdone hgone
        · rfl
        · rfl
        · simp_all
        · simp_all
      rw [hnone, Option.toList_none, List.append_nil]
      refine h.silent hseq hun hsub.usable (by rw [hsame]) fun _ hu => h.made ?_
      have hu' := hsub.usable hu
      simp only [Request.usable, Bool.and_eq_true, Bool.not_eq_true'] at hu'
      simpa [hu'.1, hu'.2] using hopen
    · have hcall : (submitNva w.request.core.flags accepted (b.nva find) w.request.core.queue).2 = some (b.nva find) := if_neg hopen
      simp only [Bool.or_eq_true, not_or, Bool.not_eq_true] at hopen
      obtain ⟨⟨hdone, hcancel⟩, hgone⟩ := hopen
      rw [hcall, Option.toList_some]
      exact h.called hseq hun hb hqueue hdone (by simp [Request.usable, hcancel, hgone])

/-- In a run without early submissions, `nghttp3_conn_submit_response` is called at most once and
with the final response; when the worker is done it has been called, unless the response was
cancelled or the session is gone. -/
theorem final_response_submitted_once {streaming : Bool} {bufferLimit : ℕ} {now : ℤ} {flags : SessionFlags}
    (h : Reach (step find sizeMax limit) (fun w a => w.sequenced a ∧ w.unmixed a)
      (start streaming bufferLimit now flags) w) :
    (w.submitted = [] ∨ ∃ b, w.final = some b ∧ w.submitted = [b.nva find]) ∧
      (w.request.worker = .finished → w.request.usable → ∃ b, w.final = some b ∧ w.submitted = [b.nva find]) := by
  have hinv : w.Settled find :=
    h.invariant (settled_start streaming bufferLimit now flags) fun _ _ _ hi hok hs => hi.step hok.1 hok.2 hs
  refine ⟨hinv.once, fun hw hu => hinv.once.resolve_left (hinv.late ?_ hu)⟩
  rw [hw]
  rfl

/-- A step with nothing in its RESPONSE bucket. -/
def ofAct (act : RequestAction) : SendingAct := ⟨act, ⟨200, some []⟩, none, 200⟩

def earlyHints : ResponseBucket := ⟨103, some [(some (ascii "link"), some (ascii "/a.css"))]⟩

def okResponse : ResponseBucket := ⟨200, some [(some (ascii "x-a"), some (ascii "1"))]⟩

/-- An interim response, then the final one with its end of stream. -/
def interimRun : List SendingAct :=
  [ofAct (.pass true [.response, .response, .eos]), ⟨.bucket true false, earlyHints, none, 200⟩,
    ⟨.bucket true false, okResponse, none, 200⟩, ofAct (.bucket true false)]

def buffered : List SendingAct :=
  interimRun ++ [ofAct (.bucket true false), ofAct .endHandler, ofAct (.respond true), ofAct .complete]

def streamed : List SendingAct :=
  interimRun ++ [ofAct .endOfStream, ofAct (.bucket true false), ofAct .endHandler, ofAct (.respond true),
    ofAct .complete]

/-- Buffering, the interim response is passed over. -/
theorem final_response_submitted_once_buffered :
    ∃ w, Reach (step names 1000 1000) (fun w a => w.sequenced a ∧ w.unmixed a) (start false 100 0 liveSession) w ∧
      w.final = some okResponse ∧ w.submitted = [okResponse.nva names] := by
  have hrun : (runChecked (step names 1000 1000) (fun w a => w.sequenced a ∧ w.unmixed a) (start false 100 0 liveSession)
      buffered).map (fun w => (w.final, w.request.worker, w.request.usable)) =
        some (some okResponse, .finished, true) := by
    decide +kernel
  obtain ⟨w, hw, he⟩ := Option.map_eq_some_iff.mp hrun
  simp only [Prod.mk.injEq] at he
  obtain ⟨hfinal, hworker, husable⟩ := he
  have hr := Reach.of_runChecked _ hw
  obtain ⟨b, hb, hsub⟩ := (final_response_submitted_once hr).2 hworker husable
  rw [hfinal] at hb
  cases hb
  exact ⟨w, hr, hfinal, hsub⟩

/-- Streaming, the interim response is the one that is submitted. -/
theorem interim_response_submitted :
    ∃ w, Reach (step names 1000 1000) (fun w a => w.sequenced a) (start true 100 0 liveSession) w ∧
      w.request.worker = .finished ∧ w.request.usable ∧ w.final = some okResponse ∧
      w.submitted = [earlyHints.nva names] ∧ earlyHints.nva names ≠ okResponse.nva names := by
  have hrun : (runChecked (step names 1000 1000) (fun w a => w.sequenced a) (start true 100 0 liveSession) streamed).map
      (fun w => (w.request.worker, w.request.usable, w.final, decide (w.submitted = [earlyHints.nva names]))) =
        some (.finished, true, some okResponse, true) := by
    decide +kernel
  obtain ⟨w, hw, he⟩ := Option.map_eq_some_iff.mp hrun
  simp only [Prod.mk.injEq] at he
  obtain ⟨hworker, husable, hfinal, hsub⟩ := he
  exact ⟨w, Reach.of_runChecked _ hw, hworker, husable, hfinal, of_decide_eq_true hsub, by decide +kernel⟩

end Sending

end ModHttp3.Response
