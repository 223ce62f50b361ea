import ModHttp3.Response.Buffered
import ModHttp3.Response.Finalize
import ModHttp3.Response.Interim

/-! Responses with their header fields, on both builds: what the context keeps of the head, and what
`nghttp3_conn_submit_response` is called with. A buffered response is sent whole or not at all. -/
namespace ModHttp3.Response
open Lib ModHttp3.Request

/-- The status and the header table of a response. -/
structure ResponseHead where
  status : ℕ
  headers : List TableEntry
  deriving DecidableEq, Repr

/-- The head as `build_response_nva` filters it. -/
def ResponseHead.nva (env : Httpd) (h : ResponseHead) : List (Bytes × Bytes) :=
  buildResponseNva env.findToken nvaCap ⟨some h.headers, h.status, none, 0⟩

/-- The table of the stable build; no string in it is null. -/
def tableEntries (t : Table) : List TableEntry := t.map fun e => (some e.1, some e.2)

/-- The head that `h3_response_finalize` leaves in the context. -/
def ResponseRec.finalized (env : Httpd) (r : ResponseRec) : ResponseHead :=
  ⟨r.status, tableEntries (h3ResponseFinalize env r)⟩

/-- A request with the head of its response. `submitted` records the calls of
`nghttp3_conn_submit_response`, `original` the head of the response once the filter has it, and `cut`
that a wait of `h3_stream_response_append` failed. -/
structure Delivery where
  request : Request
  respStatus : ℕ
  respHeaders : Option (List TableEntry)
  submitted : List (List (Bytes × Bytes))
  original : Option ResponseHead
  cut : Bool

/-- `response` is the RESPONSE bucket of the step, if it takes one (devel build). `record` is the
`request_rec` at the step, and `edited` what the handler has made of the table that `resp_headers`
points to, if it has touched it (stable build, where that is the table of the `request_rec`). -/
structure DeliveryAct where
  act : RequestAction
  response : ResponseBucket
  record : ResponseRec
  edited : Option (List TableEntry)

/-- The buckets at which the stable build calls `h3_response_finalize`. -/
def Bucket.finalizes : Bucket → Bool
  | .data _ | .eos | .flush => true
  | _ => false

/-- The buckets at which a streaming filter calls `h3_response_start`, on either build. -/
def Bucket.submits (conf : RequestConf) (headerOnly : Bool) : Bucket → Bool
  | .response => conf.devel
  | .data _ => conf.devel || !headerOnly
  | .eos | .flush => true
  | .error | .metadata => false

namespace Delivery

def start (streaming : Bool) (bufferLimit : ℕ) (now : ℤ) (flags : SessionFlags) : Delivery :=
  ⟨.start streaming bufferLimit now flags, 0, none, [], none, false⟩

/-- The bucket that the step takes. -/
def bucket? (w : Delivery) (a : DeliveryAct) : Option Bucket :=
  match a.act, w.request.worker with
  | .bucket _ _, .filter (b :: _) => some b
  | _, _ => none

/-- Changes that the handler has made in place. -/
def edit (conf : RequestConf) (w : Delivery) (a : DeliveryAct) : Delivery :=
  if conf.devel then w else { w with respHeaders := w.respHeaders.bind fun t => a.edited.or (some t) }

/-- Devel build: the context takes the status, and a copy of the headers if there are any. -/
def keepResponse (w : Delivery) (b : ResponseBucket) : Delivery :=
  { w with
    respStatus := b.status
    respHeaders := b.copied.or w.respHeaders
    original := if b.interim then w.original else some ⟨b.status, b.copied.getD []⟩ }

/-- Stable build: `h3_response_finalize` does nothing when the context has the headers. -/
def finalize (env : Httpd) (w : Delivery) (r : ResponseRec) : Delivery :=
  if w.respHeaders.isSome then w
  else
    { w with
      respStatus := (r.finalized env).status
      respHeaders := some (r.finalized env).headers
      original := some (r.finalized env) }

/-- `h3_response_start` is called: by a streaming filter, and after the handler unless the response is
too large. -/
def finalizes (w : Delivery) (a : DeliveryAct) : Bool :=
  match a.act with
  | .respond _ => !w.request.ctx.responseTooLarge
  | _ => (w.bucket? a).any Bucket.finalizes

/-- What the context takes over in the step. -/
def keep (conf : RequestConf) (env : Httpd) (w : Delivery) (a : DeliveryAct) : Delivery :=
  if conf.devel then if w.bucket? a = some .response then w.keepResponse a.response else w
  else if w.finalizes a then w.finalize env a.record else w

/-- The step calls `submit_response_nva`; the value is nghttp3's answer. -/
def submits (conf : RequestConf) (w : Delivery) (a : DeliveryAct) : Option Bool :=
  match a.act with
  | .respond accepted => some accepted
  | .bucket accepted headerOnly =>
    if w.request.ctx.streaming && (w.bucket? a).any (·.submits conf headerOnly) then some accepted else none
  | _ => none

/-- The array of the submission. -/
def nva (env : Httpd) (w : Delivery) (a : DeliveryAct) : List (Bytes × Bytes) :=
  match a.act, w.request.ctx.responseTooLarge with
  | .respond _, true => Sending.oversizedNva
  | _, _ =>
    buildResponseNva env.findToken nvaCap
      ⟨w.respHeaders, w.respStatus, some (tableEntries a.record.headersOut), a.record.status⟩

/-- What the step calls `nghttp3_conn_submit_response` with. -/
def call (conf : RequestConf) (env : Httpd) (w : Delivery) (a : DeliveryAct) : Option (List (Bytes × Bytes)) :=
  (w.submits conf a).bind fun accepted =>
    (submitNva w.request.core.flags accepted (w.nva env a) w.request.core.queue).2

def step (conf : RequestConf) (env : Httpd) (w : Delivery) (a : DeliveryAct) : Option Delivery :=
  (w.request.step conf a.act).map fun request =>
    let w := (w.edit conf a).keep conf env a
    { w with
      request := request
      submitted := w.submitted ++ (w.call conf env a).toList
      cut := w.cut || Request.cutsAppend a.act }

/-- One response: on the devel build interim ones, then a final one with a header table, before the
handler ends; on the stable build the handler leaves the headers alone once the filter has them. -/
def oneResponse (conf : RequestConf) (w : Delivery) (a : DeliveryAct) : Bool :=
  if conf.devel then
    if w.bucket? a = some .response then
      w.original.isNone && (a.response.interim || decide (200 ≤ a.response.status) && a.response.headers.isSome)
    else match a.act with
      | .respond _ => w.original.isSome
      | _ => true
  else a.edited.isNone && a.record.status != 0

/-- Plain brigades of one response that carries a body. -/
def proper (conf : RequestConf) (w : Delivery) (a : DeliveryAct) : Bool :=
  Request.bodied conf a.act && w.oneResponse conf a &&
    match a.act with
    | .bucket _ headerOnly => conf.devel || headerOnly == a.record.bare
    | _ => true

/-- What is to be sent: the error in place of a body that exceeds the limit, or the head of the
response and its body. -/
def promised (env : Httpd) (limit : ℕ) (w : Delivery) : Option (List (Bytes × Bytes) × Bytes) :=
  if limit < w.request.passed.length then some (Sending.oversizedNva, oversizedMsg)
  else w.original.map fun head => (head.nva env, w.request.passed)

end Delivery

namespace Request

section
variable {conf : RequestConf} {σ σ' : Request} {a : RequestAction}

private theorem finish_late (accepted : Bool) :
    (σ.finish accepted).worker.early = false ∧ (σ.finish accepted).ctx = σ.ctx ∧
      (σ.finish accepted).passed = σ.passed := by
  unfold finish responseStart
  split
  · split_ifs <;> exact ⟨rfl, rfl, rfl⟩
  · exact ⟨rfl, rfl, rfl⟩

/-- Only the submission at the end takes the worker past the handler. -/
theorem Buffered.early (hb : Buffered conf σ a σ') (ha : ∀ accepted, a ≠ .respond accepted) :
    σ'.worker.early = σ.worker.early := by
  have hreturns : ∀ ok, (appendReturns ok σ.worker).early = σ.worker.early := by
    intro ok
    cases σ.worker <;> cases ok <;> rfl
  cases hb with
  | passed hw _ | skipped hw _ | captured hw | filtered hw | eos hw | ended hw | completed hw =>
    rw [hw]
    rfl
  | responded => exact absurd rfl (ha _)
  | @appended _ data offset x _ _ =>
    obtain ⟨outcome, q⟩ := x
    cases outcome with
    | waits => rfl
    | returns rv => exact hreturns false
    | queued n resume =>
      unfold afterAppend
      dsimp only
      split_ifs
      · exact hreturns true
      · rfl
  | waitFailed => exact hreturns false
  | aside => rfl

/-- After the handler, context and record stay. -/
theorem Buffered.kept (hb : Buffered conf σ a σ') (hlate : σ.worker.early = false) :
    σ'.ctx = σ.ctx ∧ σ'.passed = σ.passed := by
  cases hb with
  | passed hw _ | skipped hw _ | captured hw | filtered hw | eos hw | ended hw | responded hw =>
    rw [hw] at hlate
    cases hlate
  | @appended _ data offset x _ _ =>
    obtain ⟨outcome, q⟩ := x
    cases outcome <;> exact ⟨rfl, rfl⟩
  | _ => exact ⟨rfl, rfl⟩

/-- A response does not become usable again. -/
theorem Buffered.usable (hb : Buffered conf σ a σ') (hu : σ'.usable) : σ.usable := by
  cases hb with
  | responded hw => exact (finish_submits _).usable hu
  | @appended _ data offset x _ hx =>
    obtain ⟨hqueue, hflags⟩ := @afterAppend_core σ data offset x
    unfold Request.usable at hu
    rw [hqueue, hflags] at hu
    exact usable_of (append_ctl hx).2 id hu
  | aside _ _ _ _ _ husable => exact husable hu
  | _ => exact hu

end

end Request

namespace Delivery

/-- The array that is called for. -/
def answer (env : Httpd) (w : Delivery) : Option (List (Bytes × Bytes)) :=
  if w.request.ctx.responseTooLarge then some Sending.oversizedNva
  else w.original.map (ResponseHead.nva env)

/-- The context has the head of the response; there is no call before the handler's end, and one
after it unless the response could not be sent. -/
structure Settled (conf : RequestConf) (env : Httpd) (w : Delivery) : Prop where
  held : w.request.Held conf w.cut
  head : ∀ head, w.original = some head →
    head.status ≠ 0 ∧ w.respStatus = head.status ∧ w.respHeaders = some head.headers
  known : conf.devel = false → w.respHeaders.isSome → w.original.isSome
  silent : w.request.worker.early = true → w.submitted = []
  once : w.request.worker.early = false → ∃ nva, w.answer env = some nva ∧
    (w.submitted = [] ∨ w.submitted = [nva]) ∧ (w.request.usable → w.submitted = [nva])

section
variable {conf : RequestConf} {env : Httpd} {w w' : Delivery} {a : DeliveryAct}

theorem settled_start (bufferLimit : ℕ) (now : ℤ) (flags : SessionFlags) :
    (start false bufferLimit now flags).Settled conf env :=
  ⟨Request.held_start bufferLimit now flags, nofun, nofun, fun _ => rfl, nofun⟩

private theorem edit_eq (hok : w.proper conf a) : w.edit conf a = w := by
  unfold edit
  split_ifs with hd
  · rfl
  · have hone := (Bool.and_eq_true_iff.mp (Bool.and_eq_true_iff.mp hok).1).2
    unfold oneResponse at hone
    rw [if_neg hd, Bool.and_eq_true_iff, Option.isNone_iff_eq_none] at hone
    rw [hone.1]
    cases w with
    | mk request respStatus respHeaders submitted original cut => cases respHeaders <;> rfl

theorem keep_same (conf : RequestConf) (env : Httpd) (w : Delivery) (a : DeliveryAct) :
    (w.keep conf env a).request = w.request ∧ (w.keep conf env a).submitted = w.submitted ∧
      (w.keep conf env a).cut = w.cut := by
  unfold keep finalize
  split_ifs <;> exact ⟨rfl, rfl, rfl⟩

/-- After the handler the context takes over nothing more. -/
private theorem keep_late (hlate : w.request.worker.early = false) (ha : ∀ accepted, a.act ≠ .respond accepted) :
    w.keep conf env a = w := by
  have hnone : w.bucket? a = none := by
    unfold bucket?
    split
    · rename_i hw
      rw [hw] at hlate
      cases hlate
    · rfl
  have hfinal : w.finalizes a = false := by
    unfold finalizes
    split
    · rename_i hact
      exact absurd hact (ha _)
    · rw [hnone]
      rfl
  unfold keep
  rw [hnone, hfinal]
  split_ifs <;> first | rfl | contradiction

/-- What the context keeps is the head of the response, with a status and a table. -/
theorem Settled.keep_head (env : Httpd) (h : w.Settled conf env) (hok : w.proper conf a) :
    (∀ head, (w.keep conf env a).original = some head → head.status ≠ 0 ∧
      (w.keep conf env a).respStatus = head.status ∧ (w.keep conf env a).respHeaders = some head.headers) ∧
    (conf.devel = false → (w.keep conf env a).respHeaders.isSome → (w.keep conf env a).original.isSome) := by
  have hone : w.oneResponse conf a := (Bool.and_eq_true_iff.mp (Bool.and_eq_true_iff.mp hok).1).2
  unfold oneResponse at hone
  unfold keep
  split_ifs at hone ⊢ with hd hresponse hfinal
  · refine ⟨fun head hhead => ?_, fun hstable => absurd hd (Bool.eq_false_iff.mp hstable)⟩
    simp only [Bool.and_eq_true, Bool.or_eq_true, Option.isNone_iff_eq_none, decide_eq_true_eq] at hone
    obtain ⟨hnone, hkind⟩ := hone
    unfold keepResponse at hhead ⊢
    dsimp only at hhead ⊢
    split_ifs at hhead with hinterim
    · rw [hnone] at hhead
      cases hhead
    · obtain ⟨hstatus, hheaders⟩ := hkind.resolve_left hinterim
      obtain ⟨headers, hheaders⟩ := Option.isSome_iff_exists.mp hheaders
      cases hhead
      have hcopied : ∃ entries, a.response.copied = some entries := by
        unfold ResponseBucket.copied
        rw [hheaders]
        exact ⟨_, rfl⟩
      obtain ⟨entries, hcopied⟩ := hcopied
      rw [hcopied]
      refine ⟨?_, rfl, rfl⟩
      dsimp only
      omega
  · exact ⟨h.head, h.known⟩
  · obtain ⟨-, hstatus⟩ := Bool.and_eq_true_iff.mp hone
    unfold finalize
    split_ifs with hsome
    · exact ⟨h.head, h.known⟩
    · refine ⟨fun head hhead => ?_, fun _ _ => rfl⟩
      cases hhead
      exact ⟨bne_iff_ne.mp hstatus, rfl, rfl⟩
  · exact ⟨h.head, h.known⟩

/-- When the worker answers, the context has what it is to send. -/
theorem Settled.ready (h : w.Settled conf env) (hok : w.proper conf a) {accepted : Bool}
    (hact : a.act = .respond accepted) :
    ∃ nva, (w.keep conf env a).answer env = some nva ∧ (w.keep conf env a).nva env a = nva := by
  obtain ⟨hhead, hknown⟩ := h.keep_head env hok
  have hone : w.oneResponse conf a := (Bool.and_eq_true_iff.mp (Bool.and_eq_true_iff.mp hok).1).2
  have hsame : (w.keep conf env a).request = w.request := (keep_same conf env w a).1
  cases hlarge : w.request.ctx.responseTooLarge with
  | true =>
    refine ⟨Sending.oversizedNva, ?_, ?_⟩
    · unfold answer
      rw [hsame, hlarge, if_pos rfl]
    · unfold nva
      rw [hsame, hact, hlarge]
  | false =>
    have hsome : (w.keep conf env a).original.isSome := by
      have hbucket : w.bucket? a = none := by
        unfold bucket?
        rw [hact]
      have hfinalizes : w.finalizes a = true := by
        unfold finalizes
        rw [hact]
        dsimp only
        rw [hlarge]
        rfl
      cases hd : conf.devel with
      | true =>
        unfold oneResponse at hone
        unfold keep
        rw [hd, hbucket, hact] at hone
        rw [hd, hbucket]
        exact hone
      | false =>
        refine hknown hd ?_
        unfold keep finalize
        rw [hd, hfinalizes, if_neg Bool.false_ne_true, if_pos rfl]
        split_ifs with hs
        · exact hs
        · rfl
    obtain ⟨head, horiginal⟩ := Option.isSome_iff_exists.mp hsome
    obtain ⟨hne, hstatus, hheaders⟩ := hhead head horiginal
    refine ⟨head.nva env, ?_, ?_⟩
    · unfold answer
      rw [hsame, hlarge, if_neg Bool.false_ne_true, horiginal]
      rfl
    · unfold nva
      rw [hsame, hact, hlarge]
      simp [ResponseHead.nva, buildResponseNva, Head.headers, Head.statusField, hheaders, hstatus, hne]

/-- A buffering filter does not submit. -/
private theorem call_none (hmode : w.request.ctx.streaming = false) (ha : ∀ accepted, a.act ≠ .respond accepted) :
    w.call conf env a = none := by
  have hnone : w.submits conf a = none := by
    unfold submits
    split
    · rename_i hact
      exact absurd hact (ha _)
    · rw [hmode, Bool.false_and]
      rfl
    · rfl
  unfold call
  rw [hnone]
  rfl

theorem Settled.step (h : w.Settled conf env) (hok : w.proper conf a) (hs : w.step conf env a = some w') :
    w'.Settled conf env := by
  obtain ⟨request, hreq, rfl⟩ := Option.map_eq_some_iff.mp hs
  have hbodied : Request.bodied conf a.act := (Bool.and_eq_true_iff.mp (Bool.and_eq_true_iff.mp hok).1).1
  have hb := Request.step_buffered h.held.mode h.held.plain hbodied hreq
  have hheld := hb.held h.held
  obtain ⟨hsame, hsub, hcut⟩ := keep_same conf env w a
  obtain ⟨hhead, hknown⟩ := h.keep_head env hok
  dsimp only
  rw [edit_eq hok, hsub, hcut]
  by_cases hrespond : ∃ accepted, a.act = .respond accepted
  · obtain ⟨accepted, hact⟩ := hrespond
    obtain ⟨nva, hanswer, hnva⟩ := h.ready hok hact
    rw [hact] at hb
    cases hb with
    | responded hw =>
      obtain ⟨hlate, hctx, -⟩ := w.request.finish_late accepted
      have hearly : w.request.worker.early = true := by
        rw [hw]
        rfl
      have hfirst := h.silent hearly
      have hsubmitted := (h.held.quiet hearly).2.2.2
      have hcall : (w.keep conf env a).call conf env a = if w.request.usable then some nva else none := by
        unfold call submits submitNva Request.usable
        rw [hact, hsame, hsubmitted, hnva]
        cases w.request.core.queue.responseCancelled <;> cases w.request.core.flags.gone <;> rfl
      rw [hfirst, hcall, List.nil_append]
      refine ⟨hheld, hhead, hknown, fun he => ?_, fun _ => ⟨nva, ?_, ?_, fun hu => ?_⟩⟩
      · rw [hlate] at he
        cases he
      · unfold answer at hanswer ⊢
        rw [hsame] at hanswer
        rw [hctx]
        exact hanswer
      · split_ifs
        · exact .inr rfl
        · exact .inl rfl
      · have hold := (Request.finish_submits accepted).usable hu
        rw [if_pos hold]
        rfl
    | aside ha => cases ha
  · have hno : ∀ accepted, a.act ≠ .respond accepted := fun accepted hact => hrespond ⟨accepted, hact⟩
    have hearly := hb.early hno
    have hcall : (w.keep conf env a).call conf env a = none := call_none (by rw [hsame]; exact h.held.mode) hno
    rw [hcall, Option.toList_none, List.append_nil]
    refine ⟨hheld, hhead, hknown, fun he => h.silent (hearly ▸ he), fun hlate => ?_⟩
    have hold : w.request.worker.early = false := hearly ▸ hlate
    obtain ⟨nva, hanswer, hsubmitted, hsent⟩ := h.once hold
    refine ⟨nva, ?_, hsubmitted, fun hu => hsent (hb.usable hu)⟩
    unfold answer at hanswer ⊢
    rw [(hb.kept hold).1, keep_late hold hno]
    exact hanswer

private theorem settled_reach {bufferLimit : ℕ} {now : ℤ} {flags : SessionFlags}
    (h : Reach (step conf env) (fun w a => w.proper conf a) (start false bufferLimit now flags) w) :
    w.Settled conf env :=
  h.invariant (settled_start bufferLimit now flags) fun _ _ _ hw hok hs => hw.step hok hs

/-- After the handler: the response is flagged as too large exactly if its body exceeds the limit, and
what is called for is what is promised. -/
theorem Settled.promised_eq (h : w.Settled conf env) (hlate : w.request.worker.early = false) {nva : List (Bytes × Bytes)}
    (hanswer : w.answer env = some nva) : w.promised env conf.limit = some (nva, w.request.ctx.heldBody) := by
  have hrest : w.request.worker.rest = [] := by
    cases hw : w.request.worker <;> first | rfl | (rw [hw] at hlate; cases hlate)
  unfold answer at hanswer
  unfold promised ConnCtx.heldBody
  rw [h.held.mode]
  cases hlarge : w.request.ctx.responseTooLarge with
  | true =>
    rw [hlarge, if_pos rfl] at hanswer
    cases hanswer
    rw [if_pos (h.held.exceeds hlarge)]
    rfl
  | false =>
    rw [hlarge, if_neg Bool.false_ne_true] at hanswer
    obtain ⟨hpassed, hlen⟩ := h.held.fits hlarge
    have hbody : w.request.passed = w.request.ctx.dataheap := by
      rw [hpassed, hrest]
      exact List.append_nil _
    have hwithin : ¬ conf.limit < w.request.passed.length := by
      rw [hbody]
      omega
    obtain ⟨head, hhead, rfl⟩ := Option.map_eq_some_iff.mp hanswer
    rw [if_neg hwithin, hhead, hbody]
    rfl

/-- A buffered response is sent whole or not at all, however its body comes in brigades and buckets.
Before the handler's end nothing is submitted or queued. After it there is at most one call of
`nghttp3_conn_submit_response`, with what is promised; a response that was not cancelled on a session
that is there gets this call, and append gets the body that goes with it, which it queues unless
its wait fails. -/
theorem buffered_all_or_nothing {bufferLimit : ℕ} {now : ℤ} {flags : SessionFlags}
    (h : Reach (step conf env) (fun w a => w.proper conf a) (start false bufferLimit now flags) w) :
    (w.request.worker.early = true → w.submitted = [] ∧ w.request.core.passed = []) ∧
      (w.request.worker.early = false → ∃ nva body, w.promised env conf.limit = some (nva, body) ∧
        (w.submitted = [] ∨ w.submitted = [nva]) ∧
        (w.request.usable → w.submitted = [nva] ∧ w.request.core.passed = body ∧
          (w.request.worker = .finished → w.cut = false → w.request.core.appended = body))) := by
  have hsettled := settled_reach h
  refine ⟨fun hearly => ⟨hsettled.silent hearly, (hsettled.held.quiet hearly).1⟩, fun hlate => ?_⟩
  obtain ⟨nva, hanswer, hsubmitted, hsent⟩ := hsettled.once hlate
  refine ⟨nva, _, hsettled.promised_eq hlate hanswer, hsubmitted, fun hu => ?_⟩
  obtain ⟨hpassed, hqueued⟩ := hsettled.held.given hlate hu
  refine ⟨hsent hu, hpassed, fun hfinished hcut => ?_⟩
  have hidle : w.request.core.producer = none := hsettled.held.idle (by rw [hfinished]; rfl)
  have hall := hqueued hcut
  rw [Request.pending_idle hidle, List.append_nil] at hall
  exact hall.trans hpassed

end

def sampleHttpd : Httpd := ⟨id, fun _ => [], ascii "now", some (ascii "httpd"), names⟩

def sampleRecord : ResponseRec where
  status := 200
  headersOut := [(ascii "X-A", ascii "1"), (ascii "Connection", ascii "close")]
  errHeadersOut := []
  forceNoVary := false
  noEtag := false
  contentType := none
  contentEncoding := none
  contentLanguages := []
  noCache := false
  headerOnly := false
  proxied := false

/-- A run of the stable build, with the body in two pieces of one bucket. -/
def twoPieces : List DeliveryAct := Request.bufferedRun.map fun act => ⟨act, Sending.okResponse, sampleRecord, none⟩

/-- The body exceeds a limit of two bytes with its second piece, and fits into three. -/
theorem buffered_all_or_nothing_twoPieces :
    (∃ w, Reach (step ⟨1000, false, 2⟩ sampleHttpd) (fun w a => w.proper ⟨1000, false, 2⟩ a)
        (start false 100 0 liveSession) w ∧ w.request.passed = [1, 2, 3] ∧
      w.submitted = [Sending.oversizedNva] ∧ w.request.core.appended = oversizedMsg) ∧
    ∃ w, Reach (step ⟨1000, false, 3⟩ sampleHttpd) (fun w a => w.proper ⟨1000, false, 3⟩ a)
        (start false 100 0 liveSession) w ∧
      w.submitted = [(sampleRecord.finalized sampleHttpd).nva sampleHttpd] ∧ w.request.core.appended = [1, 2, 3] := by
  have hrun : ∀ limit ∈ [2, 3], ((runChecked (step ⟨1000, false, limit⟩ sampleHttpd)
      (fun w a => w.proper ⟨1000, false, limit⟩ a) (start false 100 0 liveSession) twoPieces).map
        fun w => (w.request.worker, w.request.usable && !w.cut, w.request.passed,
          decide (w.original = some (sampleRecord.finalized sampleHttpd)))) =
            some (.finished, true, [1, 2, 3], true) := by
    decide +kernel
  have hsent : ∀ limit ∈ [2, 3], ∃ w nva body, Reach (step ⟨1000, false, limit⟩ sampleHttpd)
      (fun w a => w.proper ⟨1000, false, limit⟩ a) (start false 100 0 liveSession) w ∧
      w.request.passed = [1, 2, 3] ∧ w.original = some (sampleRecord.finalized sampleHttpd) ∧
      w.promised sampleHttpd limit = some (nva, body) ∧ w.submitted = [nva] ∧ w.request.core.appended = body := by
    intro limit hlimit
    obtain ⟨w, hw, he⟩ := Option.map_eq_some_iff.mp (hrun limit hlimit)
    simp only [Prod.mk.injEq, Bool.and_eq_true, Bool.not_eq_true', decide_eq_true_eq] at he
    obtain ⟨hworker, ⟨husable, hcut⟩, hpassed, horiginal⟩ := he
    have hr := Reach.of_runChecked _ hw
    obtain ⟨nva, body, hpromised, -, hall⟩ := (buffered_all_or_nothing hr).2 (by rw [hworker]; rfl)
    obtain ⟨hsub, -, hqueued⟩ := hall husable
    exact ⟨w, nva, body, hr, hpassed, horiginal, hpromised, hsub, hqueued hworker hcut⟩
  obtain ⟨w, nva, body, hr, hpassed, -, hpromised, hsub, hqueued⟩ := hsent 2 (by decide)
  obtain ⟨w', nva', body', hr', hpassed', horiginal', hpromised', hsub', hqueued'⟩ := hsent 3 (by decide)
  unfold promised at hpromised hpromised'
  rw [hpassed, if_pos (by decide)] at hpromised
  rw [hpassed', if_neg (by decide), horiginal'] at hpromised'
  cases hpromised
  cases hpromised'
  exact ⟨⟨w, hr, hpassed, hsub, hqueued⟩, w', hr', hsub', hqueued'⟩

end Delivery

end ModHttp3.Response
