import ModHttp3.Response.SameBody

/-! A worker that buffers: what its steps do, and where the handler's bytes are until it has finished. -/
namespace ModHttp3.Response
open Lib

namespace Request

/-- Plain brigades of a main request; on the stable build the response has a body. -/
def bodied (conf : RequestConf) : RequestAction → Bool
  | .pass mainRequest bb => mainRequest && bb.all Bucket.plain
  | .bucket _ headerOnly => conf.devel || !headerOnly
  | _ => true

/-- The wait in `h3_stream_response_append` failed. -/
def cutsAppend : RequestAction → Bool
  | .waitFails => true
  | _ => false

/-- The steps of the event thread. -/
def ofEventThread : RequestAction → Bool
  | .read _ | .ack _ _ | .abandon _ _ | .stopSending | .resetStream | .streamClose | .abort | .dead => true
  | _ => false

/-- What a step of a buffering worker does. -/
inductive Buffered (conf : RequestConf) (σ : Request) : RequestAction → Request → Prop
  | passed {bb : List Bucket} (hw : σ.worker = .handler) (hplain : bb.all Bucket.plain) :
      Buffered conf σ (.pass true bb) { σ with worker := .filter bb, passed := σ.passed ++ brigadeBytes bb }
  | skipped {accepted headerOnly : Bool} {b : Bucket} {bb : List Bucket} (hw : σ.worker = .filter (b :: bb))
      (hb : b.bytes = []) : Buffered conf σ (.bucket accepted headerOnly) (σ.filterNext bb)
  | captured {accepted headerOnly : Bool} {pieces : List Piece} {bb : List Bucket}
      (hw : σ.worker = .filter (.data pieces :: bb)) :
      Buffered conf σ (.bucket accepted headerOnly)
        { σ with
          ctx := (captureBodyBucket conf.limit pieces σ.ctx).1
          worker := .filter ((captureBodyBucket conf.limit pieces σ.ctx).2 ++ bb) }
  | filtered {accepted headerOnly : Bool} (hw : σ.worker = .filter []) :
      Buffered conf σ (.bucket accepted headerOnly) σ.filterReturns
  | eos {bb : List Bucket} (hw : σ.worker = .ending bb) :
      Buffered conf σ .endOfStream (σ.completed.filterNext bb)
  | ended (hw : σ.worker = .handler) : Buffered conf σ .endHandler { σ with worker := .finishing }
  | responded {accepted : Bool} (hw : σ.worker = .finishing) :
      Buffered conf σ (.respond accepted) (σ.finish accepted)
  | completed (hw : σ.worker = .completing) :
      Buffered conf σ .complete { σ.completed with worker := .finished }
  | appended {malloc : Option Addr} {data : Bytes} {offset : ℕ} {x : AppendStep × Queue}
      (hp : σ.core.producer = some (data, offset))
      (hx : h3StreamResponseAppend conf.sizeMax σ.core.flags data offset malloc σ.core.queue = some x) :
      Buffered conf σ (.append malloc) (σ.afterAppend data offset x)
  | waitFailed (hp : σ.core.producer.isSome) :
      Buffered conf σ .waitFails
        { σ with core := { σ.core with producer := none }, worker := appendReturns false σ.worker }
  /-- the response may have become unusable -/
  | aside {a : RequestAction} {core : Exchange} {isOpen eof : Bool} (ha : ofEventThread a)
      (hpassed : core.passed = σ.core.passed) (happended : core.appended = σ.core.appended)
      (hproducer : core.producer = σ.core.producer)
      (hsubmitted : core.queue.responseSubmitted = σ.core.queue.responseSubmitted)
      (husable : ({ σ with core := core, isOpen := isOpen, eof := eof } : Request).usable → σ.usable) :
      Buffered conf σ a { σ with core := core, isOpen := isOpen, eof := eof }

section
variable {conf : RequestConf} {σ σ' : Request} {a : RequestAction}

theorem Buffered.cancelled (ha : ofEventThread a) (isOpen : Bool) :
    Buffered conf σ a { σ.cancel with isOpen := isOpen } :=
  .aside ha rfl rfl rfl rfl nofun

/-- One bucket: none of them submits. -/
private theorem filterBucket_buffered (hmode : σ.ctx.streaming = false) {b : Bucket} {bb : List Bucket}
    (hw : σ.worker = .filter (b :: bb)) (hplain : b.plain) {accepted headerOnly : Bool}
    (hok : bodied conf (.bucket accepted headerOnly)) :
    Buffered conf σ (.bucket accepted headerOnly) (σ.filterBucket conf accepted headerOnly b bb) := by
  unfold filterBucket
  cases b with
  | error => cases hplain
  | response | eos | flush =>
    simp only [hmode, Bool.and_false, Bool.false_eq_true, if_false]
    exact .skipped hw rfl
  | metadata => exact .skipped hw rfl
  | data pieces =>
    have hbody : (!conf.devel && headerOnly) = false := by
      unfold bodied at hok
      cases hd : conf.devel with
      | true => rfl
      | false => simpa [hd] using hok
    simp only [hmode, hbody, Bool.false_eq_true, if_false]
    exact .captured hw

theorem step_buffered (hmode : σ.ctx.streaming = false) (hplain : σ.worker.rest.all Bucket.plain)
    (hok : bodied conf a) (hs : σ.step conf a = some σ') : Buffered conf σ a σ' := by
  cases step_move hs with
  | passed hw =>
    obtain ⟨hmain, hbb⟩ := Bool.and_eq_true_iff.mp hok
    subst hmain
    exact .passed hw hbb
  | bucket hw =>
    rw [hw] at hplain
    exact filterBucket_buffered hmode hw (Bool.and_eq_true_iff.mp hplain).1 hok
  | filtered hw => exact .filtered hw
  | append hp hm hx => exact .appended hp hx
  | waitFails hp => exact .waitFailed (by rw [hp]; rfl)
  | endOfStream hw => exact .eos hw
  | endHandler hw => exact .ended hw
  | respond hw => exact .responded hw
  | complete hw => exact .completed hw
  | @read veccnt x hserving hs hv hx =>
    obtain ⟨answer, q⟩ := x
    have hctl := readData_ctl hx
    have hsub : q.responseSubmitted = σ.core.queue.responseSubmitted := congrArg ResponseCtl.responseSubmitted hctl
    have hcan : q.responseCancelled = σ.core.queue.responseCancelled := congrArg ResponseCtl.responseCancelled hctl
    have husable : (!q.responseCancelled && !σ.core.flags.gone) = true → σ.usable := by
      rw [hcan]
      exact id
    cases answer <;> exact .aside rfl rfl rfl rfl hsub husable
  | @ack now datalen q hn hq =>
    have hsame := ackLoop_sameReader now datalen hq
    have husable : (!q.responseCancelled && !σ.core.flags.gone) = true → σ.usable := by
      rw [hsame.cancelled]
      exact id
    exact .aside rfl rfl rfl rfl hsame.submitted husable
  | abandoned | stopSending | resetStream => exact .cancelled rfl σ.isOpen
  | streamClose => exact .cancelled rfl false
  | waited => exact .aside rfl rfl rfl rfl rfl id
  | abort | dead =>
    refine .aside rfl rfl rfl rfl rfl fun hu => ?_
    simp [usable, SessionFlags.gone] at hu

/-- Where the bytes are. Until the end of the handler the body is in the heap and the brigade, unless
it is known to exceed its limit, and nothing is submitted or queued; afterwards append has got what
was held, and queued it all unless its wait failed. -/
structure Held (conf : RequestConf) (cut : Bool) (σ : Request) : Prop where
  mode : σ.ctx.streaming = false
  plain : σ.worker.rest.all Bucket.plain
  fits : σ.ctx.responseTooLarge = false →
    σ.passed = σ.ctx.dataheap ++ brigadeBytes σ.worker.rest ∧ σ.ctx.dataheap.length ≤ conf.limit
  exceeds : σ.ctx.responseTooLarge = true → conf.limit < σ.passed.length
  quiet : σ.worker.early = true → σ.core.passed = [] ∧ σ.core.appended = [] ∧ σ.core.producer = none ∧
    σ.core.queue.responseSubmitted = false
  idle : σ.worker.appends = false → σ.core.producer = none
  given : σ.worker.early = false → σ.usable → σ.core.passed = σ.ctx.heldBody ∧
    (cut = false → σ.core.appended ++ σ.core.pending = σ.core.passed)

theorem held_start (bufferLimit : ℕ) (now : ℤ) (flags : SessionFlags) :
    Held conf false (.start false bufferLimit now flags) :=
  ⟨rfl, rfl, fun _ => ⟨rfl, Nat.zero_le _⟩, nofun, fun _ => ⟨rfl, rfl, rfl, rfl⟩, fun _ => rfl, nofun⟩

/-- A bucket goes into the heap piece by piece, until the heap would exceed the limit. -/
private theorem captureBodyBucket_held {limit : ℕ} {ctx : ConnCtx} {pieces : List Piece} {bb : List Bucket}
    (hplain : (Bucket.data pieces :: bb).all Bucket.plain) (hfits : ctx.responseTooLarge = false)
    (hlen : ctx.dataheap.length ≤ limit) {ctx' : ConnCtx} {rest : List Bucket}
    (hc : captureBodyBucket limit pieces ctx = (ctx', rest)) :
    (rest ++ bb).all Bucket.plain ∧
      (ctx'.responseTooLarge = false →
        ctx.dataheap ++ brigadeBytes (.data pieces :: bb) = ctx'.dataheap ++ brigadeBytes (rest ++ bb) ∧
          ctx'.dataheap.length ≤ limit) ∧
      (ctx'.responseTooLarge = true → limit < (ctx.dataheap ++ brigadeBytes (.data pieces :: bb)).length) := by
  obtain ⟨data, rest', hread, -, -, hbytes⟩ := aprBucketRead_bytes (readable_head hplain) bb
  have hrest := plain_rest hplain hread
  unfold captureBodyBucket at hc
  rw [hfits, if_neg Bool.false_ne_true, hread] at hc
  dsimp only at hc
  rw [hbytes]
  by_cases hnil : data.length = 0
  · rw [if_pos hnil] at hc
    cases hc
    rw [List.eq_nil_of_length_eq_zero hnil, List.nil_append]
    refine ⟨hrest, fun _ => ⟨rfl, hlen⟩, fun hlarge => ?_⟩
    rw [hfits] at hlarge
    cases hlarge
  · rw [if_neg hnil] at hc
    by_cases hover : limit < ctx.dataheap.length ∨ limit - ctx.dataheap.length < data.length
    · rw [if_pos hover] at hc
      cases hc
      refine ⟨hrest, nofun, fun _ => ?_⟩
      rw [List.length_append, List.length_append]
      omega
    · rw [if_neg hover] at hc
      cases hc
      refine ⟨hrest, fun _ => ⟨?_, ?_⟩, nofun⟩
      · rw [List.append_assoc]
      · rw [List.length_append]
        omega

variable {cut : Bool}

/-- The worker goes on in the filter or the handler. -/
theorem Held.turn (h : σ.Held conf cut) {w : Worker} {ctx : ConnCtx} (hearly : σ.worker.early = true)
    (hearly' : w.early = true) (hmode : ctx.streaming = false) (hplain : w.rest.all Bucket.plain)
    (hfits : ctx.responseTooLarge = false →
      σ.passed = ctx.dataheap ++ brigadeBytes w.rest ∧ ctx.dataheap.length ≤ conf.limit)
    (hexceeds : ctx.responseTooLarge = true → conf.limit < σ.passed.length) :
    ({ σ with worker := w, ctx := ctx } : Request).Held conf cut := by
  have hquiet := h.quiet hearly
  refine ⟨hmode, hplain, hfits, hexceeds, fun _ => hquiet, fun _ => hquiet.2.2.1, fun hlate => ?_⟩
  change w.early = false at hlate
  rw [hearly'] at hlate
  cases hlate

theorem Held.capture (h : σ.Held conf cut) {pieces : List Piece} {bb : List Bucket}
    (hw : σ.worker = .filter (.data pieces :: bb)) {ctx : ConnCtx} {rest : List Bucket}
    (hc : captureBodyBucket conf.limit pieces σ.ctx = (ctx, rest)) :
    ({ σ with ctx := ctx, worker := .filter (rest ++ bb) } : Request).Held conf cut := by
  have hearly : σ.worker.early = true := by
    rw [hw]
    rfl
  have hmode : ctx.streaming = false := by
    have hsame := captureBodyBucket_streaming conf.limit pieces σ.ctx
    rw [hc, h.mode] at hsame
    exact hsame
  have hplain := h.plain
  rw [hw] at hplain
  cases hlarge : σ.ctx.responseTooLarge with
  | false =>
    obtain ⟨hpassed, hlen⟩ := h.fits hlarge
    rw [hw] at hpassed
    obtain ⟨hrest, hkept, hover⟩ := captureBodyBucket_held hplain hlarge hlen hc
    refine h.turn hearly rfl hmode hrest (fun hf => ?_) fun ho => ?_
    · obtain ⟨hbytes, hlen'⟩ := hkept hf
      exact ⟨hpassed.trans hbytes, hlen'⟩
    · rw [hpassed]
      exact hover ho
  | true =>
    -- the flag stays set and the rest of the bucket is left unread
    have hsame : captureBodyBucket conf.limit pieces σ.ctx = (σ.ctx, []) := if_pos hlarge
    rw [hc] at hsame
    cases hsame
    refine h.turn hearly rfl hmode (Bool.and_eq_true_iff.mp hplain).2 (fun hf => ?_) fun _ => h.exceeds hlarge
    rw [hlarge] at hf
    cases hf

/-- The call of append gets what was held; a response that cannot be submitted is not usable. -/
theorem Held.finish (h : σ.Held conf cut) (hw : σ.worker = .finishing) (accepted : Bool) :
    (σ.finish accepted).Held conf cut := by
  obtain ⟨hpassed, happended, hproducer, hsubmitted⟩ := h.quiet (by rw [hw]; rfl)
  have hfits := h.fits
  rw [hw] at hfits
  -- after the submission, with or without a body to append
  have hdone : ∀ q : Queue, (σ.ctx.heldBody = [] ∨ ((σ.setQueue q).usable = false)) →
      (finishDone (σ.setQueue q)).Held conf cut := by
    intro q hcase
    refine ⟨h.mode, rfl, hfits, h.exceeds, nofun, fun _ => hproducer, fun _ hu => ?_⟩
    have hnil : σ.ctx.heldBody = [] := hcase.resolve_right (by rw [show (σ.setQueue q).usable = _ from hu]; nofun)
    refine ⟨hpassed.trans hnil.symm, fun _ => ?_⟩
    change σ.core.appended ++ σ.core.pending = σ.core.passed
    rw [happended, hpassed, pending_idle hproducer]
    rfl
  have hcall : ∀ q : Queue, (callAppend σ.ctx.heldBody .finalAppend (σ.setQueue q)).Held conf cut := by
    intro q
    refine ⟨h.mode, rfl, hfits, h.exceeds, nofun, nofun, fun _ _ => ⟨?_, fun _ => ?_⟩⟩
    · change σ.core.passed ++ σ.ctx.heldBody = σ.ctx.heldBody
      rw [hpassed, List.nil_append]
    · rw [pending_callAppend]
      change σ.core.appended ++ σ.ctx.heldBody = σ.core.passed ++ σ.ctx.heldBody
      rw [happended, hpassed]
  unfold Request.finish Request.responseStart submitResponseNva
  rw [hsubmitted, if_neg Bool.false_ne_true]
  by_cases hgone : (σ.core.queue.responseCancelled || σ.core.flags.gone) = true
  · rw [if_pos hgone]
    exact hdone _ (.inr (usable_cancelled hgone))
  · rw [if_neg hgone]
    cases accepted with
    | false => exact hdone _ (.inr rfl)
    | true =>
      by_cases hnil : σ.ctx.heldBody = []
      · rw [if_pos hnil]
        exact hdone _ (.inl hnil)
      · rw [if_neg hnil]
        exact hcall _

/-- Outside the filter the worker's place matters to the queue only. -/
theorem Held.late (h : σ.Held conf cut) {core : Exchange} {w : Worker} {cut' : Bool}
    (hlate : σ.worker.early = false) (hlate' : w.early = false)
    (hidle : w.appends = false → core.producer = none)
    (hgiven : ({ σ with core := core, worker := w } : Request).usable → σ.usable ∧ core.passed = σ.core.passed ∧
      (cut' = false → cut = false ∧ core.appended ++ core.pending = σ.core.appended ++ σ.core.pending)) :
    ({ σ with core := core, worker := w } : Request).Held conf cut' := by
  have hrest : ∀ v : Worker, v.early = false → v.rest = [] := by
    intro v hv
    cases v <;> first | rfl | cases hv
  have hfits := h.fits
  rw [hrest _ hlate] at hfits
  refine ⟨h.mode, ?_, ?_, h.exceeds, fun he => ?_, hidle, fun _ hu => ?_⟩
  · rw [hrest w hlate']
    rfl
  · rw [hrest w hlate']
    exact hfits
  · rw [hlate'] at he
    cases he
  · obtain ⟨hold, hpassed, hqueue⟩ := hgiven hu
    obtain ⟨hgive, hall⟩ := h.given hlate hold
    refine ⟨hpassed.trans hgive, fun hcut => ?_⟩
    obtain ⟨hcut, hsame⟩ := hqueue hcut
    exact hsame.trans ((hall hcut).trans hpassed.symm)

/-- Append is called only after the handler. -/
theorem Held.worker_eq (h : σ.Held conf cut) (hp : σ.core.producer.isSome) : σ.worker = .finalAppend := by
  by_contra hne
  have hnone : σ.core.producer = none := by
    cases hearly : σ.worker.early with
    | true => exact (h.quiet hearly).2.2.1
    | false =>
      apply h.idle
      cases hw : σ.worker with
      | finalAppend => exact absurd hw hne
      | completing | finished => rfl
      | _ =>
        rw [hw] at hearly
        cases hearly
  rw [hnone] at hp
  cases hp

/-- A chunk moves from the call to the queue. -/
theorem Held.queued (h : σ.Held conf cut) {data : Bytes} {offset n : ℕ} {resume : Bool} {q : Queue}
    (hp : σ.core.producer = some (data, offset)) (hw : σ.worker = .finalAppend)
    (hc : q.responseCancelled = σ.core.queue.responseCancelled) :
    (σ.afterAppend data offset (.queued n resume, q)).Held conf cut := by
  have hworker : (σ.afterAppend data offset (.queued n resume, q)).worker =
      if (appendRest data (offset + n)).isNone then .completing else .finalAppend := by
    unfold Request.afterAppend
    rw [hw]
    rfl
  refine h.late (w := (σ.afterAppend data offset (.queued n resume, q)).worker) (by rw [hw]; rfl) ?_ ?_ fun hu => ?_
  · rw [hworker]
    split_ifs <;> rfl
  · intro hidle
    rw [hworker] at hidle
    split_ifs at hidle with hnone
    · exact Option.isNone_iff_eq_none.mp hnone
    · cases hidle
  · refine ⟨?_, rfl, fun hcut => ⟨hcut, @moved_queued _ _ _ n resume q hp⟩⟩
    change (!q.responseCancelled && !σ.core.flags.gone) = true at hu
    rw [hc] at hu
    exact hu

/-- One iteration of append. -/
theorem Held.append (h : σ.Held conf cut) {data : Bytes} {offset : ℕ} {malloc : Option Addr}
    {x : AppendStep × Queue} (hp : σ.core.producer = some (data, offset))
    (hx : h3StreamResponseAppend conf.sizeMax σ.core.flags data offset malloc σ.core.queue = some x) :
    (σ.afterAppend data offset x).Held conf cut := by
  have hw := h.worker_eq (by rw [hp]; rfl)
  have hlate : σ.worker.early = false := by
    rw [hw]
    rfl
  have hreturns : ∀ ok, (appendReturns ok σ.worker).early = false := by
    intro ok
    rw [hw]
    rfl
  -- append returns an error: the response is cancelled or the session gone
  have hfails : ∀ (q : Queue) (rv : AprStatus), (q.responseCancelled || σ.core.flags.gone) = true →
      (σ.afterAppend data offset (.returns rv, q)).Held conf cut := by
    intro q rv hgone
    refine h.late hlate (hreturns false) (fun _ => rfl) fun hu => ?_
    change (!q.responseCancelled && !σ.core.flags.gone) = true at hu
    rw [← Bool.not_or, hgone] at hu
    cases hu
  unfold h3StreamResponseAppend at hx
  split_ifs at hx with hwait hgone
  · cases hx
    exact h
  · cases hx
    exact hfails _ _ hgone
  · dsimp only at hx
    split_ifs at hx
    · cases hx
      exact hfails _ _ rfl
    · cases malloc with
      | none =>
        cases hx
        exact hfails _ _ rfl
      | some addr =>
        obtain ⟨q, hq, rfl⟩ := Option.map_eq_some_iff.mp hx
        obtain ⟨chunks, -, rfl⟩ := Option.map_eq_some_iff.mp hq
        exact h.queued hp hw rfl

/-- The event thread leaves the worker's side alone. -/
theorem Held.aside (h : σ.Held conf cut) {core : Exchange} {isOpen eof : Bool}
    (hpassed : core.passed = σ.core.passed) (happended : core.appended = σ.core.appended)
    (hproducer : core.producer = σ.core.producer)
    (hsubmitted : core.queue.responseSubmitted = σ.core.queue.responseSubmitted)
    (husable : ({ σ with core := core, isOpen := isOpen, eof := eof } : Request).usable → σ.usable) :
    ({ σ with core := core, isOpen := isOpen, eof := eof } : Request).Held conf cut := by
  have hpending : core.pending = σ.core.pending := by
    unfold Exchange.pending
    rw [hproducer]
  refine ⟨h.mode, h.plain, h.fits, h.exceeds, ?_, ?_, fun hlate hu => ?_⟩
  · rw [hpassed, happended, hproducer, hsubmitted]
    exact h.quiet
  · rw [hproducer]
    exact h.idle
  · rw [hpassed, happended, hpending]
    exact h.given hlate (husable hu)

theorem Held.completed (h : σ.Held conf cut) : σ.completed.Held conf cut := h.aside rfl rfl rfl rfl id

theorem Held.pass (h : σ.Held conf cut) (hw : σ.worker = .handler) {bb : List Bucket}
    (hplain : bb.all Bucket.plain) :
    ({ σ with worker := .filter bb, passed := σ.passed ++ brigadeBytes bb } : Request).Held conf cut := by
  have hquiet := h.quiet (by rw [hw]; rfl)
  have hfits := h.fits
  rw [hw] at hfits
  refine ⟨h.mode, hplain, fun hf => ?_, fun hlarge => ?_, fun _ => hquiet, fun _ => hquiet.2.2.1, nofun⟩
  · obtain ⟨hpassed, hlen⟩ := hfits hf
    refine ⟨?_, hlen⟩
    change σ.passed ++ _ = _
    rw [hpassed, List.append_assoc]
    rfl
  · have hover := h.exceeds hlarge
    change _ < (σ.passed ++ brigadeBytes bb).length
    rw [List.length_append]
    omega

theorem Held.skip (h : σ.Held conf cut) {b : Bucket} {bb : List Bucket} (hw : σ.worker = .filter (b :: bb))
    (hb : b.bytes = []) : (σ.filterNext bb).Held conf cut := by
  have hfits := h.fits
  have hplain := h.plain
  rw [hw] at hfits hplain
  refine h.turn (by rw [hw]; rfl) rfl h.mode (Bool.and_eq_true_iff.mp hplain).2 (fun hf => ?_) h.exceeds
  obtain ⟨hpassed, hlen⟩ := hfits hf
  refine ⟨hpassed.trans ?_, hlen⟩
  change _ ++ brigadeBytes (b :: bb) = _
  rw [brigadeBytes_cons, hb, List.nil_append]
  rfl

/-- A move to a place with the same rest of the brigade. -/
theorem Held.move (h : σ.Held conf cut) {w : Worker} (hearly : σ.worker.early = true) (hearly' : w.early = true)
    (hrest : w.rest = σ.worker.rest) : ({ σ with worker := w } : Request).Held conf cut := by
  have hplain := h.plain
  have hfits := h.fits
  rw [← hrest] at hplain hfits
  exact h.turn hearly hearly' h.mode hplain hfits h.exceeds

theorem Buffered.held (hb : Buffered conf σ a σ') (h : σ.Held conf cut) : σ'.Held conf (cut || cutsAppend a) := by
  have hkeep : cutsAppend a = false → σ'.Held conf cut → σ'.Held conf (cut || cutsAppend a) := by
    intro ha hheld
    rw [ha, Bool.or_false]
    exact hheld
  cases hb with
  | passed hw hplain => exact hkeep rfl (h.pass hw hplain)
  | skipped hw hb => exact hkeep rfl (h.skip hw hb)
  | captured hw => exact hkeep rfl (h.capture hw rfl)
  | filtered hw => exact hkeep rfl (h.move (by rw [hw]; rfl) rfl (by rw [hw]; rfl))
  | @eos bb hw =>
    have hw' : σ.completed.worker = .ending bb := hw
    exact hkeep rfl (h.completed.move (by rw [hw']; rfl) rfl (by rw [hw']; rfl))
  | ended hw => exact hkeep rfl (h.move (by rw [hw]; rfl) rfl (by rw [hw]; rfl))
  | responded hw => exact hkeep rfl (h.finish hw _)
  | completed hw =>
    have hw' : σ.completed.worker = .completing := hw
    have hidle : σ.completed.core.producer = none := h.completed.idle (by rw [hw']; rfl)
    exact hkeep rfl (h.completed.late (by rw [hw']; rfl) rfl (fun _ => hidle) fun hu => ⟨hu, rfl, fun hcut => ⟨hcut, rfl⟩⟩)
  | appended hp hx => exact hkeep rfl (h.append hp hx)
  | waitFailed hp =>
    have hw := h.worker_eq hp
    rw [show cutsAppend .waitFails = true from rfl, Bool.or_true]
    refine h.late (by rw [hw]; rfl) (by rw [hw]; rfl) (fun _ => rfl) fun hu => ⟨hu, rfl, nofun⟩
  | aside ha hpassed happended hproducer hsubmitted husable =>
    refine hkeep ?_ (h.aside hpassed happended hproducer hsubmitted husable)
    cases a <;> first | rfl | cases ha

end

end Request

end ModHttp3.Response
