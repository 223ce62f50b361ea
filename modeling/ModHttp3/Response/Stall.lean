import ModHttp3.Response.SameBody

/-! The stall check of a session over all its responses, with a clock: when each stream was
tracked, when its body bytes were acknowledged, and what the check may and must cancel. -/
namespace ModHttp3.Response
open Lib

/-- One round of the loop in `abandon_stalled_responses`. -/
def Request.abandonStalled (stallTimeout now : ℤ) (σ : Request) : Request :=
  let c := σ.core.queue.toResponseCtl
  if c.responseCancelled || c.responseComplete then σ
  else if c.responseBuffered < c.responseBufferLimit then σ
  else if now - c.responseProgressAt < stallTimeout then σ
  else σ.cancel

/-- A tracked stream. The last three fields only record what happened: when `track_stream` set it
up, when acknowledgements released body bytes, and whether its handler passed an EOS. -/
structure Watch where
  request : Request
  trackedAt : ℤ
  ackedAt : List ℤ
  ended : Bool

/-- `abandon_stalled_responses`; the rounds of its loop are independent of one another. -/
def abandonStalledResponses (stallTimeout now : ℤ) (streams : List Watch) : List Watch :=
  if stallTimeout ≤ 0 then streams
  else streams.map fun s => { s with request := s.request.abandonStalled stallTimeout now }

/-- The streams of a session and the time of the last action that read the clock. -/
structure Watching where
  clock : ℤ
  streams : List Watch

inductive WatchAct
  | track (streaming : Bool) (limit : ℕ) (flags : SessionFlags) (now : ℤ)
  | stream (i : ℕ) (a : RequestAction)
  | abandon (stallTimeout now : ℤ)

/-- The time an action on one stream reads. -/
def RequestAction.time? : RequestAction → Option ℤ
  | .ack now _ | .abandon _ now => some now
  | _ => none

/-- Whether the main request's handler has passed an EOS after the action. -/
def RequestAction.endedAfter (ended : Bool) : RequestAction → Bool
  | .pass true bb => ended || bb.contains .eos
  | _ => ended

/-- The stream after an action that leads to `σ`. -/
def Watch.note (s : Watch) (a : RequestAction) (σ : Request) : Watch :=
  { s with
    request := σ
    ackedAt := match a with
      | .ack now datalen => if datalen = 0 then s.ackedAt else now :: s.ackedAt
      | _ => s.ackedAt
    ended := a.endedAfter s.ended }

def Watching.step (conf : RequestConf) (w : Watching) : WatchAct → Option Watching
  | .track streaming limit flags now =>
    some ⟨now, w.streams ++ [⟨.start streaming limit now flags, now, [], false⟩]⟩
  | .stream i a => w.streams[i]?.bind fun s =>
    (s.request.step conf a).map fun σ => ⟨a.time?.getD w.clock, w.streams.set i (s.note a σ)⟩
  | .abandon stallTimeout now => some ⟨now, abandonStalledResponses stallTimeout now w.streams⟩

/-- No data follows an EOS, where `ended` tells whether one came before. -/
def endsOnce (ended : Bool) : List Bucket → Bool
  | [] => true
  | b :: bb => (!ended || b.bytes.isEmpty) && endsOnce (ended || b == .eos) bb

/-- The handler sends no data after EOS. -/
def Watch.inOrder (s : Watch) : RequestAction → Bool
  | .pass true bb => endsOnce s.ended bb
  | _ => true

/-- The clock does not run backwards and handlers send no data after EOS. -/
def Watching.steady (w : Watching) : WatchAct → Bool
  | .track _ _ _ now | .abandon _ now => decide (w.clock ≤ now)
  | .stream i a => a.time?.all (fun now => decide (w.clock ≤ now)) &&
    w.streams[i]?.all fun s => s.inOrder a

/-- The worker waits in `h3_stream_response_append`. -/
def Request.blocked (σ : Request) : Bool :=
  σ.core.producer.isSome && appendWaits σ.core.flags σ.core.queue.toResponseCtl

theorem endsOnce_true {bb : List Bucket} (h : endsOnce true bb = true) : brigadeBytes bb = [] := by
  induction bb with
  | nil => rfl
  | cons b bb ih =>
    simp only [endsOnce, Bool.not_true, Bool.false_or, Bool.true_or, Bool.and_eq_true,
      List.isEmpty_iff] at h
    have hrest := ih h.2
    simp only [brigadeBytes, List.flatMap_cons, h.1, List.nil_append]
    exact hrest

/-- After an EOS nothing but bytes matter, so a brigade without bytes is in order. -/
private theorem endsOnce_mono {bb : List Bucket} (h : endsOnce true bb = true) : endsOnce false bb = true := by
  induction bb with
  | nil => rfl
  | cons b bb ih =>
    simp only [endsOnce, Bool.not_true, Bool.false_or, Bool.true_or, Bool.and_eq_true] at h
    simp only [endsOnce, Bool.not_false, Bool.true_or, Bool.true_and, Bool.false_or]
    cases hb : b == .eos with
    | true => exact h.2
    | false => exact ih h.2

theorem endsOnce_of {ended : Bool} {bb : List Bucket} (h : endsOnce ended bb = true) :
    endsOnce false bb = true := by
  cases ended with
  | false => exact h
  | true => exact endsOnce_mono h

theorem eos_rest {b : Bucket} {bb : List Bucket} (h : endsOnce false (b :: bb) = true) :
    endsOnce false bb = true := by
  simp only [endsOnce, Bool.not_false, Bool.true_or, Bool.true_and, Bool.false_or] at h
  exact endsOnce_of h

namespace Request

section
variable {conf : RequestConf} {σ σ' : Request} {ended : Bool}

/-- The response ended with an EOS while streaming, and the rest of the brigade has no bytes. -/
def EndedBy (ended : Bool) (σ : Request) (w : Worker) : Prop :=
  ended = true ∧ brigadeBytes w.rest = [] ∧ σ.ctx.streaming = true

/-- A response that is complete and was not cancelled has no producer, and none will come. -/
structure Settled (ended : Bool) (σ : Request) : Prop where
  order : endsOnce false σ.worker.rest = true
  seen : .eos ∈ σ.worker.rest → ended = true
  ending : σ.worker.ends = true → σ.EndedBy ended σ.worker
  idle : σ.core.queue.responseComplete = true → σ.core.queue.responseCancelled = false →
    σ.core.producer = none
  complete : σ.core.queue.responseComplete = true → σ.core.queue.responseCancelled = false →
    σ.worker = .finished ∨ σ.EndedBy ended σ.worker
  fits : σ.ctx.streaming = true → σ.ctx.responseTooLarge = false
  resting : σ.worker.appends = false → σ.core.producer = none

theorem settled_start (streaming : Bool) (limit : ℕ) (now : ℤ) (flags : SessionFlags) :
    Settled false (.start streaming limit now flags) where
  order := rfl
  seen := nofun
  ending := nofun
  idle := nofun
  complete := nofun
  fits _ := rfl
  resting _ := rfl

/-- Steps that leave the worker where it is and complete the response only by cancelling it. -/
theorem Settled.event (h : Settled ended σ) (hworker : σ'.worker = σ.worker) (hctx : σ'.ctx = σ.ctx)
    (hproducer : σ'.core.producer = σ.core.producer)
    (hqueue : σ'.core.queue.responseCancelled = false → σ.core.queue.responseCancelled = false ∧
      σ'.core.queue.responseComplete = σ.core.queue.responseComplete) : Settled ended σ' where
  order := hworker ▸ h.order
  seen := hworker ▸ h.seen
  ending hends := by
    rw [EndedBy, hworker, hctx]
    exact h.ending (hworker ▸ hends)
  idle hcomplete hc := by
    obtain ⟨hc', heq⟩ := hqueue hc
    rw [hproducer]
    exact h.idle (heq ▸ hcomplete) hc'
  complete hcomplete hc := by
    obtain ⟨hc', heq⟩ := hqueue hc
    rw [EndedBy, hworker, hctx]
    exact h.complete (heq ▸ hcomplete) hc'
  fits := hctx ▸ h.fits
  resting := by
    rw [hproducer, hworker]
    exact h.resting

/-- A worker outside append moves on to a part of its brigade. -/
theorem Settled.work (h : Settled ended σ) (happ : σ.worker.appends = false)
    (hfin : σ.worker ≠ .finished) {w : Worker} {ctx : ConnCtx} (horder : endsOnce false w.rest = true)
    (hseen : .eos ∈ w.rest → ended = true)
    (hbytes : brigadeBytes σ.worker.rest = [] → brigadeBytes w.rest = [])
    (hends : w.ends = true → σ.EndedBy ended w) (hmode : ctx.streaming = σ.ctx.streaming)
    (hfits : ctx.streaming = true → ctx.responseTooLarge = false) :
    Settled ended { σ with worker := w, ctx := ctx } where
  order := horder
  seen := hseen
  ending hw := by
    obtain ⟨hend, hrest, hs⟩ := hends hw
    exact ⟨hend, hrest, hmode.trans hs⟩
  idle := h.idle
  complete hcomplete hc := by
    obtain ⟨hend, hrest, hs⟩ := (h.complete hcomplete hc).resolve_left hfin
    exact .inr ⟨hend, hbytes hrest, hmode.trans hs⟩
  fits := hfits
  resting _ := h.resting happ

/-- The worker leaves its brigade. -/
theorem Settled.leave (h : Settled ended σ) (happ : σ.worker.appends = false)
    (hfin : σ.worker ≠ .finished) {w : Worker} (hrest : w.rest = []) (hends : w.ends = false) :
    Settled ended { σ with worker := w } := by
  refine h.work happ hfin ?_ ?_ ?_ ?_ rfl h.fits
  · rw [hrest]
    rfl
  · rw [hrest]
    nofun
  · intro _
    rw [hrest]
    rfl
  · rw [hends]
    nofun

/-- The loop of the filter goes on behind the bucket `b`. -/
theorem Settled.next (h : Settled ended σ) {b : Bucket} {bb : List Bucket}
    (hw : σ.worker = .filter (b :: bb)) : Settled ended (σ.filterNext bb) := by
  have hrest : σ.worker.rest = b :: bb := by rw [hw]; rfl
  have horder := h.order
  have hseen := h.seen
  rw [hrest] at horder hseen
  refine h.work (by rw [hw]; rfl) (by rw [hw]; nofun) (eos_rest horder) ?_ ?_ nofun rfl h.fits
  · exact fun hmem => hseen (List.mem_cons_of_mem b hmem)
  · intro hbytes
    rw [hrest, brigadeBytes, List.flatMap_cons] at hbytes
    exact (List.append_eq_nil_iff.mp hbytes).2

/-- What APR leaves of a data bucket: nothing, or a data bucket with no more bytes. -/
private theorem aprBucketRead_rest (pieces : List Piece) :
    (aprBucketRead pieces).2 = [] ∨ ∃ more, (aprBucketRead pieces).2 = [.data more] ∧
      ((Bucket.data pieces).bytes = [] → (Bucket.data more).bytes = []) := by
  cases pieces with
  | nil => exact .inl rfl
  | cons piece rest =>
    simp only [aprBucketRead]
    split_ifs with hread hnil
    · exact .inl rfl
    · refine .inr ⟨rest, rfl, fun hbytes => ?_⟩
      simp only [Bucket.bytes, List.flatMap_cons] at hbytes
      exact (List.append_eq_nil_iff.mp hbytes).2
    · exact .inl rfl

private theorem aprBucketRead_ne_nil {pieces : List Piece} {x : UInt8} {xs : Bytes} {left : List Bucket}
    (h : aprBucketRead pieces = (some (x :: xs), left)) : (Bucket.data pieces).bytes ≠ [] := by
  cases pieces with
  | nil => cases h
  | cons piece rest =>
    simp only [aprBucketRead] at h
    split at h
    · simp only [Prod.mk.injEq, Option.some.injEq] at h
      simp [Bucket.bytes, h.1]
    · cases h

/-- The part of a brigade behind a data bucket, with what APR left of that bucket. -/
structure Remains (pieces : List Piece) (bb rest : List Bucket) : Prop where
  order : endsOnce false bb = true → endsOnce false rest = true
  seen : .eos ∈ rest → .eos ∈ bb
  bytes : brigadeBytes (.data pieces :: bb) = [] → brigadeBytes rest = []

theorem remains_append {pieces : List Piece} {left : List Bucket} (bb : List Bucket)
    (h : left = [] ∨ left = (aprBucketRead pieces).2) : Remains pieces bb (left ++ bb) := by
  have hnil : Remains pieces bb ([] ++ bb) := by
    refine ⟨id, id, fun hbytes => ?_⟩
    simp only [brigadeBytes, List.flatMap_cons] at hbytes
    exact (List.append_eq_nil_iff.mp hbytes).2
  rcases h with rfl | rfl
  · exact hnil
  rcases aprBucketRead_rest pieces with hrest | ⟨more, hrest, hmore⟩
  · rw [hrest]
    exact hnil
  · rw [hrest]
    refine ⟨fun horder => ?_, fun hmem => ?_, fun hbytes => ?_⟩
    · have hdata : (Bucket.data more == .eos) = false :=
        beq_eq_false_iff_ne.mpr fun heos => by cases heos
      simpa [endsOnce, hdata] using horder
    · simpa using hmem
    · simp only [brigadeBytes, List.flatMap_cons] at hbytes
      obtain ⟨hp, hb⟩ := List.append_eq_nil_iff.mp hbytes
      simp only [brigadeBytes, List.cons_append, List.nil_append, List.flatMap_cons, hmore hp, hb]

private theorem captureBodyBucket_left (limit : ℕ) (pieces : List Piece) (ctx : ConnCtx) :
    (captureBodyBucket limit pieces ctx).2 = [] ∨
      (captureBodyBucket limit pieces ctx).2 = (aprBucketRead pieces).2 := by
  cases hlarge : ctx.responseTooLarge with
  | false => exact .inr (captureBodyBucket_rest limit pieces hlarge)
  | true =>
    left
    rw [captureBodyBucket, hlarge, if_pos rfl]

theorem Settled.setQueue (h : Settled ended σ) {q : Queue}
    (hq : q.responseCancelled = false → σ.core.queue.responseCancelled = false ∧
      q.responseComplete = σ.core.queue.responseComplete) : Settled ended (σ.setQueue q) :=
  h.event rfl rfl rfl hq

private theorem submitResponseNva_settles (st : SessionFlags) (accepted : Bool) (r : Queue)
    (hc : (submitResponseNva st accepted r).2.responseCancelled = false) :
    r.responseCancelled = false ∧
      (submitResponseNva st accepted r).2.responseComplete = r.responseComplete := by
  unfold submitResponseNva at hc ⊢
  split_ifs at hc ⊢ with hsub hgone hacc
  · exact ⟨hc, rfl⟩
  · exact ⟨hc, rfl⟩
  · exact ⟨hc, rfl⟩
  · cases hc

/-- Both ways on from `h3_response_start` start from the same worker. -/
theorem Settled.responseStart (h : Settled ended σ) (accepted : Bool) {next failed : Request → Request}
    (hnext : ∀ q, Settled ended (σ.setQueue q) → Settled ended (next (σ.setQueue q)))
    (hfailed : ∀ q, Settled ended (σ.setQueue q) → Settled ended (failed (σ.setQueue q))) :
    Settled ended (σ.responseStart accepted next failed) := by
  have hset := h.setQueue (submitResponseNva_settles σ.core.flags accepted σ.core.queue)
  unfold Request.responseStart
  split
  · rename_i q hq
    rw [hq] at hset
    exact hnext q hset
  · rename_i q _ hq
    rw [hq] at hset
    exact hfailed q hset

/-- The worker enters append with the response still incomplete. -/
theorem Settled.callAppend (h : Settled ended σ)
    (hopen : σ.core.queue.responseComplete = true → σ.core.queue.responseCancelled = true)
    {data : Bytes} {w : Worker} (happ : w.appends = true) (horder : endsOnce false w.rest = true)
    (hseen : .eos ∈ w.rest → ended = true) : Settled ended (σ.callAppend data w) where
  order := horder
  seen := hseen
  ending hends := by
    have hfalse : w.ends = false := ends_of_appends happ
    rw [show w.ends = true from hends] at hfalse
    cases hfalse
  idle hcomplete hc := absurd (hopen hcomplete) (Bool.eq_false_iff.mp hc)
  complete hcomplete hc := absurd (hopen hcomplete) (Bool.eq_false_iff.mp hc)
  fits := h.fits
  resting hw := by
    rw [show w.appends = false from hw] at happ
    cases happ

/-- A worker in the filter is complete only without bytes left. -/
theorem Settled.open_of_bytes (h : Settled ended σ) (hfin : σ.worker ≠ .finished)
    (hbytes : brigadeBytes σ.worker.rest ≠ []) :
    σ.core.queue.responseComplete = true → σ.core.queue.responseCancelled = true := by
  intro hcomplete
  by_contra hc
  have hend := h.complete hcomplete (Bool.not_eq_true _ ▸ hc)
  exact hbytes (hend.resolve_left hfin).2.1

theorem Settled.streamBucket (h : Settled ended σ) {pieces : List Piece} {bb : List Bucket}
    (hw : σ.worker = .filter (.data pieces :: bb)) : Settled ended (σ.streamBucket pieces bb) := by
  have hrest : σ.worker.rest = .data pieces :: bb := by rw [hw]; rfl
  have happ : σ.worker.appends = false := by rw [hw]; rfl
  have hfin : σ.worker ≠ .finished := by rw [hw]; nofun
  have horder := h.order
  have hseen := h.seen
  rw [hrest] at horder hseen
  have hleft : ∀ data left, aprBucketRead pieces = (data, left) → Remains pieces bb (left ++ bb) :=
    fun data left hread => remains_append bb (.inr (by rw [hread]))
  unfold Request.streamBucket
  split
  · exact h.leave happ hfin rfl rfl
  · rename_i left hread
    have hrem := hleft _ _ hread
    refine h.work happ hfin (hrem.order (eos_rest horder)) ?_ ?_ nofun rfl h.fits
    · exact fun hmem => hseen (List.mem_cons_of_mem _ (hrem.seen hmem))
    · rw [hrest]
      exact hrem.bytes
  · rename_i x xs left hread
    have hrem := hleft _ _ hread
    refine h.callAppend (h.open_of_bytes hfin ?_) rfl (hrem.order (eos_rest horder)) ?_
    · -- The bytes read are bytes of the brigade, so the response cannot be complete.
      intro hbytes
      rw [hrest, brigadeBytes, List.flatMap_cons] at hbytes
      exact aprBucketRead_ne_nil hread (List.append_eq_nil_iff.mp hbytes).1
    · exact fun hmem => hseen (List.mem_cons_of_mem _ (hrem.seen hmem))

theorem Settled.filterBucket (h : Settled ended σ) {b : Bucket} {bb : List Bucket}
    (hw : σ.worker = .filter (b :: bb)) (accepted headerOnly : Bool) :
    Settled ended (σ.filterBucket conf accepted headerOnly b bb) := by
  have hrest : σ.worker.rest = b :: bb := by rw [hw]; rfl
  have happ : σ.worker.appends = false := by rw [hw]; rfl
  have hfin : σ.worker ≠ .finished := by rw [hw]; nofun
  have horder := h.order
  have hseen := h.seen
  rw [hrest] at horder hseen
  have hreturns : ∀ q, Settled ended (σ.setQueue q) → Settled ended (σ.setQueue q).filterReturns :=
    fun q hq => hq.leave happ hfin rfl rfl
  have hnext : ∀ q, Settled ended (σ.setQueue q) → Settled ended ((σ.setQueue q).filterNext bb) :=
    fun q hq => hq.next hw
  unfold Request.filterBucket
  cases b with
  | error => exact h.leave happ hfin rfl rfl
  | metadata => exact h.next hw
  | data pieces =>
    dsimp only
    split_ifs with hskip hstream
    · exact h.next hw
    · exact h.responseStart accepted (fun q hq => hq.streamBucket hw) hreturns
    · have hrem := remains_append bb (captureBodyBucket_left conf.limit pieces σ.ctx)
      have hmode := captureBodyBucket_streaming conf.limit pieces σ.ctx
      refine h.work happ hfin (hrem.order (eos_rest horder)) ?_ ?_ nofun hmode ?_
      · exact fun hmem => hseen (List.mem_cons_of_mem _ (hrem.seen hmem))
      · rw [hrest]
        exact hrem.bytes
      · intro hs
        exact absurd (hmode.symm.trans hs) hstream
  | eos =>
    dsimp only
    split_ifs with hstream
    · refine h.responseStart accepted (fun q hq => ?_) hreturns
      simp only [endsOnce, Bool.not_false, Bool.true_or, Bool.true_and, Bool.false_or, beq_self_eq_true]
        at horder
      have hnone := endsOnce_true horder
      refine hq.work happ hfin (endsOnce_of horder) ?_ (fun _ => hnone) (fun _ => ?_) rfl h.fits
      · exact fun hmem => hseen (List.mem_cons_of_mem _ hmem)
      · exact ⟨hseen List.mem_cons_self, hnone, hstream⟩
    · exact h.next hw
  | response | flush =>
    dsimp only
    split_ifs
    · exact h.responseStart accepted hnext hreturns
    · exact h.next hw

/-- When the handler is done, a response that is complete already holds nothing back. -/
theorem Settled.finish (h : Settled ended σ) (hw : σ.worker = .finishing) (accepted : Bool) :
    Settled ended (σ.finish accepted) := by
  have happ : σ.worker.appends = false := by rw [hw]; rfl
  have hfin : σ.worker ≠ .finished := by rw [hw]; nofun
  have hdone : ∀ q, Settled ended (σ.setQueue q) → Settled ended (σ.setQueue q).finishDone :=
    fun q hq => hq.leave happ hfin rfl rfl
  refine h.responseStart accepted (fun q hq => ?_) hdone
  split_ifs with hheld
  · exact hdone q hq
  · refine hq.callAppend (fun hcomplete => ?_) rfl rfl nofun
    by_contra hc
    obtain ⟨-, -, hstream⟩ := (hq.complete hcomplete (Bool.not_eq_true _ ▸ hc)).resolve_left hfin
    have hfits := hq.fits hstream
    change σ.ctx.streaming = true at hstream
    change σ.ctx.responseTooLarge = false at hfits
    simp [ConnCtx.heldBody, hstream, hfits] at hheld

private theorem appendReturns_rest (ok : Bool) {w : Worker} (hw : w.appends = true) :
    (appendReturns ok w).rest = w.rest ∨ (appendReturns ok w).rest = [] := by
  cases w with
  | appending bb => cases ok <;> simp [appendReturns, Worker.rest]
  | finalAppend => exact .inr rfl
  | _ => cases hw

/-- Append returns to a worker whose response is not complete. -/
theorem Settled.appendDone (h : Settled ended σ) (happ : σ.worker.appends = true) (ok : Bool)
    {core : Exchange} (hidle : core.producer = none)
    (hopen : core.queue.responseComplete = true → core.queue.responseCancelled = true) :
    Settled ended { σ with core := core, worker := appendReturns ok σ.worker } := by
  have hleft := appendReturns_rest ok happ
  have hends : (appendReturns ok σ.worker).ends = false := by
    cases hw : σ.worker with
    | appending bb => cases ok <;> rfl
    | finalAppend => rfl
    | _ =>
      rw [hw] at happ
      cases happ
  refine ⟨?_, ?_, ?_, fun _ _ => hidle, ?_, h.fits, fun _ => hidle⟩
  · rcases hleft with hrest | hrest
    · exact (congrArg (endsOnce false) hrest).trans h.order
    · exact congrArg (endsOnce false) hrest
  · intro hmem
    rcases hleft with hrest | hrest
    · exact h.seen (hrest ▸ hmem)
    · rw [show (appendReturns ok σ.worker).rest = [] from hrest] at hmem
      cases hmem
  · intro hw
    rw [show (appendReturns ok σ.worker).ends = true from hw] at hends
    cases hends
  · exact fun hcomplete hc => absurd (hopen hcomplete) (Bool.eq_false_iff.mp hc)

theorem Settled.appending (h : Settled ended σ) {p : Bytes × ℕ} (hp : σ.core.producer = some p) :
    σ.worker.appends = true := by
  by_contra hw
  rw [h.resting (Bool.not_eq_true _ ▸ hw)] at hp
  cases hp

/-- While a call of append is in progress the response can only be complete by being cancelled. -/
theorem Settled.open_of_producer (h : Settled ended σ) {p : Bytes × ℕ}
    (hp : σ.core.producer = some p) :
    σ.core.queue.responseComplete = true → σ.core.queue.responseCancelled = true := by
  intro hcomplete
  by_contra hc
  rw [h.idle hcomplete (Bool.not_eq_true _ ▸ hc)] at hp
  cases hp

theorem Settled.append (h : Settled ended σ) {data : Bytes} {offset : ℕ} {b : Transfer UInt8}
    (hp : σ.core.producer = some (data, offset)) {x : AppendStep × Queue}
    (hspec : AppendSpec σ.core.flags data offset σ.core.queue b x) :
    Settled ended (σ.afterAppend data offset x) := by
  have happ := h.appending hp
  have hopen := h.open_of_producer hp
  cases hspec with
  | waits _ => exact h
  | refused _ => exact h.appendDone happ false rfl hopen
  | cancels rv => exact h.appendDone happ false rfl fun _ => rfl
  | queued n q hc hg hn hlen himp hctl =>
    have hopen' : q.responseComplete = true → q.responseCancelled = true := by
      rw [hctl]
      exact hopen
    simp only [Request.afterAppend]
    split_ifs with hnone
    · exact h.appendDone happ true (Option.isNone_iff_eq_none.mp hnone) hopen'
    · refine ⟨h.order, h.seen, h.ending, ?_, ?_, h.fits, fun hw => ?_⟩
      · exact fun hcomplete hc' => absurd (hopen' hcomplete) (Bool.eq_false_iff.mp hc')
      · exact fun hcomplete hc' => absurd (hopen' hcomplete) (Bool.eq_false_iff.mp hc')
      · exact absurd happ (Bool.eq_false_iff.mp hw)

/-- The EOS completes a response whose brigade has no bytes left. -/
theorem Settled.endOfStream (h : Settled ended σ) {bb : List Bucket} (hw : σ.worker = .ending bb) :
    Settled ended (σ.completed.filterNext bb) := by
  have hrest : σ.worker.rest = bb := by rw [hw]; rfl
  obtain ⟨hend, hbytes, hstream⟩ := h.ending (by rw [hw]; rfl)
  have hnone := h.resting (by rw [hw]; rfl)
  have horder := h.order
  have hseen := h.seen
  rw [hrest] at horder hseen hbytes
  exact ⟨horder, hseen, nofun, fun _ _ => hnone, fun _ _ => .inr ⟨hend, hbytes, hstream⟩, h.fits,
    fun _ => hnone⟩

theorem Settled.finished (h : Settled ended σ) (hw : σ.worker = .completing) :
    Settled ended { σ.completed with worker := .finished } := by
  have hnone := h.resting (by rw [hw]; rfl)
  exact ⟨rfl, nofun, nofun, fun _ _ => hnone, fun _ _ => .inl rfl, h.fits, fun _ => hnone⟩

/-- The handler passes a brigade of the main request, with no data after EOS. -/
theorem Settled.pass (h : Settled ended σ) (hw : σ.worker = .handler) {bb : List Bucket}
    (horder : endsOnce ended bb = true) :
    Settled (ended || bb.contains .eos)
      { σ with worker := .filter bb, passed := σ.passed ++ brigadeBytes bb } := by
  have hnone := h.resting (by rw [hw]; rfl)
  refine ⟨endsOnce_of horder, fun hmem => ?_, nofun, h.idle, fun hcomplete hc => ?_, h.fits, fun _ => hnone⟩
  · change .eos ∈ bb at hmem
    simp [hmem]
  · right
    obtain ⟨hend, -, hstream⟩ := (h.complete hcomplete hc).resolve_left (by rw [hw]; nofun)
    rw [hend] at horder
    exact ⟨by rw [hend]; rfl, endsOnce_true horder, hstream⟩

theorem Settled.cancel (h : Settled ended σ) : Settled ended σ.cancel := h.setQueue nofun

/-- What every step but an acknowledgement leaves alone. -/
structure Calm (core core' : Exchange) : Prop where
  transferred : core.Transferred → core'.Transferred
  progress : core'.queue.responseProgressAt = core.queue.responseProgressAt

theorem Calm.trans {c c' c'' : Exchange} (h : Calm c c') (h' : Calm c' c'') : Calm c c'' :=
  ⟨fun ht => h'.transferred (h.transferred ht), h'.progress.trans h.progress⟩

/-- The queue is the same up to the flags of the response. -/
theorem calm_of_queue {c c' : Exchange} (himp : ∀ b, Implements c.queue b → Implements c'.queue b)
    (hprogress : c'.queue.responseProgressAt = c.queue.responseProgressAt)
    (hrecord : c'.appended = c.appended ∧ c'.handed = c.handed ∧ c'.acked = c.acked) : Calm c c' := by
  refine ⟨?_, hprogress⟩
  rintro ⟨b, hb, hprod, hhand, hack⟩
  obtain ⟨happended, hhanded, hacked⟩ := hrecord
  exact ⟨b, himp b hb, hprod.trans happended.symm, hhand.trans hhanded.symm, hack.trans hacked.symm⟩

theorem calm_cancel (σ : Request) : Calm σ.core σ.cancel.core :=
  calm_of_queue (fun _ => implements_cancel) rfl ⟨rfl, rfl, rfl⟩

theorem calm_completed (σ : Request) : Calm σ.core σ.completed.core :=
  calm_of_queue (fun _ hb => implements_complete hb σ.core.flags) rfl ⟨rfl, rfl, rfl⟩

theorem calm_responseStart (accepted : Bool) {next failed : Request → Request}
    (hnext : ∀ τ : Request, Calm τ.core (next τ).core)
    (hfailed : ∀ τ : Request, Calm τ.core (failed τ).core) :
    Calm σ.core (σ.responseStart accepted next failed).core := by
  have hset : Calm σ.core (σ.setQueue (submitResponseNva σ.core.flags accepted σ.core.queue).2).core := by
    unfold submitResponseNva
    split_ifs
    · exact ⟨id, rfl⟩
    · exact ⟨id, rfl⟩
    · exact calm_of_queue (fun _ => implements_submitted) rfl ⟨rfl, rfl, rfl⟩
    · exact calm_cancel σ
  unfold Request.responseStart
  split
  · rename_i q hq
    rw [hq] at hset
    exact hset.trans (hnext _)
  · rename_i q _ hq
    rw [hq] at hset
    exact hset.trans (hfailed _)

private theorem calm_filterBucket (conf : RequestConf) (accepted headerOnly : Bool) (b : Bucket)
    (bb : List Bucket) (σ : Request) :
    Calm σ.core (σ.filterBucket conf accepted headerOnly b bb).core := by
  have hsame : ∀ τ : Request, Calm τ.core τ.core := fun _ => ⟨id, rfl⟩
  unfold Request.filterBucket
  cases b with
  | error => exact ⟨id, rfl⟩
  | metadata => exact ⟨id, rfl⟩
  | data pieces =>
    dsimp only
    split_ifs
    · exact ⟨id, rfl⟩
    · refine calm_responseStart accepted (fun τ => ?_) hsame
      unfold Request.streamBucket
      split
      · exact ⟨id, rfl⟩
      · exact ⟨id, rfl⟩
      · exact ⟨id, rfl⟩
    · exact ⟨id, rfl⟩
  | _ =>
    dsimp only
    split_ifs
    · exact calm_responseStart accepted hsame hsame
    · exact ⟨id, rfl⟩

private theorem calm_finish (accepted : Bool) (σ : Request) : Calm σ.core (σ.finish accepted).core := by
  refine calm_responseStart accepted (fun τ => ?_) fun _ => ⟨id, rfl⟩
  split_ifs
  · exact ⟨id, rfl⟩
  · exact ⟨id, rfl⟩

private theorem calm_append {data : Bytes} {offset : ℕ} {x : AppendStep × Queue}
    {b : Transfer UInt8} (hspec : AppendSpec σ.core.flags data offset σ.core.queue b x)
    (htransfer : (σ.core.afterAppend data offset x).Transferred) :
    Calm σ.core (σ.afterAppend data offset x).core := by
  cases hspec with
  | waits _ => exact ⟨fun _ => htransfer, rfl⟩
  | refused _ => exact ⟨fun _ => htransfer, rfl⟩
  | cancels rv => exact ⟨fun _ => htransfer, rfl⟩
  | queued n q hc hg hn hlen himp hctl =>
    have hprogress : q.responseProgressAt = σ.core.queue.responseProgressAt := by rw [hctl]
    exact ⟨fun _ => htransfer, hprogress⟩

/-- An enabled step that is no acknowledgement and, if it passes a brigade, passes it in order. -/
theorem Settled.step (h : Settled ended σ) (ht : σ.core.Transferred) {a : RequestAction}
    (hs : σ.step conf a = some σ') (hack : ∀ now datalen, a ≠ .ack now datalen)
    (horder : ∀ bb, a = .pass true bb → endsOnce ended bb = true) :
    Calm σ.core σ'.core ∧ Settled (a.endedAfter ended) σ' := by
  cases step_move hs with
  | @passed mainRequest bb hw =>
    refine ⟨⟨id, rfl⟩, ?_⟩
    cases mainRequest with
    | true => exact h.pass hw (horder bb rfl)
    | false => exact h.event hw.symm rfl rfl fun hc => ⟨hc, rfl⟩
  | bucket hw => exact ⟨calm_filterBucket conf _ _ _ _ σ, h.filterBucket hw _ _⟩
  | filtered hw => exact ⟨⟨id, rfl⟩, h.leave (by rw [hw]; rfl) (by rw [hw]; nofun) rfl rfl⟩
  | @append malloc data offset x hp hm hx =>
    obtain ⟨x', b, hx', hspec, htransfer⟩ := ht.append conf.sizeMax data offset hm
    cases hx.symm.trans hx'
    exact ⟨calm_append hspec htransfer, h.append hp hspec⟩
  | waitFails hp => exact ⟨⟨id, rfl⟩, h.appendDone (h.appending hp) false rfl (h.open_of_producer hp)⟩
  | endOfStream hw => exact ⟨calm_completed σ, h.endOfStream hw⟩
  | endHandler hw => exact ⟨⟨id, rfl⟩, h.leave (by rw [hw]; rfl) (by rw [hw]; nofun) rfl rfl⟩
  | respond hw => exact ⟨calm_finish _ σ, h.finish hw _⟩
  | complete hw => exact ⟨calm_completed σ, h.finished hw⟩
  | @read veccnt x hserving hsub hv hx =>
    obtain ⟨x', hx', htransfer, hctl⟩ := ht.read hv
    cases hx.symm.trans hx'
    refine ⟨⟨fun _ => htransfer, ?_⟩, h.event rfl rfl ?_ ?_⟩
    · exact congrArg ResponseCtl.responseProgressAt hctl
    · obtain ⟨answer, q⟩ := x
      cases answer <;> rfl
    · intro hc
      have hflags : (σ.afterRead x).core.queue.toResponseCtl = σ.core.queue.toResponseCtl := hctl
      rw [hflags] at hc ⊢
      exact ⟨hc, rfl⟩
  | ack => exact absurd rfl (hack _ _)
  | abandoned | stopSending | resetStream => exact ⟨calm_cancel σ, h.cancel⟩
  | waited => exact ⟨⟨id, rfl⟩, h⟩
  | streamClose => exact ⟨calm_cancel σ, h.cancel.event rfl rfl rfl fun hc => ⟨hc, rfl⟩⟩
  | abort | dead => exact ⟨⟨id, rfl⟩, h.event rfl rfl rfl fun hc => ⟨hc, rfl⟩⟩

end

end Request

/-- The progress time of a stream is the latest of the times recorded for it. -/
structure Watch.Tracked (clock : ℤ) (s : Watch) : Prop where
  transferred : s.request.core.Transferred
  settled : s.request.Settled s.ended
  progress : s.request.core.queue.responseProgressAt ∈ s.trackedAt :: s.ackedAt
  latest : ∀ t ∈ s.trackedAt :: s.ackedAt, t ≤ s.request.core.queue.responseProgressAt
  past : s.request.core.queue.responseProgressAt ≤ clock

section
variable {conf : RequestConf} {clock clock' : ℤ} {s : Watch} {σ : Request}

theorem Watch.tracked_start (streaming : Bool) (limit : ℕ) (flags : SessionFlags) (now : ℤ) :
    Watch.Tracked now ⟨.start streaming limit now flags, now, [], false⟩ where
  transferred := (inv_start limit now flags).transfer
  settled := Request.settled_start streaming limit now flags
  progress := List.mem_singleton.mpr rfl
  latest t ht := by
    rw [List.mem_singleton.mp ht]
    exact Int.le_refl now
  past := Int.le_refl now

theorem Watch.Tracked.later (h : s.Tracked clock) (hle : clock ≤ clock') : s.Tracked clock' :=
  ⟨h.transferred, h.settled, h.progress, h.latest, Int.le_trans h.past hle⟩

theorem Watch.Tracked.calm (h : s.Tracked clock) {ended : Bool}
    (hcalm : Request.Calm s.request.core σ.core) (hsettled : σ.Settled ended) :
    Watch.Tracked clock { s with request := σ, ended := ended } where
  transferred := hcalm.transferred h.transferred
  settled := hsettled
  progress := by
    rw [hcalm.progress]
    exact h.progress
  latest := by
    rw [hcalm.progress]
    exact h.latest
  past := by
    rw [hcalm.progress]
    exact h.past

/-- An acknowledgement of body bytes moves the progress time to the present. -/
theorem Watch.Tracked.ack (h : s.Tracked clock) {now : ℤ} {datalen : ℕ} (hle : clock ≤ now)
    (hn : s.request.core.acked + datalen ≤ s.request.core.handed.length) {q : Queue}
    (hq : h3StreamResponseAckLocked now datalen s.request.core.queue = some q) :
    (s.note (.ack now datalen) { s.request with
      core := { s.request.core with queue := q, acked := s.request.core.acked + datalen } }).Tracked now := by
  obtain ⟨q', hq', htransfer, hctl⟩ := h.transferred.ack now hn
  cases hq.symm.trans hq'
  obtain ⟨-, hcancelled, hcomplete⟩ := ackLocked_flags now datalen s.request.core.queue.toResponseCtl
  rw [← hctl] at hcancelled hcomplete
  have hsettled : Request.Settled s.ended { s.request with
      core := { s.request.core with queue := q, acked := s.request.core.acked + datalen } } :=
    h.settled.event rfl rfl rfl fun hc => ⟨hcancelled ▸ hc, hcomplete⟩
  have hpast := h.past
  have hlatest := h.latest
  by_cases hzero : datalen = 0
  · subst hzero
    have hsame : q.responseProgressAt = s.request.core.queue.responseProgressAt := by
      rw [hctl, ResponseCtl.ackLocked, if_pos rfl]
    refine ⟨htransfer, hsettled, ?_, fun t ht => ?_, ?_⟩
    · change q.responseProgressAt ∈ s.trackedAt :: s.ackedAt
      rw [hsame]
      exact h.progress
    · change t ≤ q.responseProgressAt
      rw [hsame]
      exact hlatest t ht
    · change q.responseProgressAt ≤ now
      omega
  · have hnow : q.responseProgressAt = now := by
      rw [hctl, ResponseCtl.ackLocked, if_neg hzero]
    have hacked : ∀ τ, (s.note (.ack now datalen) τ).ackedAt = now :: s.ackedAt := fun _ => if_neg hzero
    refine ⟨htransfer, hsettled, ?_, fun t ht => ?_, Int.le_of_eq hnow⟩
    · change q.responseProgressAt ∈ s.trackedAt :: (s.note (.ack now datalen) _).ackedAt
      rw [hacked, hnow]
      simp
    · change t ∈ s.trackedAt :: (s.note (.ack now datalen) _).ackedAt at ht
      change t ≤ q.responseProgressAt
      rw [hacked] at ht
      rw [hnow]
      have hold : t = now ∨ t ∈ s.trackedAt :: s.ackedAt := by
        simp only [List.mem_cons] at ht ⊢
        tauto
      rcases hold with rfl | hmem
      · exact Int.le_refl t
      · have hle' := hlatest t hmem
        omega

theorem Watch.Tracked.step (h : s.Tracked clock) {a : RequestAction}
    (htime : ∀ now ∈ a.time?, clock ≤ now) (horder : s.inOrder a = true)
    (hs : s.request.step conf a = some σ) : (s.note a σ).Tracked (a.time?.getD clock) := by
  have hpass : ∀ bb, a = .pass true bb → endsOnce s.ended bb = true := by
    rintro bb rfl
    exact horder
  cases a with
  | ack now datalen =>
    cases Request.step_move hs with
    | ack hn hq => exact h.ack (htime now rfl) hn hq
  | abandon stallTimeout now =>
    obtain ⟨hcalm, hsettled⟩ := h.settled.step h.transferred hs nofun hpass
    exact (h.calm hcalm hsettled).later (htime now rfl)
  | _ =>
    obtain ⟨hcalm, hsettled⟩ := h.settled.step h.transferred hs nofun hpass
    exact h.calm hcalm hsettled

/-- The round of the loop is the test on the counters of the stream. -/
theorem Request.abandonStalled_eq {stallTimeout : ℤ} (hT : 0 < stallTimeout) (now : ℤ) (σ : Request) :
    σ.abandonStalled stallTimeout now =
      if responseStalled stallTimeout now σ.core.queue.toResponseCtl then σ.cancel else σ := by
  have hiff : responseStalled stallTimeout now σ.core.queue.toResponseCtl = true ↔
      ¬((σ.core.queue.responseCancelled || σ.core.queue.responseComplete) = true) ∧
        ¬(σ.core.queue.responseBuffered < σ.core.queue.responseBufferLimit) ∧
        ¬(now - σ.core.queue.responseProgressAt < stallTimeout) := by
    simp only [responseStalled, Bool.and_eq_true, decide_eq_true_eq, Bool.not_eq_true', Bool.or_eq_true,
      not_or, Bool.not_eq_true, Nat.not_lt, Int.not_lt]
    tauto
  unfold Request.abandonStalled
  dsimp only
  split_ifs with hstalled h₁ h₂ h₃ <;> first | rfl | skip
  all_goals tauto

theorem Watch.Tracked.abandon (h : s.Tracked clock) {now : ℤ} (hle : clock ≤ now) (stallTimeout : ℤ) :
    Watch.Tracked now { s with request := s.request.abandonStalled stallTimeout now } := by
  have hcancel := h.calm (Request.calm_cancel s.request) h.settled.cancel
  unfold Request.abandonStalled
  dsimp only
  split_ifs
  · exact h.later hle
  · exact h.later hle
  · exact h.later hle
  · exact hcancel.later hle

end

theorem Watching.tracked_step {conf : RequestConf} {w w' : Watching} {act : WatchAct}
    (h : ∀ s ∈ w.streams, s.Tracked w.clock) (hok : w.steady act = true)
    (hs : w.step conf act = some w') : ∀ s ∈ w'.streams, s.Tracked w'.clock := by
  cases act with
  | track streaming limit flags now =>
    have hle : w.clock ≤ now := of_decide_eq_true hok
    cases hs
    intro s hmem
    rcases List.mem_append.mp hmem with hold | hnew
    · exact (h s hold).later hle
    · rw [List.mem_singleton.mp hnew]
      exact Watch.tracked_start streaming limit flags now
  | stream i a =>
    obtain ⟨s, hs', hstep⟩ := Option.bind_eq_some_iff.mp hs
    obtain ⟨σ, hσ, rfl⟩ := Option.map_eq_some_iff.mp hstep
    simp only [Watching.steady, hs', Option.all_some, Bool.and_eq_true, Option.all_eq_true,
      decide_eq_true_eq] at hok
    have hlater : w.clock ≤ a.time?.getD w.clock := by
      cases htime : a.time? with
      | none => exact Int.le_refl w.clock
      | some now => exact hok.1 now htime
    have htracked := h s (List.mem_of_getElem? hs')
    intro t hmem
    rcases List.mem_or_eq_of_mem_set hmem with hold | rfl
    · exact (h t hold).later hlater
    · exact htracked.step hok.1 hok.2 hσ
  | abandon stallTimeout now =>
    have hle : w.clock ≤ now := of_decide_eq_true hok
    cases hs
    intro s hmem
    change s ∈ abandonStalledResponses stallTimeout now w.streams at hmem
    unfold abandonStalledResponses at hmem
    split_ifs at hmem
    · exact (h s hmem).later hle
    · obtain ⟨t, ht, rfl⟩ := List.mem_map.mp hmem
      exact (h t ht).abandon hle stallTimeout

theorem Watching.tracked_reach {conf : RequestConf} {init : ℤ} {w : Watching}
    (h : Reach (Watching.step conf) (fun w act => w.steady act = true) ⟨init, []⟩ w) :
    ∀ s ∈ w.streams, s.Tracked w.clock := by
  refine h.invariant (I := fun w => ∀ s ∈ w.streams, s.Tracked w.clock) ?_ ?_
  · exact fun _ hmem => absurd hmem List.not_mem_nil
  · exact fun w act w' hw hok hs => Watching.tracked_step hw hok hs

/-- A queue never holds more than its limit. -/
theorem Watch.Tracked.bounded {clock : ℤ} {s : Watch} (h : s.Tracked clock) :
    s.request.core.queue.responseBuffered ≤ s.request.core.queue.responseBufferLimit := by
  obtain ⟨b, ⟨gone, cells, k, href⟩, -⟩ := h.transferred
  exact href.bounded

/-- Whenever the stall check runs, it cancels only a response whose queue is full and of which no
body byte was acknowledged within the timeout. It leaves one that advanced within the timeout as it
is, and cancels one whose worker is blocked in append when neither its tracking nor any
acknowledgement is younger than the timeout. -/
theorem stall_detection_exact {conf : RequestConf} {init : ℤ} {w : Watching}
    (hreach : Reach (Watching.step conf) (fun w act => w.steady act = true) ⟨init, []⟩ w)
    {stallTimeout now : ℤ} (hT : 0 < stallTimeout) {i : ℕ} {s : Watch} (hs : w.streams[i]? = some s) :
    ∃ s', (abandonStalledResponses stallTimeout now w.streams)[i]? = some s' ∧
      (s.request.core.queue.responseCancelled = false → s'.request.core.queue.responseCancelled = true →
        s.request.core.queue.responseBuffered = s.request.core.queue.responseBufferLimit ∧
          ¬∃ t ∈ s.ackedAt, now - t < stallTimeout) ∧
      ((∃ t ∈ s.ackedAt, now - t < stallTimeout) → s' = s) ∧
      (s.request.blocked = true → (∀ t ∈ s.trackedAt :: s.ackedAt, stallTimeout ≤ now - t) →
        s'.request.core.queue.responseCancelled = true) := by
  have htracked := Watching.tracked_reach hreach s (List.mem_of_getElem? hs)
  have hbounded := htracked.bounded
  -- Every acknowledgement is at most as late as the progress time.
  have hyoung : (∃ t ∈ s.ackedAt, now - t < stallTimeout) →
      now - s.request.core.queue.responseProgressAt < stallTimeout := by
    rintro ⟨t, ht, hlt⟩
    have hle := htracked.latest t (List.mem_cons_of_mem _ ht)
    omega
  have hcall : (abandonStalledResponses stallTimeout now w.streams)[i]? =
      some { s with request := s.request.abandonStalled stallTimeout now } := by
    rw [abandonStalledResponses, if_neg (by omega), List.getElem?_map, hs]
    rfl
  refine ⟨_, hcall, ?_, ?_, ?_⟩
  · intro hc hcancelled
    change (s.request.abandonStalled stallTimeout now).core.queue.responseCancelled = true at hcancelled
    rw [Request.abandonStalled_eq hT] at hcancelled
    split_ifs at hcancelled with hstalled
    · simp only [responseStalled, Bool.and_eq_true, decide_eq_true_eq] at hstalled
      obtain ⟨⟨-, hfull⟩, hold⟩ := hstalled
      refine ⟨by omega, fun hyoung' => ?_⟩
      have hlt := hyoung hyoung'
      omega
    · rw [hc] at hcancelled
      cases hcancelled
  · intro hadvanced
    have hlt := hyoung hadvanced
    have hnot : responseStalled stallTimeout now s.request.core.queue.toResponseCtl = false := by
      rw [responseStalled, Bool.and_eq_false_iff]
      right
      simpa using hlt
    rw [Request.abandonStalled_eq hT, hnot, if_neg Bool.false_ne_true]
  · intro hblocked hold
    simp only [Request.blocked, appendWaits, Bool.and_eq_true, Option.isSome_iff_exists,
      decide_eq_true_eq, Bool.not_eq_true'] at hblocked
    obtain ⟨⟨p, hp⟩, ⟨⟨hfull, hc⟩, -⟩, -⟩ := hblocked
    have hincomplete : s.request.core.queue.responseComplete = false := by
      by_contra hcomplete
      have hcancelled := htracked.settled.open_of_producer hp (Bool.not_eq_false _ ▸ hcomplete)
      rw [hc] at hcancelled
      cases hcancelled
    have hage := hold _ htracked.progress
    have hstalled : responseStalled stallTimeout now s.request.core.queue.toResponseCtl = true := by
      simp [responseStalled, hT, hc, hincomplete, hfull, hage]
    change (s.request.abandonStalled stallTimeout now).core.queue.responseCancelled = true
    rw [Request.abandonStalled_eq hT, if_pos hstalled]
    rfl

/-- A response fills its queue, is acknowledged at time 5 and fills the queue again. -/
def stalledRun : List WatchAct :=
  [.track true 2 ⟨false, false, true⟩ 0, .stream 0 (.pass true [.data [⟨[1, 2, 3, 4, 5], true⟩]]),
    .stream 0 (.bucket true false), .stream 0 (.append (some 7)), .stream 0 (.read 4),
    .stream 0 (.ack 5 2), .stream 0 (.append (some 8))]

theorem stall_detection_exact_full_queue :
    ∃ w s, runChecked (Watching.step ⟨1000, true, 1000⟩) (fun w act => w.steady act = true) ⟨0, []⟩
        stalledRun = some w ∧ w.streams[0]? = some s ∧ s.ackedAt = [5] ∧
      (abandonStalledResponses 10 14 w.streams)[0]? = some s ∧
      ∃ s', (abandonStalledResponses 10 15 w.streams)[0]? = some s' ∧
        s'.request.core.queue.responseCancelled = true := by
  have hrun : (runChecked (Watching.step ⟨1000, true, 1000⟩) (fun w act => w.steady act = true) ⟨0, []⟩
      stalledRun).map (fun w => w.streams.map fun s => (s.request.blocked, s.trackedAt, s.ackedAt)) =
        some [(true, 0, [5])] := by
    decide +kernel
  obtain ⟨w, hw, hstreams⟩ := Option.map_eq_some_iff.mp hrun
  obtain ⟨s, hs⟩ : ∃ s, w.streams = [s] := by
    refine List.length_eq_one_iff.mp ?_
    rw [← List.length_map, hstreams]
    rfl
  rw [hs, List.map_singleton, List.cons.injEq, Prod.mk.injEq, Prod.mk.injEq] at hstreams
  obtain ⟨⟨hblocked, htracked, hacked⟩, -⟩ := hstreams
  have hreach := Reach.of_runChecked _ hw
  have hfirst : w.streams[0]? = some s := by rw [hs]; rfl
  have hten : (0 : ℤ) < 10 := by decide
  obtain ⟨s₁, hs₁, -, hkeeps, -⟩ :
      ∃ s', (abandonStalledResponses 10 14 w.streams)[0]? = some s' ∧ _ :=
    stall_detection_exact hreach hten hfirst
  obtain ⟨s₂, hs₂, -, -, hcancels⟩ :
      ∃ s', (abandonStalledResponses 10 15 w.streams)[0]? = some s' ∧ _ :=
    stall_detection_exact hreach hten hfirst
  have hsame : s₁ = s := hkeeps ⟨5, by rw [hacked]; decide, by decide⟩
  refine ⟨w, s, hw, hfirst, hacked, hsame ▸ hs₁, s₂, hs₂, hcancels hblocked ?_⟩
  rw [htracked, hacked]
  decide

end ModHttp3.Response
