import ModHttp3.Response.Completion
import ModHttp3.Response.Resume

/-! Streaming and buffering queue the same body. What the handler passed is, in both modes, what
has been taken out of its brigades followed by what is left in the one being filtered. -/
namespace ModHttp3.Response
open Lib

/-- Neither an error nor a bucket of which a read fails. -/
def Bucket.plain : Bucket → Bool
  | .error => false
  | .data pieces => pieces.all (·.readable)
  | _ => true

/-- The brigades that the actions pass to the filter. -/
def brigades (as : List RequestAction) : List (List Bucket) :=
  as.filterMap fun a => match a with
    | .pass _ bb => some bb
    | _ => none

namespace Request

/-- What of the data is body: nothing for a header-only response on the stable build. -/
def bodyOf (conf : RequestConf) (headerOnly : Bool) (data : Bytes) : Bytes :=
  if !conf.devel && headerOnly then [] else data

/-- Plain brigades of a main request, accepted submissions, and no failing condition wait. -/
def untroubled (headerOnly : Bool) : RequestAction → Bool
  | .pass mainRequest bb => mainRequest && bb.all Bucket.plain
  | .bucket accepted h => accepted && h == headerOnly
  | .respond accepted => accepted
  | .waitFails => false
  | _ => true

/-- The response is not cancelled and the session is there. -/
def usable (σ : Request) : Bool := !σ.core.queue.responseCancelled && !σ.core.flags.gone

/-- The body is queued or being queued, or held in the heap, or still in the brigade. -/
structure Carries (conf : RequestConf) (headerOnly : Bool) (σ : Request) : Prop where
  body : bodyOf conf headerOnly σ.passed =
    (if σ.ctx.streaming then σ.core.appended ++ σ.core.pending else σ.ctx.dataheap) ++
      bodyOf conf headerOnly (brigadeBytes σ.worker.rest)
  held : σ.ctx.streaming = false →
    σ.core.appended ++ σ.core.pending = if σ.worker.early then [] else σ.ctx.dataheap
  heap : σ.ctx.streaming = true → σ.ctx.dataheap = []
  fits : σ.ctx.responseTooLarge = false
  plain : σ.worker.rest.all Bucket.plain
  idle : σ.worker.appends = false → σ.core.producer = none

/-- The buffered body is within its limit. -/
def Fits (conf : RequestConf) (headerOnly : Bool) (σ : Request) : Prop :=
  σ.ctx.streaming = false → (bodyOf conf headerOnly σ.passed).length ≤ conf.limit

def Promise (conf : RequestConf) (headerOnly : Bool) (σ : Request) : Prop :=
  σ.usable → σ.Fits conf headerOnly → σ.Carries conf headerOnly

section
variable {conf : RequestConf} {headerOnly : Bool} {σ σ' : Request}

theorem bodyOf_append (a b : Bytes) :
    bodyOf conf headerOnly (a ++ b) = bodyOf conf headerOnly a ++ bodyOf conf headerOnly b := by
  unfold bodyOf
  split_ifs <;> rfl

theorem bodyOf_nil : bodyOf conf headerOnly [] = [] := by
  unfold bodyOf
  split_ifs <;> rfl

private theorem promise_start (streaming : Bool) (limit : ℕ) (now : ℤ) (flags : SessionFlags) :
    Promise conf headerOnly (.start streaming limit now flags) := by
  intro _ _
  refine ⟨?_, fun _ => rfl, fun _ => rfl, rfl, rfl, fun _ => rfl⟩
  change bodyOf conf headerOnly [] = (if streaming then [] else []) ++ bodyOf conf headerOnly []
  rw [bodyOf_nil, ite_self]
  rfl

/-- A step within the request: what the handler passed stays. -/
theorem Promise.map (h : σ.Promise conf headerOnly) (hpassed : σ'.passed = σ.passed)
    (hmode : σ'.ctx.streaming = σ.ctx.streaming) (husable : σ'.usable → σ.usable)
    (hC : σ.Fits conf headerOnly → σ.Carries conf headerOnly → σ'.Carries conf headerOnly) :
    σ'.Promise conf headerOnly := by
  intro hu hfits
  have hfits' : σ.Fits conf headerOnly := by
    unfold Fits at hfits ⊢
    rwa [hpassed, hmode] at hfits
  exact hC hfits' (h (husable hu) hfits')

/-- The flags of the queue do not matter, unless the response is cancelled. -/
theorem Promise.setQueue (h : σ.Promise conf headerOnly) {q : Queue}
    (hc : q.responseCancelled = false → σ.core.queue.responseCancelled = false) :
    (σ.setQueue q).Promise conf headerOnly := by
  refine h.map rfl rfl (fun hu => ?_) fun _ hC => ⟨hC.body, hC.held, hC.heap, hC.fits, hC.plain, hC.idle⟩
  simp only [usable, Bool.and_eq_true, Bool.not_eq_true'] at hu ⊢
  exact ⟨hc hu.1, hu.2⟩

theorem Promise.unusable (h : σ.usable = false) : σ.Promise conf headerOnly := by
  intro hu
  rw [h] at hu
  cases hu

/-- A response start succeeds, or the response was not usable. -/
theorem Promise.responseStart (h : σ.Promise conf headerOnly) {next failed : Request → Request}
    (hnext : ∀ τ : Request, τ.Promise conf headerOnly → τ.worker = σ.worker → τ.ctx = σ.ctx →
      (next τ).Promise conf headerOnly)
    (hfailed : ∀ τ : Request, (failed τ).core = τ.core) :
    (σ.responseStart true next failed).Promise conf headerOnly := by
  unfold Request.responseStart submitResponseNva
  by_cases hsub : σ.core.queue.responseSubmitted = true
  · rw [if_pos hsub]
    exact hnext _ (h.setQueue id) rfl rfl
  · rw [if_neg hsub]
    by_cases hgone : (σ.core.queue.responseCancelled || σ.core.flags.gone) = true
    · rw [if_pos hgone]
      apply Promise.unusable
      unfold usable
      rw [hfailed]
      change (!σ.core.queue.responseCancelled && !σ.core.flags.gone) = false
      rw [← Bool.not_or, hgone]
      rfl
    · rw [if_neg hgone]
      exact hnext _ (h.setQueue (q := { σ.core.queue with responseSubmitted := true }) id) rfl rfl

/-- The filter goes on past a bucket that holds nothing of the body. -/
theorem Promise.skip (h : σ.Promise conf headerOnly) {b : Bucket} {bb : List Bucket} {w : Worker}
    (hw : σ.worker = .filter (b :: bb)) (hb : bodyOf conf headerOnly b.bytes = [])
    (hrest : w.rest = bb) (hearly : w.early = true) :
    ({ σ with worker := w } : Request).Promise conf headerOnly := by
  refine h.map rfl rfl id fun _ hC => ?_
  have hbody := hC.body
  have hheld := hC.held
  have hplain := hC.plain
  have hidle := hC.idle
  rw [hw] at hbody hheld hplain hidle
  have hbytes : bodyOf conf headerOnly (brigadeBytes (Worker.filter (b :: bb)).rest) =
      bodyOf conf headerOnly (brigadeBytes w.rest) := by
    rw [hrest]
    change bodyOf conf headerOnly (brigadeBytes (b :: bb)) = _
    rw [brigadeBytes_cons, bodyOf_append, hb, List.nil_append]
  refine ⟨?_, fun hs => ?_, hC.heap, hC.fits, ?_, fun _ => hidle rfl⟩
  · rw [← hbytes]
    exact hbody
  · rw [hearly]
    exact hheld hs
  · rw [hrest]
    exact (Bool.and_eq_true_iff.mp hplain).2

theorem pending_callAppend {data : Bytes} {w : Worker} : (σ.callAppend data w).core.pending = data := by
  unfold Exchange.pending Request.callAppend
  dsimp only
  rw [pending_appendRest, List.drop_zero]

theorem pending_idle (h : σ.core.producer = none) : σ.core.pending = [] := by
  unfold Exchange.pending
  rw [h]
  rfl

/-- What a read leaves of a bucket is plain like the bucket. -/
theorem plain_rest {pieces : List Piece} {bb : List Bucket} (h : (Bucket.data pieces :: bb).all Bucket.plain)
    {data : Bytes} {rest : List Bucket} (hread : aprBucketRead pieces = (some data, rest)) :
    (rest ++ bb).all Bucket.plain := by
  obtain ⟨hpieces, hbb⟩ := Bool.and_eq_true_iff.mp h
  cases pieces with
  | nil =>
    cases hread
    exact hbb
  | cons piece pieces =>
    obtain ⟨hpiece, hpieces⟩ := Bool.and_eq_true_iff.mp hpieces
    change piece.readable = true at hpiece
    unfold aprBucketRead at hread
    dsimp only at hread
    rw [if_pos hpiece] at hread
    cases hread
    split_ifs
    · exact hbb
    · exact Bool.and_eq_true_iff.mpr ⟨hpieces, hbb⟩

theorem readable_head {pieces : List Piece} {bb : List Bucket}
    (h : (Bucket.data pieces :: bb).all Bucket.plain) : ∀ p ∈ pieces.head?, p.readable = true := by
  intro p hp
  have hpieces := (Bool.and_eq_true_iff.mp h).1
  exact List.all_eq_true.mp hpieces p (List.mem_of_mem_head? hp)

/-- Streaming: one piece goes to append, the remainder stays in the brigade. -/
theorem Promise.streamBucket (h : σ.Promise conf headerOnly) {pieces : List Piece} {bb : List Bucket}
    (hw : σ.worker = .filter (.data pieces :: bb)) (hstream : σ.ctx.streaming = true)
    (hkeep : ∀ data, bodyOf conf headerOnly data = data) :
    (σ.streamBucket pieces bb).Promise conf headerOnly := by
  have hmap : (σ.streamBucket pieces bb).passed = σ.passed ∧ (σ.streamBucket pieces bb).ctx = σ.ctx ∧
      (σ.streamBucket pieces bb).usable = σ.usable := by
    unfold Request.streamBucket
    split <;> exact ⟨rfl, rfl, rfl⟩
  refine h.map hmap.1 (by rw [hmap.2.1]) (fun hu => hmap.2.2 ▸ hu) fun _ hC => ?_
  have hbody := hC.body
  have hplain := hC.plain
  have hidle : σ.core.producer = none := hC.idle (by rw [hw]; rfl)
  rw [hw] at hbody hplain
  rw [if_pos hstream, pending_idle hidle, List.append_nil, hkeep, hkeep] at hbody
  obtain ⟨data, rest, hread, -, -, hbytes⟩ := aprBucketRead_bytes (readable_head hplain) bb
  have hrest := plain_rest hplain hread
  change σ.passed = σ.core.appended ++ brigadeBytes (.data pieces :: bb) at hbody
  rw [hbytes] at hbody
  have hnot : σ.ctx.streaming ≠ false := by
    rw [hstream]
    nofun
  unfold Request.streamBucket
  rw [hread]
  cases data with
  | nil =>
    refine ⟨?_, fun hs => absurd hs hnot, hC.heap, hC.fits, hrest, fun _ => hidle⟩
    change bodyOf conf headerOnly σ.passed = (if σ.ctx.streaming then σ.core.appended ++ σ.core.pending else _) ++
      bodyOf conf headerOnly (brigadeBytes (rest ++ bb))
    rw [if_pos hstream, pending_idle hidle, List.append_nil, hkeep, hkeep]
    exact hbody
  | cons x xs =>
    refine ⟨?_, fun hs => absurd hs hnot, hC.heap, hC.fits, hrest, nofun⟩
    change bodyOf conf headerOnly σ.passed = (if σ.ctx.streaming then σ.core.appended ++
      (σ.callAppend (x :: xs) (.appending (rest ++ bb))).core.pending else _) ++
      bodyOf conf headerOnly (brigadeBytes (rest ++ bb))
    rw [if_pos hstream, pending_callAppend, hkeep, hkeep, List.append_assoc]
    exact hbody

theorem captureBodyBucket_streaming (limit : ℕ) (pieces : List Piece) (ctx : ConnCtx) :
    (captureBodyBucket limit pieces ctx).1.streaming = ctx.streaming := by
  unfold captureBodyBucket
  split
  · rfl
  · split
    · rfl
    · dsimp only
      split
      · rfl
      · split <;> rfl

theorem captureBodyBucket_rest (limit : ℕ) (pieces : List Piece) {ctx : ConnCtx}
    (hfits : ctx.responseTooLarge = false) :
    (captureBodyBucket limit pieces ctx).2 = (aprBucketRead pieces).2 := by
  unfold captureBodyBucket
  rw [hfits, if_neg Bool.false_ne_true]
  split
  · rename_i hread
    rw [hread]
  · rename_i hread
    rw [hread]
    dsimp only
    split
    · rfl
    · split <;> rfl

/-- Buffering: the piece goes to the heap. -/
theorem Promise.capture (h : σ.Promise conf headerOnly) {pieces : List Piece} {bb : List Bucket}
    (hw : σ.worker = .filter (.data pieces :: bb)) (hstream : σ.ctx.streaming = false)
    (hkeep : ∀ data, bodyOf conf headerOnly data = data) :
    ({ σ with
      ctx := (captureBodyBucket conf.limit pieces σ.ctx).1
      worker := .filter ((captureBodyBucket conf.limit pieces σ.ctx).2 ++ bb) } : Request).Promise
        conf headerOnly := by
  refine h.map rfl (captureBodyBucket_streaming _ _ _) id fun hfits hC => ?_
  have hbody := hC.body
  have hheld := hC.held hstream
  have hplain := hC.plain
  have hidle : σ.core.producer = none := hC.idle (by rw [hw]; rfl)
  have hlimit := hfits hstream
  rw [hw] at hbody hheld hplain
  rw [hstream, if_neg Bool.false_ne_true, hkeep, hkeep] at hbody
  rw [hkeep] at hlimit
  change σ.passed = σ.ctx.dataheap ++ brigadeBytes (.data pieces :: bb) at hbody
  have hread := readable_head hplain
  have hroom : ∀ p ∈ pieces.head?, p.readable = true ∧ σ.ctx.dataheap.length + p.bytes.length ≤ conf.limit := by
    intro p hp
    refine ⟨hread p hp, ?_⟩
    have hle : p.bytes.length ≤ (brigadeBytes (.data pieces :: bb)).length := by
      obtain ⟨data, rest, -, hdata, -, hbytes⟩ := aprBucketRead_bytes hread bb
      rw [hbytes, ← hdata p hp, List.length_append]
      omega
    have hlen := congrArg List.length hbody
    rw [List.length_append] at hlen
    omega
  obtain ⟨data, rest, hbucket, -, -, -⟩ := aprBucketRead_bytes hread bb
  have hrest : (captureBodyBucket conf.limit pieces σ.ctx).2 = rest := by
    rw [captureBodyBucket_rest conf.limit pieces hC.fits, hbucket]
  obtain ⟨ctx, rest', hcapture, hfit, hmode, hbytes⟩ := captureBodyBucket_sound hC.fits hroom bb
  rw [hcapture] at hrest ⊢
  cases hrest
  rw [hstream] at hmode
  refine ⟨?_, fun _ => hheld, fun hs => ?_, hfit, plain_rest hplain hbucket, fun _ => hidle⟩
  · change bodyOf conf headerOnly σ.passed = (if ctx.streaming then _ else ctx.dataheap) ++
      bodyOf conf headerOnly (brigadeBytes (rest' ++ bb))
    rw [hmode, if_neg Bool.false_ne_true, hkeep, hkeep, hbytes]
    exact hbody
  · change ctx.streaming = true at hs
    rw [hmode] at hs
    cases hs

private theorem bodyOf_data {pieces : List Piece} (h : (!conf.devel && headerOnly) = true) :
    bodyOf conf headerOnly (Bucket.data pieces).bytes = [] := if_pos h

/-- One iteration of the filter. -/
theorem Promise.filterBucket (h : σ.Promise conf headerOnly) {b : Bucket} {bb : List Bucket}
    (hw : σ.worker = .filter (b :: bb)) :
    (σ.filterBucket conf true headerOnly b bb).Promise conf headerOnly := by
  have hcore : ∀ τ : Request, τ.filterReturns.core = τ.core := fun _ => rfl
  have hstart : bodyOf conf headerOnly b.bytes = [] →
      (σ.responseStart true (filterNext bb) filterReturns).Promise conf headerOnly := by
    intro hb
    exact h.responseStart (fun τ hτ hworker _ => hτ.skip (hworker.trans hw) hb rfl rfl) hcore
  unfold Request.filterBucket
  cases b with
  | error =>
    intro hu hfits
    have hplain := (h hu hfits).plain
    rw [hw] at hplain
    cases hplain
  | response =>
    dsimp only
    split_ifs
    · exact hstart bodyOf_nil
    · exact h.skip hw bodyOf_nil rfl rfl
  | data pieces =>
    dsimp only
    split_ifs with hskip hstream
    · exact h.skip hw (bodyOf_data hskip) rfl rfl
    · have hkeep : ∀ data, bodyOf conf headerOnly data = data := fun _ => if_neg hskip
      refine h.responseStart (fun τ hτ hworker hctx => ?_) hcore
      exact hτ.streamBucket (hworker.trans hw) (by rw [hctx]; exact hstream) hkeep
    · have hkeep : ∀ data, bodyOf conf headerOnly data = data := fun _ => if_neg hskip
      exact h.capture hw (Bool.not_eq_true _ ▸ hstream) hkeep
  | eos =>
    dsimp only
    split_ifs
    · exact h.responseStart (fun τ hτ hworker _ => hτ.skip (hworker.trans hw) bodyOf_nil rfl rfl) hcore
    · exact h.skip hw bodyOf_nil rfl rfl
  | flush =>
    dsimp only
    split_ifs
    · exact hstart bodyOf_nil
    · exact h.skip hw bodyOf_nil rfl rfl
  | metadata => exact h.skip hw bodyOf_nil rfl rfl

/-- The worker goes on without touching data. -/
theorem Promise.turn (h : σ.Promise conf headerOnly) {w : Worker} (hrest : w.rest = σ.worker.rest)
    (hearly : w.early = σ.worker.early) (happ : σ.worker.appends = false) :
    ({ σ with worker := w } : Request).Promise conf headerOnly := by
  refine h.map rfl rfl id fun _ hC => ?_
  have hbody := hC.body
  have hheld := hC.held
  have hplain := hC.plain
  rw [← hrest] at hbody hplain
  rw [← hearly] at hheld
  exact ⟨hbody, hheld, hC.heap, hC.fits, hplain, fun _ => hC.idle happ⟩

/-- After the handler: the heap goes to append. -/
theorem Promise.finish (h : σ.Promise conf headerOnly) (hw : σ.worker = .finishing) :
    (σ.finish true).Promise conf headerOnly := by
  unfold Request.finish
  refine h.responseStart (fun τ hτ hworker hctx => ?_) fun _ => rfl
  have hwτ : τ.worker = .finishing := hworker.trans hw
  have heq : τ.usable → τ.Fits conf headerOnly → σ.ctx.heldBody = τ.ctx.dataheap := by
    intro hu hfits
    have hC := hτ hu hfits
    rw [← hctx]
    unfold ConnCtx.heldBody
    rw [hC.fits, if_neg Bool.false_ne_true]
    split_ifs with hs
    · exact (hC.heap hs).symm
    · rfl
  split_ifs with hnil
  · intro hu hfits
    have hC := hτ hu hfits
    have hheap := (heq hu hfits).symm.trans hnil
    have hbody := hC.body
    have hheld := hC.held
    rw [hwτ] at hbody hheld
    refine ⟨hbody, fun hs => ?_, hC.heap, hC.fits, rfl, fun _ => hC.idle (by rw [hwτ]; rfl)⟩
    refine (hheld hs).trans ?_
    exact hheap.symm
  · intro hu hfits
    have hC := hτ hu hfits
    have hheap := heq hu hfits
    have hidle : τ.core.producer = none := hC.idle (by rw [hwτ]; rfl)
    have hbuffering : τ.ctx.streaming = false := by
      by_contra hs
      rw [hheap, hC.heap (Bool.not_eq_false _ ▸ hs)] at hnil
      exact hnil rfl
    have hbody := hC.body
    have hheld := hC.held hbuffering
    rw [hwτ] at hbody hheld
    rw [pending_idle hidle, List.append_nil] at hheld
    refine ⟨?_, fun _ => ?_, hC.heap, hC.fits, rfl, nofun⟩
    · rw [hbuffering, if_neg Bool.false_ne_true] at hbody
      change bodyOf conf headerOnly τ.passed = (if τ.ctx.streaming then _ else τ.ctx.dataheap) ++ _
      rw [hbuffering, if_neg Bool.false_ne_true]
      exact hbody
    · have happended : τ.core.appended = [] := hheld
      change τ.core.appended ++ (τ.callAppend σ.ctx.heldBody .finalAppend).core.pending = τ.ctx.dataheap
      rw [happended, pending_callAppend, hheap, List.nil_append]

/-- An iteration of append moves a chunk from the call to the queue. -/
theorem moved_queued {data : Bytes} {offset n : ℕ} {resume : Bool} {q : Queue}
    (hp : σ.core.producer = some (data, offset)) :
    (σ.afterAppend data offset (.queued n resume, q)).core.appended ++
      (σ.afterAppend data offset (.queued n resume, q)).core.pending = σ.core.appended ++ σ.core.pending := by
  have hpending : (σ.afterAppend data offset (.queued n resume, q)).core.pending = data.drop (offset + n) :=
    pending_appendRest data (offset + n)
  have hbefore : σ.core.pending = data.drop offset := by
    unfold Exchange.pending
    rw [hp]
    rfl
  rw [hpending, hbefore]
  change (σ.core.appended ++ (data.drop offset).take n) ++ _ = _
  rw [List.append_assoc, ← List.drop_drop, List.take_append_drop]

theorem Promise.queued (h : σ.Promise conf headerOnly) {data : Bytes} {offset n : ℕ} {resume : Bool} {q : Queue}
    (hp : σ.core.producer = some (data, offset)) (hc : q.responseCancelled = σ.core.queue.responseCancelled) :
    (σ.afterAppend data offset (.queued n resume, q)).Promise conf headerOnly := by
  refine h.map rfl rfl (fun hu => ?_) fun _ hC => ?_
  · simp only [usable, Bool.and_eq_true, Bool.not_eq_true'] at hu ⊢
    exact ⟨hc.symm.trans hu.1, hu.2⟩
  · have happ : σ.worker.appends = true := by
      by_contra hne
      have hnone := hC.idle (Bool.not_eq_true _ ▸ hne)
      rw [hp] at hnone
      cases hnone
    have hmoved : (σ.afterAppend data offset (.queued n resume, q)).core.appended ++
        (σ.afterAppend data offset (.queued n resume, q)).core.pending = σ.core.appended ++ σ.core.pending :=
      moved_queued hp
    have hworker : (σ.afterAppend data offset (.queued n resume, q)).worker.rest = σ.worker.rest ∧
        (σ.afterAppend data offset (.queued n resume, q)).worker.early = σ.worker.early := by
      unfold Request.afterAppend
      dsimp only
      split_ifs
      · exact ⟨(owed_of_returns happ).2, (owed_of_returns happ).1⟩
      · exact ⟨rfl, rfl⟩
    refine ⟨?_, fun hs => ?_, hC.heap, hC.fits, ?_, fun hidle => ?_⟩
    · rw [hmoved, hworker.1]
      exact hC.body
    · rw [hmoved, hworker.2]
      exact hC.held hs
    · rw [hworker.1]
      exact hC.plain
    · by_contra hsome
      have hstay : (σ.afterAppend data offset (.queued n resume, q)).worker = σ.worker :=
        if_neg fun hnone => hsome (Option.isNone_iff_eq_none.mp hnone)
      rw [hstay, happ] at hidle
      cases hidle

theorem usable_cancelled {σ : Request} (h : (σ.core.queue.responseCancelled || σ.core.flags.gone) = true) :
    σ.usable = false := by
  unfold usable
  rw [← Bool.not_or, h]
  rfl

theorem Promise.append (h : σ.Promise conf headerOnly) {data : Bytes} {offset : ℕ} {malloc : Option Addr}
    {x : AppendStep × Queue} (hp : σ.core.producer = some (data, offset))
    (hx : h3StreamResponseAppend conf.sizeMax σ.core.flags data offset malloc σ.core.queue = some x) :
    (σ.afterAppend data offset x).Promise conf headerOnly := by
  unfold h3StreamResponseAppend at hx
  split_ifs at hx with hwait hgone
  · cases hx
    exact h
  · cases hx
    exact .unusable (usable_cancelled hgone)
  · dsimp only at hx
    split_ifs at hx
    · cases hx
      exact .unusable rfl
    · cases malloc with
      | none =>
        cases hx
        exact .unusable rfl
      | some a =>
        obtain ⟨q, hq, rfl⟩ := Option.map_eq_some_iff.mp hx
        obtain ⟨chunks, -, rfl⟩ := Option.map_eq_some_iff.mp hq
        exact h.queued hp rfl

/-- Reading and acknowledging leave the producer's side alone. -/
theorem Promise.consumer (h : σ.Promise conf headerOnly) {core : Exchange} {eof : Bool}
    (hcancel : core.queue.responseCancelled = σ.core.queue.responseCancelled) (hflags : core.flags = σ.core.flags)
    (hprod : core.producer = σ.core.producer) (happ : core.appended = σ.core.appended) :
    ({ σ with core := core, eof := eof } : Request).Promise conf headerOnly := by
  have hpending : core.pending = σ.core.pending := by
    unfold Exchange.pending
    rw [hprod]
  refine h.map rfl rfl (fun hu => ?_) fun _ hC => ?_
  · unfold usable at hu ⊢
    rwa [hcancel, hflags] at hu
  · refine ⟨?_, fun hs => ?_, hC.heap, hC.fits, hC.plain, fun hi => hprod.trans (hC.idle hi)⟩
    · rw [happ, hpending]
      exact hC.body
    · rw [happ, hpending]
      exact hC.held hs

/-- The handler passes another brigade. -/
theorem Promise.pass (h : σ.Promise conf headerOnly) {bb : List Bucket} (hw : σ.worker = .handler)
    (hplain : bb.all Bucket.plain) :
    ({ σ with worker := .filter bb, passed := σ.passed ++ brigadeBytes bb } : Request).Promise conf headerOnly := by
  intro hu hfits
  have hless : σ.Fits conf headerOnly := by
    intro hs
    have hle := hfits hs
    dsimp only at hle
    rw [bodyOf_append, List.length_append] at hle
    omega
  have hC := h hu hless
  have hbody := hC.body
  have hheld := hC.held
  rw [hw] at hbody hheld
  refine ⟨?_, hheld, hC.heap, hC.fits, hplain, fun _ => hC.idle (by rw [hw]; rfl)⟩
  dsimp only
  rw [bodyOf_append, hbody]
  change _ ++ bodyOf conf headerOnly [] ++ _ = _
  rw [bodyOf_nil, List.append_nil]
  rfl

theorem Promise.step (h : σ.Promise conf headerOnly) {a : RequestAction} (hok : untroubled headerOnly a)
    (hs : σ.step conf a = some σ') : σ'.Promise conf headerOnly := by
  cases step_move hs with
  | passed hw =>
    obtain ⟨hmain, hplain⟩ := Bool.and_eq_true_iff.mp hok
    subst hmain
    exact h.pass hw hplain
  | bucket hw =>
    obtain ⟨hacc, hho⟩ := Bool.and_eq_true_iff.mp hok
    cases beq_iff_eq.mp hho
    subst hacc
    exact h.filterBucket hw
  | filtered hw => exact h.turn (by rw [hw]; rfl) (by rw [hw]; rfl) (by rw [hw]; rfl)
  | append hp hm hx => exact h.append hp hx
  | waitFails hp => cases hok
  | @endOfStream bb hw =>
    have hdone : σ.completed.Promise conf headerOnly := h.setQueue id
    have hw' : σ.completed.worker = .ending bb := hw
    exact hdone.turn (by rw [hw']; rfl) (by rw [hw']; rfl) (by rw [hw']; rfl)
  | endHandler hw => exact h.turn (by rw [hw]; rfl) (by rw [hw]; rfl) (by rw [hw]; rfl)
  | respond hw =>
    cases hok
    exact h.finish hw
  | complete hw =>
    have hdone : σ.completed.Promise conf headerOnly := h.setQueue id
    have hw' : σ.completed.worker = .completing := hw
    exact hdone.turn (by rw [hw']; rfl) (by rw [hw']; rfl) (by rw [hw']; rfl)
  | @read veccnt x hserving hsub hv hx =>
    obtain ⟨answer, q⟩ := x
    have hcancel : q.responseCancelled = σ.core.queue.responseCancelled :=
      congrArg ResponseCtl.responseCancelled (readData_ctl hx)
    cases answer with
    | vecs vec eof => exact h.consumer hcancel rfl rfl rfl
    | _ => exact h.consumer hcancel rfl rfl rfl
  | @ack now datalen q hn hq =>
    have hsame := ackLoop_sameReader now datalen hq
    exact h.consumer hsame.cancelled rfl rfl rfl
  | abandoned | stopSending | resetStream | streamClose => exact .unusable rfl
  | waited => exact h
  | abort | dead =>
    apply Promise.unusable
    simp [usable, SessionFlags.gone]

/-- The mode is fixed, and what the handler has passed grows by its brigades only. -/
structure SameSource (σ σ' : Request) : Prop where
  passed : σ'.passed = σ.passed
  streaming : σ'.ctx.streaming = σ.ctx.streaming

theorem responseStart_source {accepted : Bool} {next failed : Request → Request}
    (hnext : ∀ τ, SameSource τ (next τ)) (hfailed : ∀ τ, SameSource τ (failed τ)) :
    SameSource σ (σ.responseStart accepted next failed) := by
  have hset : ∀ q, SameSource σ (σ.setQueue q) := fun _ => ⟨rfl, rfl⟩
  unfold Request.responseStart
  split
  · exact ⟨(hnext _).passed.trans (hset _).passed, (hnext _).streaming.trans (hset _).streaming⟩
  · exact ⟨(hfailed _).passed.trans (hset _).passed, (hfailed _).streaming.trans (hset _).streaming⟩

private theorem filterBucket_source (conf : RequestConf) (accepted headerOnly : Bool) (b : Bucket) (bb : List Bucket)
    (σ : Request) : SameSource σ (σ.filterBucket conf accepted headerOnly b bb) := by
  have hworker : ∀ (τ : Request) (w : Worker), SameSource τ { τ with worker := w } := fun _ _ => ⟨rfl, rfl⟩
  have hstream : ∀ pieces (τ : Request), SameSource τ (τ.streamBucket pieces bb) := by
    intro pieces τ
    unfold Request.streamBucket
    split <;> exact ⟨rfl, rfl⟩
  unfold Request.filterBucket
  cases b with
  | data pieces =>
    dsimp only
    split_ifs
    · exact hworker σ _
    · exact responseStart_source (hstream pieces) fun τ => hworker τ _
    · exact ⟨rfl, captureBodyBucket_streaming _ _ _⟩
  | error => exact hworker σ _
  | metadata => exact hworker σ _
  | _ =>
    dsimp only
    split_ifs
    · exact responseStart_source (fun τ => hworker τ _) fun τ => hworker τ _
    · exact hworker σ _

private theorem step_source {a : RequestAction} (ha : ∀ mainRequest bb, a ≠ .pass mainRequest bb)
    (hs : σ.step conf a = some σ') : SameSource σ σ' := by
  cases step_move hs with
  | passed hw => exact absurd rfl (ha _ _)
  | bucket hw => exact filterBucket_source conf _ _ _ _ σ
  | @append _ data offset x hp hm hx =>
    obtain ⟨outcome, q⟩ := x
    cases outcome <;> exact ⟨rfl, rfl⟩
  | respond hw =>
    refine responseStart_source (fun τ => ?_) fun _ => ⟨rfl, rfl⟩
    split_ifs <;> exact ⟨rfl, rfl⟩
  | _ => exact ⟨rfl, rfl⟩

/-- A run of untroubled steps, with the brigades that it passes. -/
private theorem run_spec (as : List RequestAction) (h : σ.Promise conf headerOnly)
    (hrun : runChecked (Request.step conf) (fun _ a => untroubled headerOnly a) σ as = some σ') :
    σ'.Promise conf headerOnly ∧ σ'.ctx.streaming = σ.ctx.streaming ∧
      σ'.passed = σ.passed ++ (brigades as).flatMap brigadeBytes := by
  induction as generalizing σ with
  | nil =>
    cases hrun
    exact ⟨h, rfl, (List.append_nil _).symm⟩
  | cons a as ih =>
    unfold runChecked at hrun
    split_ifs at hrun with hok
    obtain ⟨τ, hτ, hrun⟩ := Option.bind_eq_some_iff.mp hrun
    obtain ⟨hP, hmode, hpassed⟩ := ih (h.step hok hτ) hrun
    cases a with
    | pass mainRequest bb =>
      cases step_move hτ with
      | passed hw =>
        refine ⟨hP, hmode, hpassed.trans ?_⟩
        exact List.append_assoc _ _ _
    | _ =>
      have hsame := step_source (fun _ _ hpass => by cases hpass) hτ
      exact ⟨hP, hmode.trans hsame.streaming, hpassed.trans (congrArg (· ++ _) hsame.passed)⟩

/-- The body that a finished worker has queued. -/
theorem queued_body {streaming : Bool} {limit : ℕ} {now : ℤ} {flags : SessionFlags} {as : List RequestAction}
    (hrun : runChecked (Request.step conf) (fun _ a => untroubled headerOnly a)
      (.start streaming limit now flags) as = some σ)
    (hfin : σ.worker = .finished) (hu : σ.usable)
    (hsize : streaming = false → ((brigades as).flatMap brigadeBytes).length ≤ conf.limit) :
    σ.core.appended = bodyOf conf headerOnly ((brigades as).flatMap brigadeBytes) ∧
      (streaming = false → σ.core.appended = σ.ctx.dataheap) := by
  obtain ⟨hP, hmode, hpassed⟩ := run_spec as (promise_start streaming limit now flags) hrun
  change σ.ctx.streaming = streaming at hmode
  change σ.passed = [] ++ _ at hpassed
  rw [List.nil_append] at hpassed
  have hC : σ.Carries conf headerOnly := by
    refine hP hu fun hs => ?_
    rw [hpassed]
    have hle := hsize (hmode.symm.trans hs)
    unfold bodyOf
    split_ifs
    · exact Nat.zero_le _
    · exact hle
  have hbody := hC.body
  have hheld := hC.held
  rw [hfin] at hbody hheld
  have hidle : σ.core.pending = [] := pending_idle (hC.idle (by rw [hfin]; rfl))
  rw [hidle, List.append_nil, hpassed] at hbody
  rw [hidle, List.append_nil] at hheld
  change _ = _ ++ bodyOf conf headerOnly [] at hbody
  rw [bodyOf_nil, List.append_nil, hmode] at hbody
  rw [hmode] at hheld
  cases streaming with
  | true => exact ⟨hbody.symm, nofun⟩
  | false =>
    have happended : σ.core.appended = σ.ctx.dataheap := hheld rfl
    exact ⟨happended.trans hbody.symm, fun _ => happended⟩

end

/-- The same brigades, streamed by one worker and buffered by the other. -/
theorem same_body_in_both_modes {conf conf' : RequestConf} {headerOnly : Bool} {limit limit' : ℕ} {now now' : ℤ}
    {flags flags' : SessionFlags} {as as' : List RequestAction} {σ σ' : Request}
    (hbuild : conf'.devel = conf.devel) (hbrigades : brigades as' = brigades as)
    (hsize : ((brigades as).flatMap brigadeBytes).length ≤ conf'.limit)
    (hstreamed : runChecked (Request.step conf) (fun _ a => untroubled headerOnly a)
      (.start true limit now flags) as = some σ)
    (hbuffered : runChecked (Request.step conf') (fun _ a => untroubled headerOnly a)
      (.start false limit' now' flags') as' = some σ')
    (hfin : σ.worker = .finished ∧ σ'.worker = .finished) (hu : σ.usable ∧ σ'.usable) :
    σ.core.appended = σ'.core.appended ∧ σ'.core.appended = σ'.ctx.dataheap ∧
      σ.core.appended = if !conf.devel && headerOnly then [] else (brigades as).flatMap brigadeBytes := by
  obtain ⟨hs, -⟩ := queued_body hstreamed hfin.1 hu.1 nofun
  obtain ⟨hb, hheap⟩ := queued_body hbuffered hfin.2 hu.2 fun _ => hbrigades ▸ hsize
  refine ⟨?_, hheap rfl, hs⟩
  rw [hs, hb, hbrigades]
  unfold bodyOf
  rw [hbuild]

/-- A bucket that is read in two pieces, a flush, an empty bucket and the end of the stream. -/
def sampleBrigade : List Bucket := [.data [⟨[1, 2], true⟩, ⟨[3], true⟩], .flush, .data [], .eos]

def streamedRun : List RequestAction :=
  [.pass true sampleBrigade, .bucket true false, .append (some 7), .bucket true false, .append (some 8),
    .bucket true false, .bucket true false, .bucket true false, .endOfStream, .bucket true false, .endHandler,
    .respond true, .complete]

def bufferedRun : List RequestAction :=
  [.pass true sampleBrigade, .bucket true false, .bucket true false, .bucket true false, .bucket true false,
    .bucket true false, .bucket true false, .endHandler, .respond true, .append (some 7), .complete]

theorem same_body_in_both_modes_sample :
    ∃ σ σ', runChecked (Request.step exampleConf) (fun _ a => untroubled false a)
        (.start true 8 0 ⟨false, false, true⟩) streamedRun = some σ ∧
      runChecked (Request.step exampleConf) (fun _ a => untroubled false a)
        (.start false 8 0 ⟨false, false, true⟩) bufferedRun = some σ' ∧
      σ.core.appended = [1, 2, 3] ∧ σ.core.appended = σ'.core.appended := by
  have hrun : (runChecked (Request.step exampleConf) (fun _ a => untroubled false a)
      (.start true 8 0 ⟨false, false, true⟩) streamedRun).map (fun σ => (σ.worker, σ.usable)) =
        some (.finished, true) := by decide +kernel
  have hrun' : (runChecked (Request.step exampleConf) (fun _ a => untroubled false a)
      (.start false 8 0 ⟨false, false, true⟩) bufferedRun).map (fun σ => (σ.worker, σ.usable)) =
        some (.finished, true) := by decide +kernel
  obtain ⟨σ, hσ, he⟩ := Option.map_eq_some_iff.mp hrun
  obtain ⟨σ', hσ', he'⟩ := Option.map_eq_some_iff.mp hrun'
  obtain ⟨hfin, hu⟩ := Prod.mk.inj he
  obtain ⟨hfin', hu'⟩ := Prod.mk.inj he'
  have hbrigades : brigades bufferedRun = brigades streamedRun := rfl
  obtain ⟨hsame, -, hbody⟩ :=
    same_body_in_both_modes rfl hbrigades (by decide) hσ hσ' ⟨hfin, hfin'⟩ ⟨hu, hu'⟩
  exact ⟨σ, σ', hσ, hσ', hbody, hsame⟩

end Request

end ModHttp3.Response
