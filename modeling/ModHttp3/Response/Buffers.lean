import ModHttp3.Config.Server
import ModHttp3.Lib.Block
import ModHttp3.Response.Filter
import ModHttp3.Session.Callbacks

/-! The two buffers that grow by doubling, with `size_t` of a machine and blocks of memory: the request body
of `on_recv_data`, whose capacity is cut at the limit, and the response body of `capture_body_bucket`. -/
namespace ModHttp3.Response
open Lib Session

def sizeT32 : ℕ := 4294967296
def sizeT64 : ℕ := 18446744073709551616

/-- `request_body`, `request_body_len`, `request_body_capacity` and `request_body_overflow`. -/
structure RequestBuf where
  body : Block UInt8
  overflow : Bool
  deriving DecidableEq, Repr

/-- `dataheap`, `dataheaplen`, `dataheapcap` and `response_too_large`. -/
structure CaptureBuf where
  heap : Block UInt8
  tooLarge : Bool
  deriving DecidableEq, Repr

section machine
variable (ar : SizeArith) (junk : ℕ → UInt8) (fuel : ℕ)

/-- The block of `on_recv_data` for `needed` bytes. -/
def RequestBuf.room (max needed : ℕ) (b : Block UInt8) : Option (Block UInt8) :=
  if b.cap < needed then do
    let newCap ← growLoop ar fuel (if b.cap ≠ 0 then b.cap else h3BodyBufInitCap) needed
    b.regrow junk (if max < newCap then max else newCap)
  else some b

/-- `on_recv_data` on a request stream. -/
def RequestBuf.recv (max : ℕ) (b : RequestBuf) (data : Bytes) : Option RequestBuf :=
  if data.length = 0 then some b
  else if b.overflow then some b
  else do
    let total ← ar.add b.body.len data.length
    if max < total then return { b with overflow := true }
    let needed ← ar.add b.body.len data.length
    let body ← RequestBuf.room ar junk fuel max needed b.body
    let newLen ← ar.add body.len data.length
    let body ← body.append data newLen
    return { b with body := body }

/-- `ctx->dataheapcap ? ctx->dataheapcap * 2 : H3_BODY_BUF_INIT_CAP`. -/
def CaptureBuf.startCap (b : Block UInt8) : Option ℕ := if b.cap ≠ 0 then ar.double b.cap else some h3BodyBufInitCap

/-- The block of `capture_body_bucket` for `newLen` bytes. -/
def CaptureBuf.room (newLen : ℕ) (b : Block UInt8) : Option (Block UInt8) :=
  if b.cap < newLen then do
    let start ← CaptureBuf.startCap ar b
    let newCap ← growLoop ar fuel start newLen
    b.regrow junk newCap
  else some b

/-- `capture_body_bucket` with what `apr_bucket_read` gave it. -/
def CaptureBuf.capture (limit : ℕ) (c : CaptureBuf) (read : Option Bytes) : Option CaptureBuf :=
  if c.tooLarge then some c
  else match read with
    | none => some c
    | some data =>
      if data.length = 0 then some c
      else if limit < c.heap.len then some { c with tooLarge := true }
      else do
        let left ← ar.sub limit c.heap.len
        if left < data.length then return { c with tooLarge := true }
        let newLen ← ar.add c.heap.len data.length
        let heap ← CaptureBuf.room ar junk fuel newLen c.heap
        let heap ← heap.append data newLen
        return { c with heap := heap }

def RequestBuf.recvAll (max : ℕ) (chunks : List Bytes) : Option RequestBuf :=
  chunks.foldlM (RequestBuf.recv ar junk fuel max) ⟨.empty, false⟩

def CaptureBuf.captureAll (limit : ℕ) (reads : List (Option Bytes)) : Option CaptureBuf :=
  reads.foldlM (CaptureBuf.capture ar junk fuel limit) ⟨.empty, false⟩

end machine

section growth
variable {size : ℕ} {ar : SizeArith} {junk : ℕ → UInt8} {fuel : ℕ}

theorem growCap_of_le {n cap need : ℕ} (h : need ≤ cap) : growCap n cap need = cap := by
  cases n with
  | zero => rfl
  | succ n => exact if_neg (Nat.not_lt.mpr h)

/-- The loop of the machine ends, with the capacity of the loop on natural numbers: a capacity is doubled
only while it is below `need`. -/
theorem growLoop_eq (ha : ar.Exact size) {cap need n : ℕ} (hneed : 2 * need ≤ size) (hcap : 0 < cap)
    (hfuel : need ≤ cap + fuel) (hn : need ≤ cap + n) :
    growLoop ar (fuel + 1) cap need = some (growCap n cap need) := by
  induction fuel generalizing cap n with
  | zero =>
    rw [Nat.add_zero] at hfuel
    rw [growCap_of_le hfuel]
    exact if_neg (Nat.not_lt.mpr hfuel)
  | succ fuel ih =>
    by_cases hshort : cap < need
    · obtain ⟨m, rfl⟩ : ∃ m, n = m + 1 := ⟨n - 1, by omega⟩
      have hdouble := ha.double (a := cap) (by omega)
      have hrest : growLoop ar (fuel + 1) (cap * 2) need = some (growCap m (cap * 2) need) :=
        ih (by omega) (by omega) (by omega)
      rw [growLoop, growCap, if_pos hshort, if_pos hshort, hdouble]
      exact hrest
    · rw [growCap_of_le (Nat.not_lt.mp hshort)]
      exact if_neg hshort

/-- The buffer of the machine holds what the stream's body is. -/
structure RequestBuf.Holds (b : RequestBuf) (o : H3Stream) : Prop where
  wf : b.body.WF
  stored : b.body.stored = o.requestBody
  cap : b.body.cap = o.requestBodyCapacity
  overflow : b.overflow = o.requestBodyOverflow

theorem RequestBuf.Holds.len {b : RequestBuf} {o : H3Stream} (h : b.Holds o) : b.body.len = o.requestBody.length := by
  rw [← h.stored, h.wf.length_stored]

/-- The block has room for what is needed, and the capacity of the model without bounds. -/
theorem RequestBuf.room_spec (ha : ar.Exact size) {b : Block UInt8} {max needed : ℕ} (hwf : b.WF) (hcap : b.cap ≤ max)
    (hneed : 2 * needed ≤ size) (hfuel : needed ≤ fuel) (hmax : needed ≤ max) (hlen : b.len ≤ needed) :
    ∃ b', RequestBuf.room ar junk (fuel + 1) max needed b = some b' ∧ b'.WF ∧ b'.stored = b.stored ∧
      b'.len = b.len ∧ needed ≤ b'.cap ∧ b'.cap ≤ max ∧
      b'.cap = if b.cap < needed then min (growCap needed (if b.cap = 0 then h3BodyBufInitCap else b.cap) needed) max
        else b.cap := by
  by_cases hshort : b.cap < needed
  · have hstart : (if b.cap ≠ 0 then b.cap else h3BodyBufInitCap) = if b.cap = 0 then h3BodyBufInitCap else b.cap :=
      ite_not ..
    have hpos : 0 < if b.cap = 0 then h3BodyBufInitCap else b.cap := by
      split_ifs with hzero
      · decide
      · omega
    have hgrow : growLoop ar (fuel + 1) (if b.cap = 0 then h3BodyBufInitCap else b.cap) needed =
        some (growCap needed (if b.cap = 0 then h3BodyBufInitCap else b.cap) needed) :=
      growLoop_eq ha hneed hpos (by omega) (by omega)
    have hle : needed ≤ growCap needed (if b.cap = 0 then h3BodyBufInitCap else b.cap) needed :=
      le_growCap hpos (by omega)
    unfold RequestBuf.room
    rw [if_pos hshort, if_pos hshort, hstart, hgrow]
    generalize growCap needed (if b.cap = 0 then h3BodyBufInitCap else b.cap) needed = newCap at hle
    have hclamp : (if max < newCap then max else newCap) = min newCap max := by
      split_ifs <;> omega
    have hold : b.len ≤ min newCap max := by omega
    obtain ⟨b', hb', hwf', hstored, hlen', hcap'⟩ := Block.regrow_spec junk hwf hold
    refine ⟨b', ?_, hwf', hstored, hlen', by omega, by omega, hcap'⟩
    change b.regrow junk (if max < newCap then max else newCap) = some b'
    rw [hclamp, hb']
  · unfold RequestBuf.room
    rw [if_neg hshort, if_neg hshort]
    exact ⟨b, rfl, hwf, rfl, rfl, Nat.not_lt.mp hshort, hcap, rfl⟩

/-- `on_recv_data` on the machine refines the callback, if a chunk and the limit are small against the
range of `size_t`. -/
theorem RequestBuf.Holds.recv (ha : ar.Exact size) {conf : SessionConf} {b : RequestBuf} {o : H3Stream} {data : Bytes}
    (h : b.Holds o) (hbidi : o.isBidi) (hcap : o.requestBodyCapacity ≤ conf.maxRequestBodySize)
    (hmax : 2 * conf.maxRequestBodySize ≤ size) (hdata : conf.maxRequestBodySize + data.length < size)
    (hfuel : conf.maxRequestBodySize ≤ fuel) :
    ∃ b', b.recv ar junk (fuel + 1) conf.maxRequestBodySize data = some b' ∧ b'.Holds (onRecvData conf data o) ∧
      (onRecvData conf data o).requestBodyCapacity ≤ conf.maxRequestBodySize := by
  have hlen := h.len
  have hfits := h.wf.len
  rw [h.cap] at hfits
  have hadd : ar.add b.body.len data.length = some (b.body.len + data.length) := ha.add (by omega)
  unfold RequestBuf.recv onRecvData
  by_cases hnone : data.length = 0
  · rw [if_pos hnone, if_pos (.inr hnone)]
    exact ⟨b, rfl, h, hcap⟩
  · have hbody : ¬ (!o.isBidi ∨ data.length = 0) := by simp [hbidi, hnone]
    rw [if_neg hnone, if_neg hbody, h.overflow]
    dsimp only
    by_cases hover : o.requestBodyOverflow = true
    · rw [if_pos hover, if_pos hover]
      exact ⟨b, rfl, h, hcap⟩
    · rw [if_neg hover, if_neg hover, hadd, ← hlen]
      simp only [Option.bind_eq_bind, Option.bind_some]
      by_cases hmany : conf.maxRequestBodySize < b.body.len + data.length
      · rw [if_pos hmany, if_pos hmany]
        exact ⟨_, rfl, ⟨h.wf, h.stored, h.cap, rfl⟩, hcap⟩
      · rw [if_neg hmany, if_neg hmany, ← h.cap]
        obtain ⟨body, hbody, hwf, hstored, hlen', hneed, hcap', hnew⟩ : ∃ body, RequestBuf.room ar junk (fuel + 1)
            conf.maxRequestBodySize (b.body.len + data.length) b.body = some body ∧ _ :=
          RequestBuf.room_spec ha h.wf (h.cap ▸ hcap) (by omega) (by omega) (Nat.not_lt.mp hmany)
            (Nat.le_add_right _ data.length)
        rw [← hlen'] at hneed
        obtain ⟨full, hfull, hwf', hstored', hcap''⟩ := Block.append_spec hwf hneed
        rw [hlen'] at hfull
        rw [hbody]
        simp only [Option.bind_some, hlen', hadd, hfull]
        refine ⟨_, rfl, ⟨hwf', ?_, hcap''.trans hnew, rfl⟩, ?_⟩
        · change full.stored = o.requestBody ++ data
          rw [hstored', hstored, h.stored]
        · rw [← hnew]
          exact hcap'

private theorem onRecvData_isBidi (conf : SessionConf) (data : Bytes) (o : H3Stream) :
    (onRecvData conf data o).isBidi = o.isBidi := by
  unfold onRecvData
  dsimp only
  split_ifs <;> rfl

theorem RequestBuf.Holds.foldlM (ha : ar.Exact size) {conf : SessionConf} (chunks : List Bytes) {b : RequestBuf}
    {o : H3Stream} (h : b.Holds o) (hbidi : o.isBidi) (hcap : o.requestBodyCapacity ≤ conf.maxRequestBodySize)
    (hmax : 2 * conf.maxRequestBodySize ≤ size)
    (hchunks : ∀ data ∈ chunks, conf.maxRequestBodySize + data.length < size) (hfuel : conf.maxRequestBodySize ≤ fuel) :
    ∃ b', chunks.foldlM (RequestBuf.recv ar junk (fuel + 1) conf.maxRequestBodySize) b = some b' ∧
      b'.Holds (chunks.foldl (fun o data => onRecvData conf data o) o) ∧
      b'.body.cap ≤ conf.maxRequestBodySize ∧ (chunks.foldl (fun o data => onRecvData conf data o) o).isBidi := by
  induction chunks generalizing b o with
  | nil => exact ⟨b, rfl, h, h.cap ▸ hcap, hbidi⟩
  | cons data chunks ih =>
    obtain ⟨b₁, hstep, h₁, hcap₁⟩ : ∃ b₁, b.recv ar junk (fuel + 1) conf.maxRequestBodySize data = some b₁ ∧ _ :=
      h.recv ha hbidi hcap hmax (hchunks data List.mem_cons_self) hfuel
    rw [List.foldlM_cons, hstep]
    exact ih h₁ ((onRecvData_isBidi conf data o).trans hbidi) hcap₁ fun d hd => hchunks d (List.mem_cons_of_mem _ hd)

/-- The block on the machine is the buffered response. -/
structure CaptureBuf.Holds (c : CaptureBuf) (ctx : ConnCtx) : Prop where
  wf : c.heap.WF
  stored : c.heap.stored = ctx.dataheap
  cap : c.heap.cap = ctx.dataheapcap
  tooLarge : c.tooLarge = ctx.responseTooLarge

theorem CaptureBuf.Holds.len {c : CaptureBuf} {ctx : ConnCtx} (h : c.Holds ctx) : c.heap.len = ctx.dataheap.length := by
  rw [← h.stored, h.wf.length_stored]

theorem CaptureBuf.room_spec (ha : ar.Exact size) {b : Block UInt8} {newLen : ℕ} (hwf : b.WF)
    (hneed : 2 * newLen ≤ size) (hfuel : newLen ≤ fuel) (hlen : b.len ≤ newLen) :
    ∃ b', CaptureBuf.room ar junk (fuel + 1) newLen b = some b' ∧ b'.WF ∧ b'.stored = b.stored ∧
      b'.len = b.len ∧ newLen ≤ b'.cap ∧
      b'.cap = if b.cap < newLen then growCap newLen (if b.cap = 0 then h3BodyBufInitCap else b.cap * 2) newLen
        else b.cap := by
  by_cases hshort : b.cap < newLen
  · have hstart : CaptureBuf.startCap ar b = some (if b.cap = 0 then h3BodyBufInitCap else b.cap * 2) := by
      have hdouble := ha.double (a := b.cap) (by omega)
      unfold CaptureBuf.startCap
      rw [ite_not, hdouble]
      split_ifs <;> rfl
    have hpos : 0 < if b.cap = 0 then h3BodyBufInitCap else b.cap * 2 := by
      split_ifs with hzero
      · decide
      · omega
    have hgrow : growLoop ar (fuel + 1) (if b.cap = 0 then h3BodyBufInitCap else b.cap * 2) newLen =
        some (growCap newLen (if b.cap = 0 then h3BodyBufInitCap else b.cap * 2) newLen) :=
      growLoop_eq ha hneed hpos (by omega) (by omega)
    have hle : newLen ≤ growCap newLen (if b.cap = 0 then h3BodyBufInitCap else b.cap * 2) newLen :=
      le_growCap hpos (by omega)
    obtain ⟨b', hb', hwf', hstored, hlen', hcap'⟩ := Block.regrow_spec junk hwf (Nat.le_trans hlen hle)
    unfold CaptureBuf.room
    rw [if_pos hshort, if_pos hshort]
    refine ⟨b', ?_, hwf', hstored, hlen', by omega, hcap'⟩
    simp only [Option.bind_eq_bind, hstart, Option.bind_some, hgrow, hb']
  · unfold CaptureBuf.room
    rw [if_neg hshort, if_neg hshort]
    exact ⟨b, rfl, hwf, rfl, rfl, Nat.not_lt.mp hshort, rfl⟩

/-- `capture_body_bucket` on the machine refines the one on lists, for a bucket of any length. -/
theorem CaptureBuf.Holds.capture (ha : ar.Exact size) {limit : ℕ} {c : CaptureBuf} {ctx : ConnCtx} (h : c.Holds ctx)
    (pieces : List Piece) (hlimit : 2 * limit ≤ size) (hlt : limit < size) (hfuel : limit ≤ fuel) :
    ∃ c', c.capture ar junk (fuel + 1) limit (aprBucketRead pieces).1 = some c' ∧
      c'.Holds (captureBodyBucket limit pieces ctx).1 := by
  have hlen := h.len
  unfold CaptureBuf.capture captureBodyBucket
  rw [h.tooLarge]
  by_cases hlarge : ctx.responseTooLarge = true
  · rw [if_pos hlarge, if_pos hlarge]
    exact ⟨c, rfl, h⟩
  · rw [if_neg hlarge, if_neg hlarge]
    rcases aprBucketRead pieces with ⟨read, rest⟩
    cases read with
    | none => exact ⟨c, rfl, h⟩
    | some data =>
      dsimp only
      by_cases hnone : data.length = 0
      · rw [if_pos hnone, if_pos hnone]
        exact ⟨c, rfl, h⟩
      · rw [if_neg hnone, if_neg hnone, ← hlen]
        by_cases hpast : limit < c.heap.len
        · rw [if_pos hpast, if_pos (.inl hpast)]
          exact ⟨_, rfl, h.wf, h.stored, h.cap, rfl⟩
        · have hsub : ar.sub limit c.heap.len = some (limit - c.heap.len) := ha.sub (Nat.not_lt.mp hpast) (by omega)
          rw [if_neg hpast, hsub]
          simp only [Option.bind_eq_bind, Option.bind_some]
          by_cases hmany : limit - c.heap.len < data.length
          · rw [if_pos hmany, if_pos (.inr hmany)]
            exact ⟨_, rfl, h.wf, h.stored, h.cap, rfl⟩
          · have hadd : ar.add c.heap.len data.length = some (c.heap.len + data.length) := ha.add (by omega)
            obtain ⟨heap, hheap, hwf, hstored, hlen', hneed, hnew⟩ : ∃ heap, CaptureBuf.room ar junk (fuel + 1)
                (c.heap.len + data.length) c.heap = some heap ∧ _ :=
              CaptureBuf.room_spec ha h.wf (by omega) (by omega) (Nat.le_add_right _ data.length)
            rw [← hlen'] at hneed
            obtain ⟨full, hfull, hwf', hstored', hcap'⟩ := Block.append_spec hwf hneed
            rw [hlen'] at hfull
            rw [if_neg hmany, if_neg (by omega), hadd, ← h.cap]
            simp only [Option.bind_some, hheap, hfull]
            refine ⟨_, rfl, hwf', ?_, hcap'.trans hnew, rfl⟩
            change full.stored = ctx.dataheap ++ data
            rw [hstored', hstored, h.stored]

theorem CaptureBuf.Holds.foldlM (ha : ar.Exact size) {limit : ℕ} (buckets : List (List Piece)) {c : CaptureBuf}
    {ctx : ConnCtx} (h : c.Holds ctx) (hlimit : 2 * limit ≤ size) (hlt : limit < size) (hfuel : limit ≤ fuel) :
    ∃ c', (buckets.map fun pieces => (aprBucketRead pieces).1).foldlM (CaptureBuf.capture ar junk (fuel + 1) limit) c =
        some c' ∧
      c'.Holds (buckets.foldl (fun ctx pieces => (captureBodyBucket limit pieces ctx).1) ctx) := by
  induction buckets generalizing c ctx with
  | nil => exact ⟨c, rfl, h⟩
  | cons pieces buckets ih =>
    obtain ⟨c₁, hstep, h₁⟩ : ∃ c₁, c.capture ar junk (fuel + 1) limit (aprBucketRead pieces).1 = some c₁ ∧ _ :=
      h.capture ha pieces hlimit hlt hfuel
    rw [List.map_cons, List.foldlM_cons, hstep]
    exact ih h₁

private theorem requestBody_isPrefix (conf : SessionConf) (data : Bytes) (o : H3Stream) :
    o.requestBody <+: (onRecvData conf data o).requestBody := by
  unfold onRecvData
  dsimp only
  split_ifs <;> first | exact List.prefix_rfl | exact List.prefix_append ..

private theorem dataheap_isPrefix (limit : ℕ) (pieces : List Piece) (ctx : ConnCtx) :
    ctx.dataheap <+: (captureBodyBucket limit pieces ctx).1.dataheap := by
  unfold captureBodyBucket
  rcases aprBucketRead pieces with ⟨read, rest⟩
  cases read with
  | none => split_ifs <;> exact List.prefix_rfl
  | some data =>
    dsimp only
    split_ifs <;> first | exact List.prefix_rfl | exact List.prefix_append ..

/-- What has been gathered after any chunks, and one chunk more. -/
private theorem request_buffer_runs (ha : ar.Exact size) (hrange : sizeT32 ≤ size) (junk : ℕ → UInt8) {conf : SessionConf}
    {sid : ℤ} (h : Handle) (chunks : List Bytes) (hbidi : h3SidIsBidi sid)
    (hmax : conf.maxRequestBodySize ≤ Config.h3MaxRequestBodySizeMax)
    (hbuf : conf.streamBufferSize ≤ Config.h3StreamBufferSizeMax)
    (hchunks : ∀ data ∈ chunks, data.length ≤ conf.streamBufferSize) (hfuel : conf.maxRequestBodySize ≤ fuel) :
    ∃ b, RequestBuf.recvAll ar junk (fuel + 1) conf.maxRequestBodySize chunks = some b ∧
      b.Holds (chunks.foldl (fun o data => onRecvData conf data o) (.new sid h)) ∧
      b.body.cap ≤ conf.maxRequestBodySize ∧
      ∀ data : Bytes, data.length ≤ conf.streamBufferSize →
        ∃ b', b.recv ar junk (fuel + 1) conf.maxRequestBodySize data = some b' ∧ b.body.stored <+: b'.body.stored ∧
          b'.body.len ≤ b'.body.cap ∧ b'.body.cap ≤ conf.maxRequestBodySize := by
  have hsize : 4294967296 ≤ size := hrange
  have hmax' : conf.maxRequestBodySize ≤ 1073741824 := hmax
  have hbuf' : conf.streamBufferSize ≤ 1048576 := hbuf
  have hsmall : ∀ data : Bytes, data.length ≤ conf.streamBufferSize → conf.maxRequestBodySize + data.length < size := by
    intro data hdata
    omega
  have hstart : RequestBuf.Holds ⟨.empty, false⟩ (.new sid h) := ⟨Block.wf_empty, rfl, rfl, rfl⟩
  obtain ⟨b, hrun, hb, hcap, hbidi'⟩ : ∃ b, RequestBuf.recvAll ar junk (fuel + 1) conf.maxRequestBodySize chunks = some b ∧ _ :=
    hstart.foldlM ha chunks hbidi (Nat.zero_le _) (by omega) (fun data hdata => hsmall data (hchunks data hdata)) hfuel
  refine ⟨b, hrun, hb, hcap, fun data hdata => ?_⟩
  obtain ⟨b', hstep, hb', hcap'⟩ : ∃ b', b.recv ar junk (fuel + 1) conf.maxRequestBodySize data = some b' ∧ _ :=
    hb.recv ha hbidi' (hb.cap ▸ hcap) (by omega) (hsmall data hdata) hfuel
  refine ⟨b', hstep, ?_, hb'.wf.len, hb'.cap ▸ hcap'⟩
  rw [hb.stored, hb'.stored]
  exact requestBody_isPrefix conf data _

private theorem response_buffer_runs (ha : ar.Exact size) (hrange : sizeT32 ≤ size) (junk : ℕ → UInt8) {limit : ℕ}
    (buckets : List (List Piece)) (hlimit : limit ≤ Config.h3MaxResponseBodySizeMax) (hfuel : limit ≤ fuel) :
    ∃ c, CaptureBuf.captureAll ar junk (fuel + 1) limit (buckets.map fun pieces => (aprBucketRead pieces).1) = some c ∧
      c.Holds (buckets.foldl (fun ctx pieces => (captureBodyBucket limit pieces ctx).1) ⟨false, false, [], 0⟩) ∧
      ∀ pieces, ∃ c', c.capture ar junk (fuel + 1) limit (aprBucketRead pieces).1 = some c' ∧
        c.heap.stored <+: c'.heap.stored ∧ c'.heap.len ≤ c'.heap.cap := by
  have hsize : 4294967296 ≤ size := hrange
  have hlimit' : limit ≤ 2147483648 := hlimit
  have hstart : CaptureBuf.Holds ⟨.empty, false⟩ ⟨false, false, [], 0⟩ := ⟨Block.wf_empty, rfl, rfl, rfl⟩
  obtain ⟨c, hrun, hc⟩ : ∃ c, CaptureBuf.captureAll ar junk (fuel + 1) limit
      (buckets.map fun pieces => (aprBucketRead pieces).1) = some c ∧ _ :=
    hstart.foldlM ha buckets (by omega) (by omega) hfuel
  refine ⟨c, hrun, hc, fun pieces => ?_⟩
  obtain ⟨c', hstep, hc'⟩ : ∃ c', c.capture ar junk (fuel + 1) limit (aprBucketRead pieces).1 = some c' ∧ _ :=
    hc.capture ha pieces (by omega) (by omega) hfuel
  refine ⟨c', hstep, ?_, hc'.wf.len⟩
  rw [hc.stored, hc'.stored]
  exact dataheap_isPrefix limit pieces _

end growth

/-- With `size_t` of 32 or 64 bits, and whether a result that wraps is taken or ends the program, both buffers take
every sequence of pieces: the loops end, no copy leaves its block, and the contents are those of the model on lists. -/
theorem doubling_buffers_safe {size : ℕ} (hsize : size = sizeT32 ∨ size = sizeT64) {ar : SizeArith}
    (har : ar = wrapping size ∨ ar = checked size) (junk : ℕ → UInt8) :
    (∀ (conf : SessionConf) (sid : ℤ) (h : Handle) (chunks : List Bytes), h3SidIsBidi sid →
      conf.maxRequestBodySize ≤ Config.h3MaxRequestBodySizeMax →
      conf.streamBufferSize ≤ Config.h3StreamBufferSizeMax →
      (∀ data ∈ chunks, data.length ≤ conf.streamBufferSize) →
      ∃ bound, ∀ fuel, bound ≤ fuel →
        ∃ b, RequestBuf.recvAll ar junk fuel conf.maxRequestBodySize chunks = some b ∧
          b.Holds (chunks.foldl (fun o data => onRecvData conf data o) (.new sid h)) ∧
          b.body.cap ≤ conf.maxRequestBodySize ∧
          ∀ data : Bytes, data.length ≤ conf.streamBufferSize →
            ∃ b', b.recv ar junk fuel conf.maxRequestBodySize data = some b' ∧ b.body.stored <+: b'.body.stored ∧
              b'.body.len ≤ b'.body.cap ∧ b'.body.cap ≤ conf.maxRequestBodySize) ∧
      ∀ (limit : ℕ) (buckets : List (List Piece)), limit ≤ Config.h3MaxResponseBodySizeMax →
        ∃ bound, ∀ fuel, bound ≤ fuel →
          ∃ c, CaptureBuf.captureAll ar junk fuel limit (buckets.map fun pieces => (aprBucketRead pieces).1) = some c ∧
            c.Holds (buckets.foldl (fun ctx pieces => (captureBodyBucket limit pieces ctx).1) ⟨false, false, [], 0⟩) ∧
            ∀ pieces, ∃ c', c.capture ar junk fuel limit (aprBucketRead pieces).1 = some c' ∧
              c.heap.stored <+: c'.heap.stored ∧ c'.heap.len ≤ c'.heap.cap := by
  have ha : ar.Exact size := by
    rcases har with rfl | rfl
    · exact exact_wrapping size
    · exact exact_checked size
  have hrange : sizeT32 ≤ size := by
    rcases hsize with rfl | rfl <;> decide
  constructor
  · intro conf sid h chunks hbidi hmax hbuf hchunks
    refine ⟨conf.maxRequestBodySize + 1, fun fuel hfuel => ?_⟩
    obtain ⟨m, rfl⟩ : ∃ m, fuel = m + 1 := ⟨fuel - 1, by omega⟩
    exact request_buffer_runs ha hrange junk h chunks hbidi hmax hbuf hchunks (Nat.le_of_succ_le_succ hfuel)
  · intro limit buckets hlimit
    refine ⟨limit + 1, fun fuel hfuel => ?_⟩
    obtain ⟨m, rfl⟩ : ∃ m, fuel = m + 1 := ⟨fuel - 1, by omega⟩
    exact response_buffer_runs ha hrange junk buckets hlimit (Nat.le_of_succ_le_succ hfuel)

/-- A limit of three bytes, below the initial capacity, on a machine of 32 bits. -/
theorem doubling_buffers_safe_three :
    ∃ bound, ∀ fuel, bound ≤ fuel →
      ∃ b, RequestBuf.recvAll (checked sizeT32) (fun _ => 0) fuel 3 [[1, 2], [3]] = some b ∧ b.body.cap ≤ 3 := by
  have hsafe := (doubling_buffers_safe (.inl rfl) (.inr rfl) fun _ => 0).1 ⟨100, 40, 3, 8, 512⟩ 0 20 [[1, 2], [3]] rfl
    (by decide) (by decide) (by decide)
  obtain ⟨bound, hsafe⟩ := hsafe
  refine ⟨bound, fun fuel hfuel => ?_⟩
  obtain ⟨b, hrun, -, hcap, -⟩ := hsafe fuel hfuel
  exact ⟨b, hrun, hcap⟩

end ModHttp3.Response
