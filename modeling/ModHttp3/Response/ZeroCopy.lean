import Mathlib.Algebra.GroupWithZero.Nat
import ModHttp3.Response.Refinement

/-! nghttp3 copies no body: it keeps references to the chunks that `h3_session_read_data` handed it until their bytes
are acknowledged. Results are `none` where freed memory would be read. -/
namespace ModHttp3.Response
open Lib LinkedQueue

/-- A buffer in the output of nghttp3: bytes of its own, or a range of a chunk. -/
inductive Vec
  | own (bytes : Bytes)
  | body (chunk : Addr) (offset len : ℕ)
  deriving DecidableEq, Repr

namespace Vec

def isBody : Vec → Bool
  | .own _ => false
  | .body _ _ _ => true

def len : Vec → ℕ
  | .own bytes => bytes.length
  | .body _ _ len => len

/-- What is left of a vector after its first `n` bytes. -/
def skip (n : ℕ) : Vec → Vec
  | .own bytes => .own (bytes.drop n)
  | .body a offset len => .body a (offset + n) (len - n)

/-- The bytes that a reader of the vector finds. -/
def load (q : LinkedQueue Chunk) : Vec → Option Bytes
  | .own bytes => some bytes
  | .body a offset len => (q.mem a).map fun node => (node.val.data.drop offset).take len

end Vec

def loads (q : LinkedQueue Chunk) : List Vec → Option (List Bytes)
  | [] => some []
  | p :: l => do
    let b ← p.load q
    let bs ← loads q l
    return b :: bs

/-- The vectors that `h3_session_read_data` fills, as the pointers they are. -/
def vecLoop : ℕ → Queue → Option (List Vec × Queue)
  | 0, r => some ([], r)
  | veccnt + 1, r =>
    match r.responseSubmitChunk with
    | none => some ([], r)
    | some a => do
      let node ← r.chunks.mem a
      let (vec, r') ← vecLoop veccnt
        { r with responseSubmitChunk := node.next, responseSubmitOffset := 0 }
      return (.body a r.responseSubmitOffset (node.val.len - r.responseSubmitOffset) :: vec, r')

/-- The vectors that `h3_session_read_data` fills, as references into the chunks. -/
def handVecs (veccnt : ℕ) (r : Queue) : Option (List Vec) :=
  if r.responseCancelled then some [] else (vecLoop veccnt r).map Prod.fst

/-- Calls of `on_acked_stream_data`, with these lengths. -/
def ackAll (now : ℤ) (datalens : List ℕ) (r : Queue) : Option Queue :=
  datalens.foldlM (fun r datalen => h3StreamResponseAckLocked now datalen r) r

/-- What is left of buffers after their first `n` bytes. -/
def skipBytes : ℕ → List Vec → List Vec
  | _, [] => []
  | n, p :: l => if n < p.len then p.skip n :: l else skipBytes (n - p.len) l

/-- How many of the first `n` bytes are body bytes. -/
def bodyLen : ℕ → List Vec → ℕ
  | _, [] => 0
  | n, .own bytes :: l => bodyLen (n - bytes.length) l
  | n, .body _ _ len :: l => min n len + bodyLen (n - len) l

/-- The body bytes among the first `n` bytes of the buffers. -/
def payload : ℕ → List Vec → List Bytes → Bytes
  | n, .own _ :: l, b :: bs => payload (n - b.length) l bs
  | n, .body _ _ _ :: l, b :: bs => b.take n ++ payload (n - b.length) l bs
  | _, _, _ => []

/-- The vector for what is unacknowledged of a chunk. -/
def cellVec (c : Cell) : Vec := .body c.1 c.2.acked (c.2.len - c.2.acked)

/-- The bytes of the vectors, if their body is that of the cells. -/
def texts : List Vec → List Cell → List Bytes
  | [], _ => []
  | .own bytes :: l, cells => bytes :: texts l cells
  | .body _ _ _ :: l, cells => (cells.head?.elim [] fun c => c.2.data.drop c.2.acked) :: texts l cells.tail

section
variable {q : LinkedQueue Chunk} {cells : List Cell} {l : List Vec} {n : ℕ}

theorem texts_body (c : Cell) (cells : List Cell) (l : List Vec) :
    texts (cellVec c :: l) (c :: cells) = c.2.data.drop c.2.acked :: texts l cells := rfl

theorem payload_zero (l : List Vec) (bs : List Bytes) : payload 0 l bs = [] := by
  induction l generalizing bs with
  | nil => rfl
  | cons p l ih =>
    cases bs with
    | nil => cases p <;> rfl
    | cons b bs => cases p <;> simp [payload, ih]

/-- The first bytes are in the first buffers. -/
theorem payload_take (count : ℕ) (bs : List Bytes) (hn : n ≤ ((bs.take count).map List.length).sum) :
    payload n (l.take count) (bs.take count) = payload n l bs := by
  induction l generalizing n count bs with
  | nil => rw [List.take_nil, payload, payload] <;> simp
  | cons p l ih =>
    cases bs with
    | nil => simp [payload]
    | cons b bs =>
      cases count with
      | zero =>
        obtain rfl : n = 0 := by simpa using hn
        rw [payload_zero, payload_zero]
      | succ count =>
        rw [List.take_succ_cons, List.map_cons, List.sum_cons] at hn
        have hrest := ih count bs (n := n - b.length) (by omega)
        cases p <;> simp only [List.take_succ_cons, payload, hrest]

theorem loads_take {bs : List Bytes} (h : loads q l = some bs) (count : ℕ) :
    loads q (l.take count) = some (bs.take count) := by
  induction l generalizing count bs with
  | nil =>
    cases h
    simp [loads]
  | cons p l ih =>
    obtain ⟨b, hb, h⟩ := Option.bind_eq_some_iff.mp h
    obtain ⟨bs', hbs, h⟩ := Option.bind_eq_some_iff.mp h
    cases h
    cases count with
    | zero => rfl
    | succ count =>
      rw [List.take_succ_cons, List.take_succ_cons, loads, hb, ih hbs]
      rfl

/-- The references of nghttp3 are to allocated chunks, and find there what was not acknowledged. -/
theorem loads_texts (hmem : ∀ c ∈ cells, ∃ next, q.mem c.1 = some ⟨next, c.2⟩)
    (hwf : ∀ c ∈ cells, c.2.data.length = c.2.len) (hl : l.filter Vec.isBody = cells.map cellVec) :
    loads q l = some (texts l cells) := by
  induction l generalizing cells with
  | nil => rfl
  | cons p l ih =>
    cases p with
    | own bytes =>
      rw [loads, texts, ih hmem hwf hl]
      rfl
    | body a offset len =>
      cases cells with
      | nil => cases hl
      | cons c cells =>
        obtain ⟨hp, hl⟩ := List.cons.inj hl
        obtain ⟨next, hc⟩ := hmem c List.mem_cons_self
        have hload : Vec.load q (cellVec c) = some (c.2.data.drop c.2.acked) := by
          have hlen : (c.2.data.drop c.2.acked).length ≤ c.2.len - c.2.acked := by
            rw [List.length_drop, hwf c List.mem_cons_self]
          unfold cellVec Vec.load
          dsimp only
          rw [hc, Option.map_some, List.take_of_length_le hlen]
        have hrest := ih (fun d hd => hmem d (List.mem_cons_of_mem _ hd))
          (fun d hd => hwf d (List.mem_cons_of_mem _ hd)) hl
        rw [show Vec.body a offset len = cellVec c from hp, loads, hload, hrest, texts_body]
        rfl

end

/-- What is unacknowledged of the cells. -/
def unacked (cells : List Cell) : Bytes := cells.flatMap fun c => c.2.data.drop c.2.acked

section
variable {cells : List Cell} {l : List Vec} {n : ℕ}

theorem bodyLen_zero (l : List Vec) : bodyLen 0 l = 0 := by
  induction l with
  | nil => rfl
  | cons p l ih => cases p <;> simp [bodyLen, ih]

theorem bodyLen_le (n : ℕ) (l : List Vec) : bodyLen n l ≤ ((l.filter Vec.isBody).map Vec.len).sum := by
  induction l generalizing n with
  | nil => exact Nat.le_refl 0
  | cons p l ih =>
    cases p with
    | own bytes => exact ih _
    | body a offset len =>
      have hrest := ih (n - len)
      rw [List.filter_cons_of_pos rfl, List.map_cons, List.sum_cons, Vec.len, bodyLen]
      omega

private theorem sum_cellVec (hwf : ∀ c ∈ cells, c.2.data.length = c.2.len) :
    ((cells.map cellVec).map Vec.len).sum = (unacked cells).length := by
  induction cells with
  | nil => rfl
  | cons c cells ih =>
    have hlen : (cellVec c).len = (c.2.data.drop c.2.acked).length := by
      rw [List.length_drop, hwf c List.mem_cons_self]
      rfl
    have hrest := ih fun d hd => hwf d (List.mem_cons_of_mem _ hd)
    rw [List.map_cons, List.map_cons, List.sum_cons, hlen, hrest, ← List.length_append]
    rfl

theorem sum_skipBytes (hn : n ≤ (l.map Vec.len).sum) : ((skipBytes n l).map Vec.len).sum + n = (l.map Vec.len).sum := by
  induction l generalizing n with
  | nil =>
    obtain rfl : n = 0 := Nat.le_zero.mp hn
    rfl
  | cons p l ih =>
    rw [List.map_cons, List.sum_cons] at hn ⊢
    rw [skipBytes]
    split_ifs with hlt
    · have hskip : (p.skip n).len = p.len - n := by
        cases p with
        | own bytes => exact List.length_drop
        | body a offset len => rfl
      rw [List.map_cons, List.sum_cons, hskip]
      omega
    · have hrest := ih (n := n - p.len) (by omega)
      omega

/-- The body bytes that the buffers have are those that the cells have. -/
theorem payload_texts (n : ℕ) (hwf : ∀ c ∈ cells, c.2.data.length = c.2.len)
    (hl : l.filter Vec.isBody = cells.map cellVec) : payload n l (texts l cells) = (unacked cells).take (bodyLen n l) := by
  induction l generalizing n cells with
  | nil => rfl
  | cons p l ih =>
    cases p with
    | own bytes => exact ih _ hwf hl
    | body a offset len =>
      cases cells with
      | nil => cases hl
      | cons c cells =>
        obtain ⟨hp, hbodies⟩ := List.cons.inj hl
        obtain ⟨rfl, rfl, rfl⟩ : a = c.1 ∧ offset = c.2.acked ∧ len = c.2.len - c.2.acked := by simpa [cellVec] using hp
        have hlen : (c.2.data.drop c.2.acked).length = c.2.len - c.2.acked := by
          rw [List.length_drop, hwf c List.mem_cons_self]
        have hrest := ih (n - (c.2.len - c.2.acked)) (fun d hd => hwf d (List.mem_cons_of_mem _ hd)) hbodies
        have hun : unacked (c :: cells) = c.2.data.drop c.2.acked ++ unacked cells := rfl
        rw [show Vec.body c.1 c.2.acked (c.2.len - c.2.acked) = cellVec c from rfl, texts_body, hun]
        change (c.2.data.drop c.2.acked).take n ++ payload (n - (c.2.data.drop c.2.acked).length) l (texts l cells) =
          List.take (min n (c.2.len - c.2.acked) + bodyLen (n - (c.2.len - c.2.acked)) l) _
        rw [hlen, hrest]
        rcases Nat.lt_or_ge n (c.2.len - c.2.acked) with hlt | hge
        · rw [Nat.sub_eq_zero_of_le hlt.le, bodyLen_zero, List.take_zero, List.append_nil, Nat.min_eq_left hlt.le,
            Nat.add_zero, List.take_append_of_le_length (by omega)]
        · rw [Nat.min_eq_right hge, List.take_of_length_le (by omega), ← hlen, List.take_length_add_append, hlen]

end

/-- Acknowledgements leave the flags alone. -/
structure SameFlags (r r' : Queue) : Prop where
  limit : r'.responseBufferLimit = r.responseBufferLimit
  cancelled : r'.responseCancelled = r.responseCancelled
  complete : r'.responseComplete = r.responseComplete

/-- The output of nghttp3 has the unacknowledged body of the chunks that were handed out, in their order. -/
def Refers (l : List Vec) (cells : List Cell) (k : ℕ) : Prop :=
  l.filter Vec.isBody = (cells.take k).map cellVec

section
variable {r : Queue} {b : Transfer UInt8} {gone : Bytes} {cells : List Cell} {k : ℕ}

theorem SameFlags.trans {r r₁ r₂ : Queue} (h : SameFlags r r₁) (h' : SameFlags r₁ r₂) : SameFlags r r₂ :=
  ⟨h'.limit.trans h.limit, h'.cancelled.trans h.cancelled, h'.complete.trans h.complete⟩

theorem Refers.cons_body {l : List Vec} {a : Addr} {offset len : ℕ}
    (h : Refers (.body a offset len :: l) cells k) :
    ∃ c rest j, cells = c :: rest ∧ k = j + 1 ∧ .body a offset len = cellVec c ∧ Refers l rest j := by
  unfold Refers at h
  rw [List.filter_cons_of_pos rfl] at h
  cases cells with
  | nil => cases k <;> cases h
  | cons c rest =>
    cases k with
    | zero => cases h
    | succ j =>
      obtain ⟨hp, hl⟩ := List.cons.inj h
      exact ⟨c, rest, j, rfl, rfl, hp, hl⟩

/-- When the buffers and the cells move on by the same body bytes, the buffers still refer to the cells. -/
theorem Refers.skip {l : List Vec} (hl : Refers l cells k) (hwf : ∀ c ∈ cells, c.2.acked < c.2.len) (n : ℕ) :
    Refers (skipBytes n l) (ackCells (bodyLen n l) cells k).1 (ackCells (bodyLen n l) cells k).2 := by
  induction l generalizing n cells k with
  | nil =>
    rw [bodyLen, ackCells_zero hwf]
    exact hl
  | cons p l ih =>
    rw [skipBytes]
    cases p with
    | own bytes =>
      rw [bodyLen, Vec.len]
      split_ifs with hlt
      · rw [Nat.sub_eq_zero_of_le hlt.le, bodyLen_zero, ackCells_zero hwf]
        exact hl
      · exact ih hl hwf _
    | body a offset len =>
      obtain ⟨c, rest, j, rfl, rfl, hp, hrest⟩ := hl.cons_body
      obtain ⟨rfl, rfl, rfl⟩ : a = c.1 ∧ offset = c.2.acked ∧ len = c.2.len - c.2.acked := by simpa [cellVec] using hp
      rw [bodyLen, Vec.len]
      split_ifs with hlt
      · rw [Nat.min_eq_left hlt.le, Nat.sub_eq_zero_of_le hlt.le, bodyLen_zero, Nat.add_zero, ackCells, if_pos hlt]
        unfold Refers at hrest ⊢
        rw [List.take_succ_cons, List.map_cons, ← hrest, cellVec, Vec.skip, Nat.sub_sub]
        exact List.filter_cons_of_pos rfl
      · have hge := Nat.le_of_not_lt hlt
        rw [Nat.min_eq_right hge, ackCells, if_neg (by omega), Nat.add_sub_cancel_left]
        exact ih hrest (fun d hd => hwf d (List.mem_cons_of_mem _ hd)) _

/-- What was handed out and is not acknowledged is the rest of the chunks. -/
theorem Refines.drop_acked (h : Refines r b gone cells k) : b.handed.drop b.acked = unacked (cells.take k) := by
  have hfresh : ∀ l : List Cell, (∀ c ∈ l, c.2.acked = 0) → unacked l = contents l := by
    intro l hl
    induction l with
    | nil => rfl
    | cons c l ih =>
      have hrest := ih fun d hd => hl d (List.mem_cons_of_mem _ hd)
      have hdata : c.2.data.drop c.2.acked = c.2.data := by rw [hl c List.mem_cons_self, List.drop_zero]
      rw [contents_cons, ← hrest, ← hdata]
      rfl
  rw [h.handed, h.acked, ← List.drop_drop, List.drop_left]
  cases cells with
  | nil =>
    rw [List.take_nil]
    rfl
  | cons c cells =>
    cases k with
    | zero =>
      rw [List.take_zero]
      exact List.drop_nil
    | succ k =>
      obtain ⟨hdata, hacked⟩ := h.wf c List.mem_cons_self
      rw [List.take_succ_cons, contents_cons, headAcked_cons, List.drop_append_of_le_length (by omega),
        ← hfresh (cells.take k) fun d hd => h.fresh d (List.mem_of_mem_take hd)]
      rfl

/-- The body bytes that the buffers have are those that were handed out and not acknowledged. -/
theorem Refines.unacked_length (h : Refines r b gone cells k) {l : List Vec} (hl : Refers l cells k) :
    ((l.filter Vec.isBody).map Vec.len).sum = b.handed.length - b.acked := by
  rw [hl, sum_cellVec fun c hc => (h.wf c (List.mem_of_mem_take hc)).1, ← h.drop_acked, List.length_drop]

/-- However the acknowledged bytes are divided over the calls. -/
theorem Refines.ackAll (h : Refines r b gone cells k) (now : ℤ) (datalens : List ℕ)
    (hle : b.acked + datalens.sum ≤ b.handed.length) :
    ∃ r' gone', ackAll now datalens r = some r' ∧ SameFlags r r' ∧
      Refines r' (b.ack datalens.sum hle) gone' (ackCells datalens.sum cells k).1 (ackCells datalens.sum cells k).2 := by
  induction datalens generalizing r b gone cells k with
  | nil =>
    obtain ⟨r', gone', hr, href, hctl⟩ := h.ack_nothing now 0 hle
    rw [ackLoop, if_pos rfl] at hr
    cases hr
    exact ⟨r, gone', rfl, ⟨rfl, rfl, rfl⟩, href⟩
  | cons m datalens ih =>
    have hsum : b.acked + m + datalens.sum ≤ b.handed.length := by
      rw [List.sum_cons] at hle
      omega
    have hm : b.acked + m ≤ b.handed.length := by omega
    obtain ⟨r₁, gone₁, hr₁, href, hctl⟩ := ackLoop_refines now m m le_rfl h hm
    obtain ⟨r', gone', hr', hflags, href'⟩ := ih href hsum
    obtain ⟨hlimit, hcancelled, hcomplete⟩ := ackLocked_flags now m r.toResponseCtl
    rw [← hctl] at hlimit hcancelled hcomplete
    refine ⟨r', gone', ?_, SameFlags.trans ⟨hlimit, hcancelled, hcomplete⟩ hflags, ?_⟩
    · unfold Response.ackAll at hr' ⊢
      rw [List.foldlM_cons, h3StreamResponseAckLocked, hr₁]
      exact hr'
    · rw [← ackCells_add, Transfer.ack_ack b m datalens.sum hm hsum hle] at href'
      exact href'

/-- A chunk that was not handed out has nothing acknowledged. -/
theorem Refines.acked_drop (h : Refines r b gone cells k) {c : Cell} (hc : c ∈ cells.drop k) : c.2.acked = 0 := by
  cases k with
  | zero =>
    have hle := b.acked_le
    rw [h.acked, h.handed, List.take_zero, contents_nil, List.append_nil] at hle
    cases cells with
    | nil => cases hc
    | cons d cells =>
      rcases List.mem_cons.mp hc with rfl | hc
      · rw [headAcked_cons] at hle
        omega
      · exact h.fresh c hc
  | succ k =>
    rw [← List.drop_tail] at hc
    exact h.fresh c (List.mem_of_mem_drop hc)

/-- The vectors refer to the chunks from the cursor on. -/
theorem vecLoop_refines (h : Refines r b gone cells k) (v : ℕ) :
    (vecLoop v r).map Prod.fst = some (((cells.drop k).take v).map cellVec) := by
  induction v generalizing r b k with
  | zero => rfl
  | succ v ih =>
    rcases h.submit_le.lt_or_eq with hlt | heq
    · have hget : cells[k]? = some (cells[k].1, cells[k].2) := List.getElem?_eq_getElem hlt
      have hload := h.rep.load hget
      have hsub : r.responseSubmitChunk = some cells[k].1 := by
        rw [h.submit, cursor, hget]
        rfl
      have hzero := h.acked_drop (c := cells[k]) (by
        rw [List.drop_eq_getElem_cons hlt]
        exact List.mem_cons_self)
      obtain ⟨x, hx, hvec⟩ := Option.map_eq_some_iff.mp (ih (h.advance (v := 1) hlt))
      rw [List.drop_eq_getElem_cons hlt, List.take_succ_cons, List.map_cons, ← hvec]
      simp only [vecLoop, hsub, hload, Option.bind_eq_bind, Option.bind_some, h.offset, hx, cellVec, hzero,
        Option.pure_def, Option.map_some]
    · have hsub : r.responseSubmitChunk = none := by
        rw [h.submit, heq]
        simp [cursor]
      simp [vecLoop, hsub, heq]

theorem Refers.concat {l : List Vec} (hl : Refers l cells k) (header : Bytes) (v : ℕ) :
    Refers (l ++ .own header :: ((cells.drop k).take v).map cellVec) cells
      (k + min v (cells.length - k)) := by
  unfold Refers at hl ⊢
  have hbodies : (((cells.drop k).take v).map cellVec).filter Vec.isBody =
      ((cells.drop k).take v).map cellVec := by
    rw [List.filter_eq_self]
    intro p hp
    obtain ⟨c, -, rfl⟩ := List.mem_map.mp hp
    rfl
  have htake : (cells.drop k).take v = (cells.drop k).take (min v (cells.length - k)) := by
    rw [← List.length_drop, ← List.take_eq_take_min]
  rw [List.filter_append, List.filter_cons_of_neg Bool.false_ne_true, hbodies, hl, htake, List.take_add, List.map_append]

end

end ModHttp3.Response
