import ModHttp3.Session.Callbacks
import Mathlib.Data.List.TakeWhile

/-! The body of a request: what `on_recv_data` gathers, and what `serve_request_body` hands out
of it in the four reading modes. -/
namespace ModHttp3.Request
open Session

/-- `ap_input_mode_t`. -/
inductive InputMode
  | readbytes
  | getline
  | eatcrlf
  | speculative
  | exhaustive
  | init
  deriving DecidableEq, Repr

/-- The modes in which there is something to do. -/
def InputMode.serves : InputMode → Bool
  | .readbytes | .getline | .exhaustive | .speculative => true
  | .eatcrlf | .init => false

inductive Bucket
  | data (bytes : Bytes)
  | eos
  deriving DecidableEq, Repr

/-- The gathered body, and how far it has been read. -/
structure BodyReader where
  requestBody : Bytes
  requestBodyOffset : ℕ
  offset_le : requestBodyOffset ≤ requestBody.length

structure ReadCall where
  mode : InputMode
  readbytes : Int64

namespace BodyReader

def start (body : Bytes) : BodyReader := ⟨body, 0, Nat.zero_le _⟩

def avail (r : BodyReader) : ℕ := r.requestBody.length - r.requestBodyOffset

def unread (r : BodyReader) : Bytes := r.requestBody.drop r.requestBodyOffset

/-- `avail`, limited to a positive `readbytes`. -/
def limited (readbytes : Int64) (avail : ℕ) : ℕ :=
  if 0 < readbytes ∧ readbytes.toUInt64.toNat < avail then readbytes.toUInt64.toNat else avail

def want (r : BodyReader) (c : ReadCall) : ℕ :=
  match c.mode with
  | .readbytes | .speculative => limited c.readbytes r.avail
  | .getline => ((r.unread.findIdx? (· == 10)).map (· + 1)).getD r.avail
  | _ => r.avail

theorem length_unread (r : BodyReader) : r.unread.length = r.avail := List.length_drop

theorem limited_le (readbytes : Int64) (avail : ℕ) : limited readbytes avail ≤ avail := by
  unfold limited
  split_ifs with hless
  · exact Nat.le_of_lt hless.2
  · exact Nat.le_refl _

theorem want_le (r : BodyReader) (c : ReadCall) : r.want c ≤ r.avail := by
  unfold want
  cases c.mode with
  | readbytes => exact limited_le _ _
  | speculative => exact limited_le _ _
  | getline =>
    cases hnl : r.unread.findIdx? (· == 10) with
    | none => exact Nat.le_refl _
    | some nl =>
      obtain ⟨hlt, -⟩ := List.findIdx?_eq_some_iff_getElem.mp hnl
      rwa [length_unread] at hlt
  | _ => exact Nat.le_refl _

def advance (r : BodyReader) (c : ReadCall) : BodyReader where
  requestBody := r.requestBody
  requestBodyOffset := r.requestBodyOffset + r.want c
  offset_le := by
    have hwant := r.want_le c
    have hoff := r.offset_le
    unfold avail at hwant
    omega

/-- The buckets put at the end of the brigade, and the reader after the call. -/
def serveRequestBody (r : BodyReader) (c : ReadCall) : List Bucket × BodyReader :=
  if !c.mode.serves then ([], r)
  else if r.avail = 0 then ([.eos], r)
  else
    let b := .data (r.unread.take (r.want c))
    if c.mode = .speculative then ([b], r)
    else
      let r := r.advance c
      (b :: if r.requestBody.length ≤ r.requestBodyOffset then [.eos] else [], r)

/-- A sequence of calls of `h3_filter_in_proto` for one request, with what each one returns. -/
def serveAll : BodyReader → List ReadCall → List (List Bucket)
  | _, [] => []
  | r, c :: cs => (r.serveRequestBody c).1 :: serveAll (r.serveRequestBody c).2 cs

end BodyReader

/-! What the calls are for: reading from the front of what is left. -/

/-- The bytes up to and including the first line feed. -/
def lineOf (unread : Bytes) : Bytes := unread.takeWhile (· != 10) ++ (unread.dropWhile (· != 10)).take 1

def taken (unread : Bytes) (c : ReadCall) : Bytes :=
  match c.mode with
  | .readbytes | .speculative => if 0 < c.readbytes then unread.take c.readbytes.toInt.toNat else unread
  | .getline => lineOf unread
  | _ => unread

/-- What is left for the calls that follow. -/
def leftBy (unread : Bytes) (c : ReadCall) : Bytes :=
  if c.mode = .speculative then unread else unread.drop (taken unread c).length

def Bucket.bytes : Bucket → Bytes
  | .data bytes => bytes
  | .eos => []

def dataOf (buckets : List Bucket) : Bytes := buckets.flatMap Bucket.bytes

/-- The data that the calls other than speculative ones have returned. -/
def consumed : List ReadCall → List (List Bucket) → Bytes
  | c :: cs, out :: outs => (if c.mode = .speculative then [] else dataOf out) ++ consumed cs outs
  | _, _ => []

section
variable {conf : SessionConf} {r : BodyReader} {c : ReadCall}

theorem toNat_toUInt64 {n : Int64} (hn : 0 < n) : n.toUInt64.toNat = n.toInt.toNat := by
  have hpos : 0 < n.toInt := Int64.lt_iff_toInt_lt.mp hn
  rw [← Int64.toNat_toBitVec]
  simp only [Int64.toInt, BitVec.toInt] at hpos ⊢
  omega

private theorem take_findIdx_succ {unread : Bytes} {nl : ℕ} (h : unread.findIdx? (· == 10) = some nl) :
    unread.take (nl + 1) = lineOf unread := by
  unfold lineOf
  induction unread generalizing nl with
  | nil => cases h
  | cons x xs ih =>
    rw [List.findIdx?_cons] at h
    by_cases hx : (x == 10) = true
    · rw [if_pos hx] at h
      cases h
      simp [beq_iff_eq.mp hx]
    · rw [if_neg hx] at h
      obtain ⟨k, hk, rfl⟩ := Option.map_eq_some_iff.mp h
      have hne : x ≠ 10 := by simpa using hx
      simp [hne, ih hk]

private theorem lineOf_of_none {unread : Bytes} (h : unread.findIdx? (· == 10) = none) : lineOf unread = unread := by
  have hall : ∀ x ∈ unread, (x != 10) = true := by
    intro x hx
    have hne := List.findIdx?_eq_none_iff.mp h x hx
    simpa using hne
  unfold lineOf
  rw [List.takeWhile_eq_self_iff.mpr hall, List.dropWhile_eq_nil_iff.mpr hall]
  exact List.append_nil _

theorem take_limited {readbytes : Int64} {unread : Bytes} :
    unread.take (BodyReader.limited readbytes unread.length) =
      if 0 < readbytes then unread.take readbytes.toInt.toNat else unread := by
  unfold BodyReader.limited
  split_ifs with hless hpos hpos
  · rw [toNat_toUInt64 hpos]
  · exact absurd hless.1 hpos
  · have hmany : unread.length ≤ readbytes.toUInt64.toNat := Nat.not_lt.mp fun h => hless ⟨hpos, h⟩
    rw [toNat_toUInt64 hpos] at hmany
    rw [List.take_length, List.take_of_length_le hmany]
  · exact List.take_length

theorem take_want (r : BodyReader) (c : ReadCall) : r.unread.take (r.want c) = taken r.unread c := by
  unfold BodyReader.want taken
  rw [← r.length_unread]
  cases c.mode with
  | readbytes => exact take_limited
  | speculative => exact take_limited
  | getline =>
    cases hnl : r.unread.findIdx? (· == 10) with
    | none => exact List.take_length.trans (lineOf_of_none hnl).symm
    | some nl => exact take_findIdx_succ hnl
  | _ => exact List.take_length

private theorem taken_nil (c : ReadCall) : taken [] c = [] := by
  unfold taken
  cases c.mode with
  | readbytes | speculative =>
    dsimp only
    rw [List.take_nil, ite_self]
  | _ => rfl

theorem length_taken (r : BodyReader) (c : ReadCall) : (taken r.unread c).length = r.want c := by
  rw [← take_want, List.length_take, r.length_unread]
  exact Nat.min_eq_left (r.want_le c)

theorem advance_unread (r : BodyReader) (c : ReadCall) :
    (r.advance c).unread = r.unread.drop (taken r.unread c).length := by
  rw [length_taken]
  exact List.drop_drop.symm

private theorem unread_eq_nil_iff (r : BodyReader) : r.unread = [] ↔ r.requestBody.length ≤ r.requestBodyOffset :=
  List.drop_eq_nil_iff

/-- A call returns the bytes taken from the front of what is unread, and the end of the body once
nothing is left. -/
theorem serveRequestBody_spec (r : BodyReader) (hc : c.mode.serves) :
    (r.serveRequestBody c).2.unread = leftBy r.unread c ∧
      dataOf (r.serveRequestBody c).1 = taken r.unread c ∧
      (.eos ∈ (r.serveRequestBody c).1 ↔ leftBy r.unread c = []) := by
  have havail : r.avail = 0 ↔ r.unread = [] := by
    rw [← r.length_unread, List.length_eq_zero_iff]
  unfold BodyReader.serveRequestBody leftBy
  rw [hc]
  by_cases hempty : r.unread = []
  · simp [havail.mpr hempty, hempty, taken_nil, dataOf, Bucket.bytes]
  · have hsome : r.avail ≠ 0 := fun h => hempty (havail.mp h)
    by_cases hspec : c.mode = .speculative
    · simp [hsome, hspec, hempty, take_want, dataOf, Bucket.bytes]
    · have hend := unread_eq_nil_iff (r.advance c)
      rw [advance_unread] at hend
      by_cases hlast : (r.advance c).requestBody.length ≤ (r.advance c).requestBodyOffset
      · simp [hsome, hspec, hlast, hend.mpr hlast, advance_unread, take_want, dataOf, Bucket.bytes]
      · have hleft := mt hend.mp hlast
        simp [hsome, hspec, hlast, hleft, advance_unread, take_want, dataOf, Bucket.bytes]

/-- The bytes taken and what is left make up what was unread. -/
theorem taken_append_leftBy (unread : Bytes) (c : ReadCall) :
    (if c.mode = .speculative then [] else taken unread c) ++ leftBy unread c = unread := by
  unfold leftBy
  split_ifs
  · rfl
  · have htake := take_want (.start unread) c
    have hlen := length_taken (.start unread) c
    change unread.take _ = taken unread c at htake
    change (taken unread c).length = _ at hlen
    rw [← hlen] at htake
    calc taken unread c ++ unread.drop (taken unread c).length
        = unread.take (taken unread c).length ++ unread.drop (taken unread c).length := by rw [htake]
      _ = unread := List.take_append_drop _ _

private theorem serve_speculative (r : BodyReader) (readbytes : Int64) :
    (r.serveRequestBody ⟨.speculative, readbytes⟩).2 = r := by
  unfold BodyReader.serveRequestBody
  by_cases hnone : r.avail = 0 <;> simp [InputMode.serves, hnone]

theorem consumed_nil (outs : List (List Bucket)) : consumed [] outs = [] := by
  unfold consumed
  rfl

variable {cs : List ReadCall}

private theorem unread_eq_consumed_append (hcs : ∀ c ∈ cs, c.mode.serves) (r : BodyReader) {k : ℕ} {c : ReadCall}
    {out : List Bucket} (hc : cs[k]? = some c) (hout : (r.serveAll cs)[k]? = some out) :
    ∃ unread, r.unread = consumed (cs.take k) ((r.serveAll cs).take k) ++ unread ∧
      r.unread = consumed (cs.take (k + 1)) ((r.serveAll cs).take (k + 1)) ++ leftBy unread c ∧
      dataOf out = taken unread c ∧ (.eos ∈ out ↔ leftBy unread c = []) := by
  induction cs generalizing r k with
  | nil => cases hc
  | cons c₀ cs ih =>
    obtain ⟨hleft, hdata, heos⟩ := serveRequestBody_spec r (hcs c₀ List.mem_cons_self)
    have happend := taken_append_leftBy r.unread c₀
    unfold BodyReader.serveAll at hout ⊢
    cases k with
    | zero =>
      cases hc
      cases hout
      refine ⟨r.unread, rfl, ?_, hdata, heos⟩
      simp only [List.take_succ_cons, List.take_zero, consumed, List.append_nil, hdata]
      exact happend.symm
    | succ k =>
      obtain ⟨unread, hbefore, hthrough, hrest⟩ :=
        ih (fun c hc => hcs c (List.mem_cons_of_mem _ hc)) (r.serveRequestBody c₀).2 hc hout
      rw [hleft] at hbefore hthrough
      refine ⟨unread, ?_, ?_, hrest⟩
      · simp only [List.take_succ_cons, consumed, hdata, List.append_assoc]
        rw [← hbefore]
        exact happend.symm
      · rw [List.take_succ_cons, List.take_succ_cons]
        simp only [consumed, hdata, List.append_assoc]
        rw [← hthrough]
        exact happend.symm

private theorem consumed_isPrefix (hcs : ∀ c ∈ cs, c.mode.serves) (r : BodyReader) (k : ℕ) :
    consumed (cs.take k) ((r.serveAll cs).take k) <+: r.unread := by
  induction cs generalizing r k with
  | nil =>
    rw [List.take_nil, consumed_nil]
    exact List.nil_prefix
  | cons c cs ih =>
    obtain ⟨hleft, hdata, -⟩ := serveRequestBody_spec r (hcs c List.mem_cons_self)
    cases k with
    | zero =>
      rw [List.take_zero, consumed_nil]
      exact List.nil_prefix
    | succ k =>
      have hrest := ih (fun c hc => hcs c (List.mem_cons_of_mem _ hc)) (r.serveRequestBody c).2 k
      rw [hleft] at hrest
      rw [← taken_append_leftBy r.unread c]
      unfold BodyReader.serveAll
      simp only [List.take_succ_cons, consumed, hdata]
      exact (List.prefix_append_right_inj _).mpr hrest

/-- A speculative call does not change what the others return. -/
private theorem serveAll_speculative (r : BodyReader) (cs₁ : List ReadCall) (readbytes : Int64) (cs₂ : List ReadCall) :
    (r.serveAll (cs₁ ++ ⟨.speculative, readbytes⟩ :: cs₂)).eraseIdx cs₁.length = r.serveAll (cs₁ ++ cs₂) := by
  induction cs₁ generalizing r with
  | nil =>
    change ((r.serveRequestBody _).1 :: (r.serveRequestBody _).2.serveAll cs₂).eraseIdx 0 = r.serveAll cs₂
    rw [serve_speculative]
    rfl
  | cons c cs₁ ih => exact congrArg (_ :: ·) (ih _)

/-- What has been gathered is in the buffer. -/
structure Gathered (body : Bytes) (o : H3Stream) : Prop where
  bidi : o.isBidi
  fits : o.requestBodyOverflow = false
  body : o.requestBody = body
  capacity : o.requestBody.length ≤ o.requestBodyCapacity

private theorem gathered_new {sid : ℤ} (h : Handle) (hbidi : h3SidIsBidi sid) : Gathered [] (.new sid h) :=
  ⟨hbidi, rfl, rfl, Nat.le_refl _⟩

theorem Gathered.recv {body data : Bytes} {o : H3Stream} (hg : Gathered body o)
    (hsize : (body ++ data).length ≤ conf.maxRequestBodySize) :
    Gathered (body ++ data) (onRecvData conf data o) := by
  have hfits : ¬ conf.maxRequestBodySize < o.requestBody.length + data.length := by
    rw [List.length_append] at hsize
    rw [hg.body]
    exact Nat.not_lt.mpr hsize
  have hstart : 0 < if o.requestBodyCapacity = 0 then h3BodyBufInitCap else o.requestBodyCapacity := by
    split_ifs with hzero
    · decide
    · exact Nat.pos_of_ne_zero hzero
  unfold onRecvData
  by_cases hnone : !o.isBidi ∨ data.length = 0
  · have hnil : data = [] := by
      rcases hnone with hb | hd
      · rw [hg.bidi] at hb
        cases hb
      · exact List.length_eq_zero_iff.mp hd
    rw [if_pos hnone, hnil, List.append_nil]
    exact hg
  · dsimp only
    rw [if_neg hnone, if_neg (Bool.not_eq_true _ ▸ hg.fits), if_neg hfits]
    refine ⟨hg.bidi, hg.fits, by rw [← hg.body], ?_⟩
    rw [List.length_append]
    by_cases hgrow : o.requestBodyCapacity < o.requestBody.length + data.length
    · dsimp only
      rw [if_pos hgrow]
      exact Nat.le_min.mpr ⟨le_growCap hstart (Nat.le_add_left _ _), Nat.not_lt.mp hfits⟩
    · dsimp only
      rw [if_neg hgrow]
      exact Nat.not_lt.mp hgrow

private theorem gathered_foldl (chunks : List Bytes) {body : Bytes} {o : H3Stream} (hg : Gathered body o)
    (hsize : (body ++ chunks.flatten).length ≤ conf.maxRequestBodySize) :
    Gathered (body ++ chunks.flatten) (chunks.foldl (fun o data => onRecvData conf data o) o) := by
  induction chunks generalizing body o with
  | nil =>
    rw [List.flatten_nil, List.append_nil]
    exact hg
  | cons data chunks ih =>
    rw [List.flatten_cons, ← List.append_assoc] at hsize ⊢
    apply ih _ hsize
    apply hg.recv
    rw [List.length_append] at hsize
    exact Nat.le_trans (Nat.le_add_right _ _) hsize

/-- However the body arrives and is read, the reading calls return its bytes in order, and the end
exactly when nothing is left. -/
theorem request_body_served {sid : ℤ} (h : Handle) (hbidi : h3SidIsBidi sid) (chunks : List Bytes)
    (hsize : chunks.flatten.length ≤ conf.maxRequestBodySize) :
    let o := chunks.foldl (fun o data => onRecvData conf data o) (.new sid h)
    o.requestBody = chunks.flatten ∧ o.requestBodyOverflow = false ∧
    o.requestBody.length ≤ o.requestBodyCapacity ∧
    ∀ calls : List ReadCall, (∀ c ∈ calls, c.mode.serves) →
      let outs := (BodyReader.start o.requestBody).serveAll calls
      (∀ k, consumed (calls.take k) (outs.take k) <+: chunks.flatten) ∧
      (∀ k c out, calls[k]? = some c → outs[k]? = some out →
        (.eos ∈ out ↔ consumed (calls.take (k + 1)) (outs.take (k + 1)) = chunks.flatten) ∧
        ∃ unread, chunks.flatten = consumed (calls.take k) (outs.take k) ++ unread ∧
          (c.mode = .getline → dataOf out = lineOf unread) ∧
          (c.mode = .readbytes ∨ c.mode = .speculative → 0 < c.readbytes →
            dataOf out = unread.take c.readbytes.toInt.toNat ∧
            (dataOf out).length = min c.readbytes.toInt.toNat unread.length)) ∧
      (∀ cs₁ readbytes cs₂, calls = cs₁ ++ ⟨.speculative, readbytes⟩ :: cs₂ →
        outs.eraseIdx cs₁.length = (BodyReader.start o.requestBody).serveAll (cs₁ ++ cs₂)) := by
  intro o
  have hg : Gathered chunks.flatten o := gathered_foldl chunks (gathered_new h hbidi) hsize
  refine ⟨hg.body, hg.fits, hg.capacity, fun calls hcalls => ?_⟩
  rw [hg.body]
  have hstart : (BodyReader.start chunks.flatten).unread = chunks.flatten := rfl
  refine ⟨fun k => ?_, fun k c out hc hout => ?_, ?_⟩
  · exact hstart ▸ consumed_isPrefix hcalls _ k
  · obtain ⟨unread, hbefore, hthrough, hdata, heos⟩ := unread_eq_consumed_append hcalls _ hc hout
    rw [hstart] at hbefore hthrough
    refine ⟨?_, unread, hbefore, ?_, ?_⟩
    · rw [heos]
      constructor
      · intro hnil
        rw [hnil, List.append_nil] at hthrough
        exact hthrough.symm
      · intro hall
        rw [hall] at hthrough
        exact List.self_eq_append_right.mp hthrough
    · intro hmode
      rw [hdata, taken, hmode]
    · intro hmode hpos
      have htake : taken unread c = unread.take c.readbytes.toInt.toNat := by
        unfold taken
        rcases hmode with hmode | hmode <;> rw [hmode] <;> exact if_pos hpos
      rw [hdata, htake]
      exact ⟨rfl, List.length_take⟩
  · rintro cs₁ readbytes cs₂ rfl
    exact serveAll_speculative _ cs₁ readbytes cs₂

end

def sampleBodyConf : SessionConf := ⟨100, 40, 1024, 8, 512⟩

/-- A line, a look ahead, and the rest in two reads. -/
def sampleReads : List ReadCall := [⟨.getline, 0⟩, ⟨.speculative, 1⟩, ⟨.readbytes, 1⟩, ⟨.exhaustive, 0⟩]

theorem request_body_served_twoChunks :
    let o := [[97, 10, 98], [99]].foldl (fun o data => onRecvData sampleBodyConf data o) (.new 0 20)
    o.requestBody = [97, 10, 98, 99] ∧
    (BodyReader.start o.requestBody).serveAll sampleReads =
      [[.data [97, 10]], [.data [98]], [.data [98]], [.data [99], .eos]] ∧
    consumed sampleReads ((BodyReader.start o.requestBody).serveAll sampleReads) <+: [97, 10, 98, 99] := by
  have hspec := request_body_served 20 (show h3SidIsBidi 0 by decide) [[97, 10, 98], [99]]
    (show _ ≤ sampleBodyConf.maxRequestBodySize by decide)
  refine ⟨hspec.1, by decide +kernel, ?_⟩
  exact (hspec.2.2.2 sampleReads (by decide)).1 4

end ModHttp3.Request
