import ModHttp3.Request.Build
import Mathlib.Data.List.TakeWhile

/-! Which of the received fields are in the header table of the request. -/
namespace ModHttp3.Request
open Session Lib

def regularFields (fields : List HeaderField) : List HeaderField := fields.filter fun f => f.token = .regular

def entriesOf (fields : List HeaderField) : Table := (regularFields fields).map fun f => (f.name, f.value)

/-- Neither too many nor too long fields. -/
def withinLimits (conf : SessionConf) (fields : List HeaderField) : Prop :=
  (0 < conf.limitReqFields → (regularFields fields).length ≤ conf.limitReqFields) ∧
    ∀ f ∈ regularFields fields, fieldOversized conf f = false

def separator (name : Bytes) : Bytes := if name = ascii "cookie" then ascii "; " else ascii ", "

/-- The values of a field joined as httpd joins those of repeated HTTP/1.1 fields. -/
def joinValues (name : Bytes) (values : List Bytes) : Option Bytes :=
  if values.isEmpty then none else some ((separator name).intercalate values)

/-- Every field name has all its values in the table. -/
def allValuesIn (t : Table) (fields : List HeaderField) : Prop :=
  ∀ e ∈ entriesOf fields, joinValues (foldCase e.1) (valuesOf foldCase t (foldCase e.1)) =
    joinValues (foldCase e.1) (valuesOf foldCase (entriesOf fields) (foldCase e.1))

section
variable {conf : SessionConf} {o : H3Stream}

/-- A request stream after its fields and the pieces of its body have been received. -/
def receivedStream (conf : SessionConf) (sid : ℤ) (h : Handle) (fields : List HeaderField)
    (chunks : List Bytes) : H3Stream :=
  chunks.foldl (fun o data => onRecvData conf data o)
    (fields.foldl (fun o f => onRecvHeader conf f o) (onBeginHeaders (.new sid h)))

/-- `on_recv_header` has stored `hs` and counted `k` fields. -/
structure Stored (conf : SessionConf) (hs : Table) (k : ℕ) (o : H3Stream) : Prop where
  headers : o.headers = some hs
  small : o.headersTooLarge = false
  count : 0 < conf.limitReqFields → o.headerCount = k

theorem Stored.pseudo {hs : Table} {k : ℕ} (h : Stored conf hs k o) {f : HeaderField}
    (hf : f.token ≠ .regular) : Stored conf hs k (onRecvHeader conf f o) := by
  unfold onRecvHeader
  rw [if_pos hf]
  split_ifs
  · exact ⟨h.headers, h.small, h.count⟩
  · unfold setPseudo
    split_ifs
    · exact ⟨h.headers, h.small, h.count⟩
    · cases f.token <;> exact ⟨h.headers, h.small, h.count⟩

theorem Stored.regular {hs : Table} {k : ℕ} (h : Stored conf hs k o) {f : HeaderField}
    (hf : f.token = .regular) (hsize : fieldOversized conf f = false)
    (hroom : 0 < conf.limitReqFields → ((k + 1 : ℕ) : ℤ) ≤ conf.limitReqFields) :
    Stored conf (hs ++ [(f.name, f.value)]) (k + 1) (onRecvHeader conf f o) := by
  unfold onRecvHeader
  rw [if_neg (not_not.mpr hf), h.headers]
  dsimp only
  rw [if_neg (Bool.not_eq_true _ ▸ h.small)]
  unfold addField
  dsimp only
  by_cases hlimit : 0 < conf.limitReqFields
  · have hcount := h.count hlimit
    have hfits : ¬ (0 < conf.limitReqFields ∧ conf.limitReqFields < ((o.headerCount + 1 : ℕ) : ℤ)) := by
      rw [hcount]
      exact fun hover => absurd (hroom hlimit) (Int.not_le.mpr hover.2)
    rw [if_pos hlimit, if_neg hfits, hsize]
    exact ⟨rfl, h.small, fun _ => congrArg (· + 1) hcount⟩
  · rw [if_neg hlimit, if_neg fun hover => hlimit hover.1, hsize]
    exact ⟨rfl, h.small, fun hpos => absurd hpos hlimit⟩

private theorem stored_foldl (fields : List HeaderField) {hs : Table} {k : ℕ} (h : Stored conf hs k o)
    (hsize : ∀ f ∈ regularFields fields, fieldOversized conf f = false)
    (hroom : 0 < conf.limitReqFields → ((k + (regularFields fields).length : ℕ) : ℤ) ≤ conf.limitReqFields) :
    (fields.foldl (fun o f => onRecvHeader conf f o) o).headers = some (hs ++ entriesOf fields) := by
  unfold entriesOf
  induction fields generalizing o hs k with
  | nil =>
    rw [List.foldl_nil, h.headers]
    exact congrArg some (List.append_nil hs).symm
  | cons f fields ih =>
    rw [List.foldl_cons]
    by_cases hf : f.token = .regular
    · have hcons : regularFields (f :: fields) = f :: regularFields fields :=
        List.filter_cons_of_pos (decide_eq_true hf)
      rw [hcons] at hsize hroom ⊢
      rw [List.length_cons] at hroom
      have hone : 0 < conf.limitReqFields → ((k + 1 : ℕ) : ℤ) ≤ conf.limitReqFields := fun hpos =>
        Int.le_trans (by omega) (hroom hpos)
      rw [ih (h.regular hf (hsize f List.mem_cons_self) hone)
        (fun g hg => hsize g (List.mem_cons_of_mem _ hg)) fun hpos => by have := hroom hpos; omega]
      rw [List.map_cons, List.append_assoc]
      rfl
    · have hcons : regularFields (f :: fields) = regularFields fields :=
        List.filter_cons_of_neg (Bool.not_eq_true _ ▸ decide_eq_false hf)
      rw [hcons] at hsize hroom ⊢
      exact ih (h.pseudo hf) hsize hroom

theorem recvData_eq (conf : SessionConf) (chunks : List Bytes) (o : H3Stream) :
    ∃ body capacity overflow, chunks.foldl (fun o data => onRecvData conf data o) o =
      { o with requestBody := body, requestBodyCapacity := capacity, requestBodyOverflow := overflow } := by
  induction chunks generalizing o with
  | nil => exact ⟨_, _, _, rfl⟩
  | cons data chunks ih =>
    rw [List.foldl_cons]
    obtain ⟨body, capacity, overflow, he⟩ := ih (onRecvData conf data o)
    rw [he]
    unfold onRecvData
    dsimp only
    split_ifs <;> exact ⟨_, _, _, rfl⟩

theorem recvData_headers (chunks : List Bytes) (o : H3Stream) :
    (chunks.foldl (fun o data => onRecvData conf data o) o).headers = o.headers := by
  obtain ⟨_, _, _, he⟩ := recvData_eq conf chunks o
  rw [he]

private theorem recvData_authority (chunks : List Bytes) (o : H3Stream) :
    (chunks.foldl (fun o data => onRecvData conf data o) o).authority = o.authority := by
  obtain ⟨_, _, _, he⟩ := recvData_eq conf chunks o
  rw [he]

end

/-! C strings, keys and numbers. -/
section

theorem cString_eq_self_iff {b : Bytes} : cString b = b ↔ 0 ∉ b := by
  unfold cString
  rw [List.takeWhile_eq_self_iff]
  constructor
  · intro hall hzero
    exact absurd (hall 0 hzero) (by decide)
  · intro hzero x hx
    exact bne_iff_ne.mpr fun h => hzero (h ▸ hx)

theorem zero_notMem_cString (b : Bytes) : 0 ∉ cString b := by
  intro hzero
  exact absurd (List.mem_takeWhile_imp hzero) (by decide)

theorem length_cString_le (b : Bytes) : (cString b).length ≤ b.length :=
  (List.takeWhile_sublist _).length_le

theorem zero_mem_foldCase {b : Bytes} : 0 ∈ foldCase b ↔ 0 ∈ b := by
  unfold foldCase
  rw [List.mem_map]
  constructor
  · rintro ⟨c, hc, h⟩
    split_ifs at h with hupper
    · have hsum := congrArg UInt8.toNat h
      rw [UInt8.le_iff_toNat_le, UInt8.le_iff_toNat_le] at hupper
      simp only [UInt8.toNat_add, UInt8.reduceToNat] at hsum hupper
      omega
    · exact h ▸ hc
  · exact fun h => ⟨0, h, by decide⟩

/-- Only digits. -/
theorem digit_of_mem_decimal {n : ℕ} {c : UInt8} (hc : c ∈ decimal n) : 48 ≤ c ∧ c ≤ 57 := by
  obtain ⟨d, hd, rfl⟩ := List.mem_map.mp hc
  have hdigit := Nat.isDigit_of_mem_toDigits (by decide) (by decide) hd
  simp only [Char.isDigit, Bool.and_eq_true, decide_eq_true_eq, ge_iff_le, UInt32.le_iff_toNat_le] at hdigit
  change 48 ≤ d.val.toNat ∧ d.val.toNat ≤ 57 at hdigit
  simp only [UInt8.le_iff_toNat_le, Char.toUInt8, UInt32.toNat_toUInt8, UInt8.reduceToNat]
  omega

private theorem length_lt_intercalate {sep v : Bytes} {vs : List Bytes} {last : Bytes} (hsep : sep ≠ [])
    (hlast : (v :: vs).getLast? = some last) (hvs : vs ≠ []) : last.length < (sep.intercalate (v :: vs)).length := by
  induction vs generalizing v with
  | nil => exact absurd rfl hvs
  | cons w vs ih =>
    rw [List.intercalate_cons_cons, List.length_append, List.length_append]
    have hpos := List.length_pos_iff.mpr hsep
    rw [List.getLast?_cons_cons] at hlast
    by_cases hnil : vs = []
    · subst hnil
      rw [List.getLast?_singleton] at hlast
      cases hlast
      rw [List.intercalate_singleton]
      omega
    · have hlt := ih hlast hnil
      omega

end

section
variable {o : H3Stream}

/-- The table before the fields are overlaid. -/
def pseudoTable (o : H3Stream) : Table :=
  let t : Table := o.authority.elim [] fun a => setEntry foldCase (ascii "Host") (cString a) []
  o.scheme.elim t fun s => setEntry foldCase (ascii "Scheme") (cString s) t

private theorem valuesOf_pseudoTable {n : Bytes} (hhost : n ≠ ascii "host") (hscheme : n ≠ ascii "scheme")
    (o : H3Stream) : valuesOf foldCase (pseudoTable o) n = [] := by
  have hkey : foldCase (ascii "Host") = ascii "host" := by decide
  have hkey' : foldCase (ascii "Scheme") = ascii "scheme" := by decide
  rw [← hkey] at hhost
  rw [← hkey'] at hscheme
  unfold pseudoTable
  cases o.authority <;> cases o.scheme <;> dsimp only [Option.elim]
  · rfl
  · rw [valuesOf_setEntry_ne hscheme]
    rfl
  · rw [valuesOf_setEntry_ne hhost]
    rfl
  · rw [valuesOf_setEntry_ne hscheme, valuesOf_setEntry_ne hhost]
    rfl

theorem valuesOf_headersIn {hs : Table} (ho : o.headers = some hs) (n : Bytes) :
    valuesOf foldCase (headersIn o) n =
      if 0 < o.requestBody.length ∧ n = ascii "content-length" then [decimal o.requestBody.length]
      else (valuesOf foldCase (pseudoTable o) n ++
        valuesOf foldCase (hs.map fun e => (cString e.1, cString e.2)) n).getLast?.toList := by
  have hkey : foldCase (ascii "Content-Length") = ascii "content-length" := by decide
  have heq : headersIn o =
      if 0 < o.requestBody.length then
        setEntry foldCase (ascii "Content-Length") (decimal o.requestBody.length)
          (overlapSet foldCase (pseudoTable o) (hs.map fun e => (cString e.1, cString e.2)))
      else overlapSet foldCase (pseudoTable o) (hs.map fun e => (cString e.1, cString e.2)) := by
    unfold headersIn
    rw [ho]
    rfl
  rw [heq, ← valuesOf_overlapSet]
  by_cases hbody : 0 < o.requestBody.length
  · rw [if_pos hbody]
    by_cases hn : n = ascii "content-length"
    · rw [if_pos ⟨hbody, hn⟩, valuesOf_setEntry_self (hkey.trans hn.symm)]
    · have hne : n ≠ foldCase (ascii "Content-Length") := by
        rw [hkey]
        exact hn
      rw [if_neg fun h => hn h.2, valuesOf_setEntry_ne hne]
  · rw [if_neg hbody, if_neg fun h => hbody h.1]

theorem joinValues_singleton (n v : Bytes) : joinValues n [v] = some v :=
  congrArg some List.intercalate_singleton

/-- Two values or more are longer than the last of them, and hold the separator. -/
private theorem singleton_of_joinValues {n w last : Bytes} {vs : List Bytes} (hlast : vs.getLast? = some last)
    (hjoin : joinValues n [w] = joinValues n vs)
    (hw : w.length ≤ last.length ∨ ∃ c ∈ separator n, c ∉ w) : vs = [w] := by
  rw [joinValues_singleton] at hjoin
  match vs with
  | [] => cases hlast
  | [v] =>
    rw [joinValues_singleton] at hjoin
    rw [Option.some.inj hjoin]
  | v :: v' :: vs =>
    have hw' : w = (separator n).intercalate (v :: v' :: vs) := Option.some.inj hjoin
    exfalso
    rcases hw with hshort | ⟨c, hc, hnot⟩
    · have hsep : separator n ≠ [] := by
        unfold separator
        split_ifs <;> decide
      have hlong := length_lt_intercalate hsep hlast (List.cons_ne_nil v' vs)
      rw [← hw'] at hlong
      omega
    · apply hnot
      rw [hw', List.intercalate_cons_cons]
      exact List.mem_append_left _ (List.mem_append_right _ hc)

variable {es : Table}

private theorem valuesOf_cStrings_nul {n : Bytes} (hn : 0 ∈ n) :
    valuesOf foldCase (es.map fun e => (cString e.1, cString e.2)) n = [] := by
  apply valuesOf_eq_nil_iff.mpr
  rintro e he rfl
  obtain ⟨e', -, rfl⟩ := List.mem_map.mp he
  exact zero_notMem_cString _ (zero_mem_foldCase.mp hn)

private theorem valuesOf_cStrings (hnames : ∀ e ∈ es, 0 ∉ e.1) (n : Bytes) :
    valuesOf foldCase (es.map fun e => (cString e.1, cString e.2)) n = (valuesOf foldCase es n).map cString := by
  induction es with
  | nil => rfl
  | cons e es ih =>
    have hname := cString_eq_self_iff.mpr (hnames e List.mem_cons_self)
    rw [List.map_cons, valuesOf_cons, valuesOf_cons, ih fun x hx => hnames x (List.mem_cons_of_mem _ hx)]
    dsimp only
    rw [hname]
    split_ifs <;> rfl

/-- A name with a NUL byte is not in the table. -/
private theorem valuesOf_headersIn_nul (ho : o.headers = some es) {n : Bytes} (hn : 0 ∈ n) :
    valuesOf foldCase (headersIn o) n = [] := by
  have hne : ∀ m : Bytes, 0 ∉ m → n ≠ m := fun m hm h => hm (h ▸ hn)
  rw [valuesOf_headersIn ho, if_neg fun h => hne _ (by decide) h.2, valuesOf_cStrings_nul hn,
    valuesOf_pseudoTable (hne _ (by decide)) (hne _ (by decide))]
  rfl

/-- The table has one value of every field name: that of the last such field, or the length of the
body. -/
theorem valuesOf_headersIn_name (ho : o.headers = some es) (hnames : ∀ e ∈ es, 0 ∉ e.1) {n last : Bytes}
    (hlast : (valuesOf foldCase es n).getLast? = some last) :
    valuesOf foldCase (headersIn o) n =
      [if 0 < o.requestBody.length ∧ n = ascii "content-length" then decimal o.requestBody.length
        else cString last] := by
  rw [valuesOf_headersIn ho, valuesOf_cStrings hnames, List.getLast?_append, List.getLast?_map, hlast]
  split_ifs <;> rfl

private theorem valuesOf_getLast? {e : Bytes × Bytes} (he : e ∈ es) :
    ∃ last, (valuesOf foldCase es (foldCase e.1)).getLast? = some last :=
  ⟨_, List.getLast?_eq_some_getLast (List.ne_nil_of_mem (mem_valuesOf foldCase he))⟩

/-- If all values of a name are in the table, there is one, and it is the table's. -/
theorem single_value (ho : o.headers = some es) (hnames : ∀ e ∈ es, 0 ∉ e.1) {e : Bytes × Bytes} (he : e ∈ es)
    (hjoin : joinValues (foldCase e.1) (valuesOf foldCase (headersIn o) (foldCase e.1)) =
      joinValues (foldCase e.1) (valuesOf foldCase es (foldCase e.1))) :
    valuesOf foldCase es (foldCase e.1) = [e.2] ∧ valuesOf foldCase (headersIn o) (foldCase e.1) = [e.2] := by
  obtain ⟨last, hlast⟩ := valuesOf_getLast? he
  have hvalue := valuesOf_headersIn_name ho hnames hlast
  rw [hvalue] at hjoin ⊢
  have hsingle := singleton_of_joinValues hlast hjoin (by
    split_ifs with hcl
    · -- the separator is no digit
      refine .inr ⟨44, ?_, fun hmem => absurd (digit_of_mem_decimal hmem) (by decide)⟩
      rw [hcl.2]
      decide
    · exact .inl (length_cString_le last))
  have hmem := mem_valuesOf foldCase he
  rw [hsingle, List.mem_singleton] at hmem
  rw [hsingle, ← hmem]
  exact ⟨rfl, rfl⟩

private theorem names_nul_free (ho : o.headers = some es)
    (hall : ∀ e ∈ es, joinValues (foldCase e.1) (valuesOf foldCase (headersIn o) (foldCase e.1)) =
      joinValues (foldCase e.1) (valuesOf foldCase es (foldCase e.1))) : ∀ e ∈ es, 0 ∉ e.1 := by
  intro e he hzero
  have hjoin := hall e he
  have hne := List.ne_nil_of_mem (mem_valuesOf foldCase he)
  rw [valuesOf_headersIn_nul ho (zero_mem_foldCase.mpr hzero)] at hjoin
  unfold joinValues at hjoin
  rw [List.isEmpty_nil, if_pos rfl, if_neg (mt List.isEmpty_iff.mp hne)] at hjoin
  cases hjoin

/-- What the table must not meet in order to have all values. -/
private theorem allValuesIn_iff {fields : List HeaderField} (ho : o.headers = some (entriesOf fields)) :
    allValuesIn (headersIn o) fields ↔
      ((entriesOf fields).map fun e => foldCase e.1).Nodup ∧
      (∀ e ∈ entriesOf fields, 0 ∉ e.1 ∧ 0 ∉ e.2) ∧
      (0 < o.requestBody.length → ∀ e ∈ entriesOf fields, foldCase e.1 = ascii "content-length" →
        e.2 = decimal o.requestBody.length) := by
  unfold allValuesIn
  generalize entriesOf fields = es at ho ⊢
  rw [nodup_keys_iff]
  constructor
  · intro hall
    have hnames := names_nul_free ho hall
    have hvalue : ∀ e ∈ es, e.2 = if 0 < o.requestBody.length ∧ foldCase e.1 = ascii "content-length"
        then decimal o.requestBody.length else cString e.2 := by
      intro e he
      obtain ⟨hone, htable⟩ := single_value ho hnames he (hall e he)
      have hlast : (valuesOf foldCase es (foldCase e.1)).getLast? = some e.2 := by
        rw [hone]
        rfl
      rw [valuesOf_headersIn_name ho hnames hlast] at htable
      exact (List.singleton_inj.mp htable).symm
    refine ⟨fun e he => (single_value ho hnames he (hall e he)).1, fun e he => ⟨hnames e he, ?_⟩, ?_⟩
    · intro hzero
      have hv := hvalue e he
      split_ifs at hv
      · rw [hv] at hzero
        exact absurd (digit_of_mem_decimal hzero) (by decide)
      · exact cString_eq_self_iff.mp hv.symm hzero
    · intro hbody e he hcl
      have hv := hvalue e he
      rwa [if_pos ⟨hbody, hcl⟩] at hv
  · rintro ⟨hone, hnul, hlength⟩ e he
    have hlast : (valuesOf foldCase es (foldCase e.1)).getLast? = some e.2 := by
      rw [hone e he]
      rfl
    rw [valuesOf_headersIn_name ho (fun x hx => (hnul x hx).1) hlast, hone e he]
    split_ifs with hcl
    · rw [hlength hcl.1 e he hcl.2]
    · rw [cString_eq_self_iff.mpr (hnul e he).2]

variable {conf : SessionConf}

/-- The fields that a request comes with keep all their values exactly if no name is repeated, no
name or value has a NUL byte, and a content length is that of the body. -/
theorem header_values_kept_iff {sid : ℤ} (h : Handle) (hbidi : h3SidIsBidi sid) (fields : List HeaderField)
    (hlimits : withinLimits conf fields) (chunks : List Bytes) :
    let o := receivedStream conf sid h fields chunks
    allValuesIn (headersIn o) fields ↔
      ((entriesOf fields).map fun e => foldCase e.1).Nodup ∧
      (∀ e ∈ entriesOf fields, 0 ∉ e.1 ∧ 0 ∉ e.2) ∧
      (0 < o.requestBody.length → ∀ e ∈ entriesOf fields, foldCase e.1 = ascii "content-length" →
        e.2 = decimal o.requestBody.length) := by
  intro o
  apply allValuesIn_iff
  have hstart : Stored conf [] 0 (onBeginHeaders (.new sid h)) := by
    refine ⟨?_, rfl, fun _ => rfl⟩
    change (if h3SidIsBidi sid && true then some [] else none) = some []
    rw [hbidi]
    rfl
  change (receivedStream conf sid h fields chunks).headers = _
  unfold receivedStream
  rw [recvData_headers, stored_foldl fields hstart hlimits.2 fun hpos => by
    rw [Nat.zero_add]
    exact hlimits.1 hpos]
  rfl

def sampleHeaderConf : SessionConf := ⟨100, 8190, 1024, 8, 512⟩

/-- A request with a cookie and a body. -/
def sampleFields : List HeaderField :=
  [⟨.method, ascii ":method", ascii "POST"⟩, ⟨.authority, ascii ":authority", ascii "a.example"⟩,
    ⟨.regular, ascii "cookie", ascii "a=1"⟩, ⟨.regular, ascii "content-length", ascii "2"⟩]

theorem header_values_kept_sample :
    withinLimits sampleHeaderConf sampleFields ∧
    allValuesIn (headersIn (receivedStream sampleHeaderConf 0 20 sampleFields [[120, 121]])) sampleFields := by
  have hlimits : withinLimits sampleHeaderConf sampleFields := by
    unfold withinLimits
    decide +kernel
  refine ⟨hlimits, (header_values_kept_iff 20 (show h3SidIsBidi 0 by decide) sampleFields hlimits
    [[120, 121]]).mpr ?_⟩
  decide +kernel

/-- Two cookie fields, as browsers send them. -/
def splitCookies : List HeaderField :=
  [⟨.regular, ascii "cookie", ascii "a=1"⟩, ⟨.regular, ascii "cookie", ascii "b=2"⟩]

/-- The first one is lost. -/
theorem cookie_lost :
    withinLimits sampleHeaderConf splitCookies ∧
    valuesOf foldCase (headersIn (receivedStream sampleHeaderConf 0 20 splitCookies [])) (ascii "cookie") =
      [ascii "b=2"] ∧
    ¬ allValuesIn (headersIn (receivedStream sampleHeaderConf 0 20 splitCookies [])) splitCookies := by
  unfold withinLimits allValuesIn
  decide +kernel

end

/-! The host that `ap_update_vhost_from_headers` looks up. -/
section
variable {conf : SessionConf} {o : H3Stream}

/-- The value of a pseudo-header is stored. -/
def storable (conf : SessionConf) (f : HeaderField) : Bool :=
  !fieldOversized conf f && decide (f.value.length ≠ 0 ∧ f.value.length < 8192)

/-- The value of the last host field that was stored. -/
def lastHost (o : H3Stream) : Option Bytes :=
  (valuesOf foldCase ((o.headers.getD []).map fun e => (cString e.1, cString e.2)) (ascii "host")).getLast?

/-- What a stream has stored for a pseudo-header. -/
def pseudoValue (o : H3Stream) : Token → Option Bytes
  | .method => o.method
  | .scheme => o.scheme
  | .path => o.path
  | .authority => o.authority
  | .regular => none

theorem onRecvHeader_of_pseudo {f : HeaderField} (hf : f.token ≠ .regular) (o : H3Stream) :
    onRecvHeader conf f o =
      if storable conf f then setPseudo f.token f.value o else { o with malformed := true } := by
  unfold onRecvHeader storable
  rw [if_pos hf]
  cases fieldOversized conf f with
  | true => rfl
  | false =>
    by_cases hlen : f.value.length = 0 ∨ 8192 ≤ f.value.length
    · rw [decide_eq_false (by omega)]
      unfold setPseudo
      rw [if_pos hlen]
      rfl
    · rw [decide_eq_true (by omega)]
      rfl

/-- A regular field leaves the pseudo-headers alone. -/
theorem onRecvHeader_of_regular (conf : SessionConf) {f : HeaderField} (hf : f.token = .regular) (o : H3Stream) :
    ∃ count large headers, onRecvHeader conf f o =
      { o with headerCount := count, headersTooLarge := large, headers := headers } := by
  unfold onRecvHeader
  rw [if_neg (not_not.mpr hf)]
  cases hs : o.headers with
  | none => exact ⟨o.headerCount, o.headersTooLarge, o.headers, rfl⟩
  | some hs' =>
    dsimp only
    unfold addField
    dsimp only
    split_ifs <;> exact ⟨_, _, _, rfl⟩

private theorem onRecvHeader_pseudoValue (conf : SessionConf) (f : HeaderField) (o : H3Stream) {token : Token}
    (ht : token ≠ .regular) :
    pseudoValue (onRecvHeader conf f o) token =
      if f.token = token ∧ storable conf f then some f.value else pseudoValue o token := by
  by_cases hf : f.token = .regular
  · obtain ⟨_, _, _, he⟩ := onRecvHeader_of_regular conf hf o
    rw [he, if_neg fun h => ht (h.1.symm.trans hf)]
    cases token <;> rfl
  · rw [onRecvHeader_of_pseudo hf]
    by_cases hs : storable conf f
    · have hlen : ¬ (f.value.length = 0 ∨ 8192 ≤ f.value.length) := by
        unfold storable at hs
        rw [Bool.and_eq_true, decide_eq_true_eq] at hs
        omega
      unfold setPseudo
      rw [if_pos hs, if_neg hlen]
      generalize f.token = t at hf
      cases t <;> cases token <;> simp_all [pseudoValue]
    · rw [if_neg hs, if_neg fun h => hs h.2]
      cases token <;> rfl

theorem foldl_pseudoValue (fields : List HeaderField) (o : H3Stream) (token : Token) (ht : token ≠ .regular) :
    pseudoValue (fields.foldl (fun o f => onRecvHeader conf f o) o) token =
      ((fields.filter fun f => f.token = token ∧ storable conf f).getLast?.map
        HeaderField.value).or (pseudoValue o token) := by
  induction fields generalizing o with
  | nil => rfl
  | cons f fields ih =>
    rw [List.foldl_cons, ih, onRecvHeader_pseudoValue conf f o ht, List.filter_cons]
    by_cases hf : f.token = token ∧ storable conf f
    · rw [if_pos hf, if_pos (decide_eq_true hf), List.getLast?_cons]
      cases (fields.filter fun f => f.token = token ∧ storable conf f).getLast? <;> rfl
    · rw [if_neg hf, if_neg (Bool.not_eq_true _ ▸ decide_eq_false hf)]

private theorem foldl_authority (fields : List HeaderField) (o : H3Stream) :
    (fields.foldl (fun o f => onRecvHeader conf f o) o).authority =
      ((fields.filter fun f => f.token = .authority ∧ storable conf f).getLast?.map
        HeaderField.value).or o.authority :=
  foldl_pseudoValue fields o .authority nofun

private theorem valuesOf_pseudoTable_host (o : H3Stream) :
    valuesOf foldCase (pseudoTable o) (ascii "host") = (o.authority.map cString).toList := by
  have hscheme : ascii "host" ≠ foldCase (ascii "Scheme") := by decide
  unfold pseudoTable
  cases o.authority <;> cases o.scheme <;> dsimp only [Option.elim]
  · rfl
  · rw [valuesOf_setEntry_ne hscheme]
    rfl
  · rw [valuesOf_setEntry_self (by decide)]
    rfl
  · rw [valuesOf_setEntry_ne hscheme, valuesOf_setEntry_self (by decide)]
    rfl

/-- The host is the last host field, or else the authority. -/
theorem get_host {hs : Table} (ho : o.headers = some hs) :
    (headersIn o).get (ascii "Host") = (lastHost o).or (o.authority.map cString) := by
  have hkey : foldCase (ascii "Host") = ascii "host" := by decide
  have hlength : ¬ (0 < o.requestBody.length ∧ ascii "host" = ascii "content-length") :=
    fun h => absurd h.2 (by decide)
  unfold Table.get lastHost
  rw [hkey, valuesOf_headersIn ho, if_neg hlength, valuesOf_pseudoTable_host, List.getLast?_append, ho]
  dsimp only [Option.getD]
  generalize (valuesOf foldCase _ (ascii "host")).getLast? = last
  cases last <;> cases o.authority <;> rfl

private theorem onRecvHeader_headers_isSome (conf : SessionConf) (f : HeaderField) (h : o.headers.isSome) :
    (onRecvHeader conf f o).headers.isSome := by
  unfold onRecvHeader
  by_cases ht : f.token ≠ .regular
  · rw [if_pos ht]
    split_ifs
    · exact h
    · unfold setPseudo
      split_ifs
      · exact h
      · cases f.token <;> exact h
  · rw [if_neg ht]
    cases hs : o.headers with
    | none =>
      rw [hs] at h
      cases h
    | some hs =>
      dsimp only
      unfold addField
      dsimp only
      split_ifs <;> first | exact h | rfl

theorem foldl_headers_isSome (fields : List HeaderField) (h : o.headers.isSome) :
    (fields.foldl (fun o f => onRecvHeader conf f o) o).headers.isSome := by
  induction fields generalizing o with
  | nil => exact h
  | cons f fields ih => exact ih (onRecvHeader_headers_isSome conf f h)

/-- In the table of a request that came with one authority, the host is that authority exactly if
the last host field has the same value, or there is none and the authority was stored as it is. -/
theorem host_is_authority_iff {sid : ℤ} (h : Handle) (hbidi : h3SidIsBidi sid) (fields : List HeaderField)
    (f : HeaderField) (hone : (fields.filter fun f => f.token = .authority) = [f]) (chunks : List Bytes) :
    let o := receivedStream conf sid h fields chunks
    (headersIn o).get (ascii "Host") = some f.value ↔
      lastHost o = some f.value ∨ lastHost o = none ∧ storable conf f ∧ 0 ∉ f.value := by
  intro o
  have hstart : (onBeginHeaders (.new sid h)).headers.isSome := by
    change (if h3SidIsBidi sid && true then some [] else none).isSome
    rw [hbidi]
    rfl
  obtain ⟨hs, ho⟩ : ∃ hs, o.headers = some hs := by
    apply Option.isSome_iff_exists.mp
    change (receivedStream conf sid h fields chunks).headers.isSome
    unfold receivedStream
    rw [recvData_headers]
    exact foldl_headers_isSome fields hstart
  have hauth : o.authority = if storable conf f then some f.value else none := by
    change (receivedStream conf sid h fields chunks).authority = _
    unfold receivedStream
    have hfilter : (fields.filter fun f => f.token = .authority ∧ storable conf f) =
        [f].filter fun f => storable conf f := by
      rw [← hone, List.filter_filter]
      congr 1
      funext g
      by_cases hg : g.token = .authority <;> simp [hg]
    rw [recvData_authority, foldl_authority, hfilter]
    cases hst : storable conf f
    · simp [hst]
      rfl
    · simp [hst]
  rw [get_host ho, hauth]
  cases lastHost o with
  | some v => simp
  | none =>
    cases storable conf f with
    | false => simp
    | true => simp [cString_eq_self_iff]

theorem host_is_authority_sample :
    (headersIn (receivedStream sampleHeaderConf 0 20 sampleFields [])).get (ascii "Host") =
      some (ascii "a.example") := by
  refine (host_is_authority_iff 20 (show h3SidIsBidi 0 by decide) sampleFields
    ⟨.authority, ascii ":authority", ascii "a.example"⟩ (by decide +kernel) []).mpr ?_
  decide +kernel

/-- A client names one virtual host in `:authority` and another one in a host field. -/
def twoHosts : List HeaderField :=
  [⟨.authority, ascii ":authority", ascii "a.example"⟩, ⟨.regular, ascii "host", ascii "b.example"⟩]

/-- The host field decides. -/
theorem host_shadows_authority :
    (receivedStream sampleHeaderConf 0 20 twoHosts []).authority = some (ascii "a.example") ∧
    (headersIn (receivedStream sampleHeaderConf 0 20 twoHosts [])).get (ascii "Host") =
      some (ascii "b.example") := by
  decide +kernel

end

end ModHttp3.Request
