import ModHttp3.Lib.Words
import ModHttp3.Request.Build
import ModHttp3.Response.Filter

/-! The header block of a response: `build_response_nva` with its array of 64 entries, and which of
the table's entries are to be left out as hop-by-hop. -/
namespace ModHttp3.Response
open Lib ModHttp3.Request

/-- `apr_table_entry_t`; both strings may be null. -/
abbrev TableEntry := Option Bytes × Option Bytes

/-- `!ap_cstr_casecmp(a, b)`. -/
def sameName (a b : Bytes) : Bool := foldCase a == foldCase b

def isConnectionSpecific (k : Bytes) : Bool :=
  sameName k (ascii "Connection") || sameName k (ascii "Keep-Alive") ||
    sameName k (ascii "Proxy-Connection") || sameName k (ascii "Transfer-Encoding") ||
    sameName k (ascii "Upgrade") || sameName k (ascii "TE")

/-- `T_HTTP_TOKEN_STOP`: everything but letters, digits and a few marks. -/
def tokenStop (c : UInt8) : Bool :=
  !(48 ≤ c && c ≤ 57 || 65 ≤ c && c ≤ 90 || 97 ≤ c && c ≤ 122 || (ascii "!#$%&'*+-.^_`|~").contains c)

/-- A token of the list, such as a `Connection` value, is the name in some letter case. -/
def names (line k : Bytes) : Bool := (words tokenStop line).any (sameName · k)

/-- What httpd's `ap_find_token` answers for a list and a name. -/
abbrev FindToken := Bytes → Bytes → Bool

/-- Every token of a list is found. -/
def FindsTokens (find : FindToken) : Prop := ∀ line k, names line k = true → find line k = true

/-- The values of the `Connection` entries, in the order of the table. -/
def connectionEntries (hdrs : List TableEntry) : List (Option Bytes) :=
  hdrs.filterMap fun e => e.1.bind fun k => if sameName k (ascii "Connection") then some e.2 else none

/-- The value that `apr_table_get` gives for `Connection`: that of the first entry. -/
def firstConnection (hdrs : List TableEntry) : Option Bytes := (connectionEntries hdrs).head?.join

/-- Of the names in this table, nothing but a token of the first `Connection` value is found. It is a condition on the
table: httpd compares over the length of the list's token, and so finds `x-a` in a list with the token `x`. -/
def FindsNoOther (find : FindToken) (hdrs : List TableEntry) : Prop :=
  ∀ line, firstConnection hdrs = some line → ∀ e ∈ hdrs, ∀ k, e.1 = some k → find line k = true → names line k = true

/-- What `build_response_nva` reads of the context and the request. -/
structure Head where
  respHeaders : Option (List TableEntry)
  respStatus : ℕ
  headersOut : Option (List TableEntry)
  status : ℕ
  deriving DecidableEq, Repr

/-- The table that is sent; `[]` stands for a null one. -/
def Head.headers (h : Head) : List TableEntry := (h.respHeaders.or h.headersOut).getD []

def Head.statusField (h : Head) : Bytes × Bytes :=
  (ascii ":status", decimal (if h.respStatus ≠ 0 then h.respStatus else h.status))

/-- The skip conditions on one entry. -/
def keepField (nominated : Bytes → Bool) : TableEntry → Option (Bytes × Bytes)
  | (some k, some v) =>
    if k.head? = some 58 then none
    else if isConnectionSpecific k || nominated k then none
    else some (k, v)
  | _ => none

/-- The loop over the table, which ends when the array is full. -/
def fillNva (find : FindToken) (cap : ℕ) (connHdr : Option Bytes) :
    List TableEntry → List (Bytes × Bytes) → List (Bytes × Bytes)
  | [], nva => nva
  | e :: es, nva =>
    if nva.length < cap then
      fillNva find cap connHdr es (nva ++ (keepField (fun k => connHdr.any (find · k)) e).toList)
    else nva

def buildResponseNva (find : FindToken) (cap : ℕ) (h : Head) : List (Bytes × Bytes) :=
  fillNva find cap (firstConnection h.headers) h.headers [h.statusField]

/-- The size of the array in `h3_response_start`. -/
def nvaCap : ℕ := 64

/-- `submit_response_nva` with its array: what `nghttp3_conn_submit_response` is called with. -/
def submitNva (st : SessionFlags) (accepted : Bool) (nva : List (Bytes × Bytes)) (r : Queue) :
    (AprStatus × Queue) × Option (List (Bytes × Bytes)) :=
  (submitResponseNva st accepted r,
    if r.responseSubmitted || r.responseCancelled || st.gone then none else some nva)

/-- Some `Connection` entry names the field. -/
def nominated (hdrs : List TableEntry) (k : Bytes) : Bool :=
  (connectionEntries hdrs).any fun v => v.any (names · k)

/-- A `Connection` entry after the first one names the field. -/
def nominatedLater (hdrs : List TableEntry) (k : Bytes) : Bool :=
  (connectionEntries hdrs).tail.any fun v => v.any (names · k)

/-- The field of an entry that passes the code's conditions. -/
def codeField (find : FindToken) (hdrs : List TableEntry) : TableEntry → Option (Bytes × Bytes) :=
  keepField fun k => (firstConnection hdrs).any (find · k)

def codeFields (find : FindToken) (hdrs : List TableEntry) : List (Bytes × Bytes) := hdrs.filterMap (codeField find hdrs)

/-- An entry of the table passes the conditions, and `n` entries before it do. -/
def PassesAt (find : FindToken) (hdrs : List TableEntry) (n : ℕ) (kv : Bytes × Bytes) : Prop :=
  ∃ before e after, hdrs = before ++ e :: after ∧ codeField find hdrs e = some kv ∧
    (before.filterMap (codeField find hdrs)).length = n

/-- The entries that may be sent end to end. -/
def endToEndFields (hdrs : List TableEntry) : List (Bytes × Bytes) := hdrs.filterMap (keepField (nominated hdrs))

section
variable {find : FindToken}

private theorem fillNva_eq (cap : ℕ) (connHdr : Option Bytes) (es : List TableEntry) (nva : List (Bytes × Bytes)) :
    fillNva find cap connHdr es nva =
      nva ++ (es.filterMap (keepField fun k => connHdr.any (find · k))).take (cap - nva.length) := by
  induction es generalizing nva with
  | nil => simp [fillNva]
  | cons e es ih =>
    unfold fillNva
    split_ifs with hroom
    · rw [ih]
      cases hk : keepField (fun k => connHdr.any (find · k)) e with
      | none =>
        rw [List.filterMap_cons_none hk]
        simp
      | some kv =>
        rw [List.filterMap_cons_some hk]
        obtain ⟨n, hn⟩ : ∃ n, cap - nva.length = n + 1 := ⟨cap - nva.length - 1, by omega⟩
        have hlen : cap - (nva ++ (some kv).toList).length = n := by
          rw [List.length_append, Option.toList_some, List.length_singleton]
          omega
        rw [hlen, hn, List.take_succ_cons, Option.toList_some, List.append_assoc]
        rfl
    · have hfull : cap - nva.length = 0 := by omega
      rw [hfull, List.take_zero, List.append_nil]

/-- The array: the status and the first entries that pass the conditions. -/
theorem buildResponseNva_eq (h : Head) :
    buildResponseNva find nvaCap h = h.statusField :: (codeFields find h.headers).take 63 :=
  fillNva_eq nvaCap _ h.headers [h.statusField]

theorem passesAt_iff {hdrs : List TableEntry} {n : ℕ} {kv : Bytes × Bytes} :
    PassesAt find hdrs n kv ↔ (codeFields find hdrs)[n]? = some kv := by
  unfold PassesAt codeFields
  constructor
  · rintro ⟨before, e, after, heq, hkv, rfl⟩
    have hsplit : hdrs.filterMap (codeField find hdrs) =
        before.filterMap (codeField find hdrs) ++ kv :: after.filterMap (codeField find hdrs) := by
      conv_lhs => rw [heq, List.filterMap_append, ← heq, List.filterMap_cons_some hkv]
    rw [hsplit, List.getElem?_append_right (Nat.le_refl _), Nat.sub_self]
    rfl
  · intro h
    obtain ⟨hn, hget⟩ := List.getElem?_eq_some_iff.mp h
    have hsplit := List.take_append_drop n (hdrs.filterMap (codeField find hdrs))
    rw [List.drop_eq_getElem_cons hn, hget] at hsplit
    obtain ⟨front, rest, heq, hfront, hrest⟩ := List.filterMap_eq_append_iff.mp hsplit.symm
    obtain ⟨skipped, e, after, hrest, hskipped, hkv, -⟩ := List.filterMap_eq_cons_iff.mp hrest
    refine ⟨front ++ skipped, e, after, ?_, hkv, ?_⟩
    · rw [heq, hrest, List.append_assoc]
    · rw [List.filterMap_append, List.filterMap_eq_nil_iff.mpr hskipped, List.append_nil, hfront,
        List.length_take_of_le hn.le]

theorem forall_mem_take_iff {hdrs : List TableEntry} {cap : ℕ} {p : Bytes × Bytes → Prop} :
    (∀ kv ∈ (codeFields find hdrs).take cap, p kv) ↔ ∀ n kv, PassesAt find hdrs n kv → n < cap → p kv := by
  simp only [passesAt_iff, List.mem_iff_getElem?, List.getElem?_take, Option.ite_none_right_eq_some]
  grind

private theorem forall_mem_drop_iff {hdrs : List TableEntry} {cap : ℕ} {p : Bytes × Bytes → Prop} :
    (∀ kv ∈ (codeFields find hdrs).drop cap, p kv) ↔ ∀ n kv, PassesAt find hdrs n kv → cap ≤ n → p kv := by
  simp only [passesAt_iff, List.mem_iff_getElem?, List.getElem?_drop]
  constructor
  · intro h n kv hkv hn
    exact h kv ⟨n - cap, by rwa [Nat.add_sub_cancel' hn]⟩
  · rintro h kv ⟨n, hn⟩
    exact h _ kv hn (Nat.le_add_right cap n)

/-- Where exactly the tokens are found, the code's conditions are those with `names`. -/
theorem codeFields_names {hdrs : List TableEntry} (hall : FindsTokens find) (honly : FindsNoOther find hdrs) :
    codeFields find hdrs = codeFields names hdrs := by
  refine List.filterMap_congr fun e he => ?_
  obtain ⟨k?, v?⟩ := e
  unfold codeField keepField
  cases k? with
  | none => rfl
  | some k =>
    have hsame : (firstConnection hdrs).any (find · k) = (firstConnection hdrs).any (names · k) := by
      cases hline : firstConnection hdrs with
      | none => rfl
      | some line => exact Bool.eq_iff_iff.mpr ⟨honly line hline _ he k rfl, hall line k⟩
    cases v? with
    | none => rfl
    | some v => simp only [hsame]

end

theorem nominated_eq (hdrs : List TableEntry) (k : Bytes) :
    nominated hdrs k = ((firstConnection hdrs).any (names · k) || nominatedLater hdrs k) := by
  unfold nominated nominatedLater firstConnection
  cases connectionEntries hdrs with
  | nil => rfl
  | cons v vs => rfl

private theorem keepField_or (p q : Bytes → Bool) (e : TableEntry) :
    keepField (fun k => p k || q k) e = (keepField p e).filter fun kv => !q kv.1 := by
  unfold keepField
  split
  · split_ifs <;> simp_all [Option.filter]
  · rfl

/-- Of the entries that the code keeps, those that no later `Connection` entry names. -/
private theorem endToEndFields_eq (hdrs : List TableEntry) :
    endToEndFields hdrs = (codeFields names hdrs).filter fun kv => !nominatedLater hdrs kv.1 := by
  unfold endToEndFields codeFields codeField
  rw [List.filter_filterMap]
  congr 1
  funext e
  rw [← keepField_or]
  congr 1
  funext k
  exact nominated_eq hdrs k

private theorem take_eq_filter_iff {α : Type*} (p : α → Bool) (n : ℕ) (l : List α) :
    l.take n = l.filter p ↔ (∀ x ∈ l.take n, p x) ∧ ∀ x ∈ l.drop n, p x = false := by
  have hsplit : l.filter p = (l.take n).filter p ++ (l.drop n).filter p := by
    rw [← List.filter_append, List.take_append_drop]
  constructor
  · intro h
    have hall : ∀ x ∈ l.take n, p x := by
      intro x hx
      rw [h] at hx
      exact (List.mem_filter.mp hx).2
    rw [hsplit, List.filter_eq_self.mpr hall] at h
    have hnil : (l.drop n).filter p = [] := List.self_eq_append_right.mp h
    exact ⟨hall, fun x hx => Bool.not_eq_true _ ▸ List.filter_eq_nil_iff.mp hnil x hx⟩
  · rintro ⟨hall, hnone⟩
    have hnil : (l.drop n).filter p = [] :=
      List.filter_eq_nil_iff.mpr fun x hx => by rw [hnone x hx]; exact Bool.false_ne_true
    rw [hsplit, List.filter_eq_self.mpr hall, hnil, List.append_nil]

/-- What is handed to nghttp3 is the status and every entry that may be sent, in order, exactly when
the 63 entries that fit are named by no later `Connection` entry and those that do not fit all are. -/
theorem submitted_fields_iff {find : FindToken} (st : SessionFlags) (accepted : Bool) (r : Queue) (h : Head)
    (hall : FindsTokens find) (honly : FindsNoOther find h.headers)
    (hfirst : r.responseSubmitted = false) (hopen : r.responseCancelled = false) (hlive : st.gone = false) :
    (submitNva st accepted (buildResponseNva find nvaCap h) r).2 =
        some (h.statusField :: endToEndFields h.headers) ↔
      (∀ n kv, PassesAt find h.headers n kv → n < 63 → nominatedLater h.headers kv.1 = false) ∧
        ∀ n kv, PassesAt find h.headers n kv → 63 ≤ n → nominatedLater h.headers kv.1 = true := by
  have hsubmit : (submitNva st accepted (buildResponseNva find nvaCap h) r).2 =
      some (buildResponseNva find nvaCap h) := by
    simp [submitNva, hfirst, hopen, hlive]
  rw [hsubmit, buildResponseNva_eq, endToEndFields_eq, ← codeFields_names hall honly, Option.some_inj,
    List.cons_inj_right, take_eq_filter_iff, ← forall_mem_take_iff, ← forall_mem_drop_iff]
  simp only [Bool.not_eq_true', Bool.not_eq_false']

def liveSession : SessionFlags := ⟨false, false, true⟩

/-- A table of `n` plain fields. -/
def plainHead (n : ℕ) : Head where
  respHeaders := none
  respStatus := 0
  headersOut := some (List.replicate n (some (ascii "x-a"), some (ascii "1")))
  status := 200

theorem submitted_fields_iff_twoFields :
    (submitNva liveSession true (buildResponseNva names nvaCap (plainHead 2)) (.new 0 0)).2 =
      some ((plainHead 2).statusField :: endToEndFields (plainHead 2).headers) := by
  have hlen : (codeFields names (plainHead 2).headers).length = 2 := by decide
  refine (submitted_fields_iff liveSession true (.new 0 0) (plainHead 2) (fun _ _ => id) (fun _ _ _ _ _ _ => id)
    rfl rfl rfl).mpr ⟨fun _ _ _ _ => rfl, fun n kv hkv hn => ?_⟩
  rw [passesAt_iff, List.getElem?_eq_none (by omega)] at hkv
  cases hkv

/-- Of 64 plain fields the last one is not sent. -/
theorem sixtyFourth_field_dropped :
    (submitNva liveSession true (buildResponseNva names nvaCap (plainHead 64)) (.new 0 0)).2 =
        some ((plainHead 64).statusField :: List.replicate 63 (ascii "x-a", ascii "1")) ∧
      endToEndFields (plainHead 64).headers = List.replicate 64 (ascii "x-a", ascii "1") := by
  decide +kernel

/-- A colon ends a token, so no list names a pseudo-header. -/
private theorem names_pseudo (line name : Bytes) : names line (58 :: name) = false := by
  unfold names
  rw [List.any_eq_false]
  intro t ht hsame
  have hstop := (isWord_of_mem_words ht).1.2
  have hfold : foldCase t = foldCase (58 :: name) := eq_of_beq hsame
  cases t with
  | nil => simp [foldCase] at hfold
  | cons c t =>
    have hc : (if 65 ≤ c ∧ c ≤ 90 then c + 32 else c) = 58 := (List.cons.inj hfold).1
    have hcolon : c = 58 := by
      split_ifs at hc with hupper
      · obtain ⟨hlo, hhi⟩ := hupper
        exfalso
        have hlo' : 65 ≤ c.toNat := hlo
        have hhi' : c.toNat ≤ 90 := hhi
        have hn : (c.toNat + 32) % 256 = 58 := by simpa using congrArg UInt8.toNat hc
        omega
      · exact hc
    have hfree := hstop c List.mem_cons_self
    rw [hcolon] at hfree
    exact absurd hfree (by decide)

private theorem nominated_statusField (hdrs : List TableEntry) (h : Head) : nominated hdrs h.statusField.1 = false := by
  unfold nominated
  rw [List.any_eq_false]
  rintro (_ | line) _ hany
  · exact Bool.false_ne_true hany
  · have hnone := names_pseudo line (ascii "status")
    exact absurd (hany.symm.trans hnone) (by decide)

private theorem isConnectionSpecific_status : isConnectionSpecific (ascii ":status") = false := by decide

theorem mem_codeFields {find : FindToken} {hdrs : List TableEntry} {kv : Bytes × Bytes}
    (h : kv ∈ codeFields find hdrs) :
    isConnectionSpecific kv.1 = false ∧ (firstConnection hdrs).any (find · kv.1) = false := by
  obtain ⟨⟨k, v⟩, _, hkeep⟩ := List.mem_filterMap.mp h
  unfold codeField keepField at hkeep
  split at hkeep
  · split_ifs at hkeep with hpseudo hskip
    cases hkeep
    simpa using hskip
  · cases hkeep

/-- A field that the code keeps is not a token of the first `Connection` value. -/
private theorem names_of_mem_codeFields {find : FindToken} (hall : FindsTokens find) {hdrs : List TableEntry}
    {kv : Bytes × Bytes} (h : kv ∈ codeFields find hdrs) : (firstConnection hdrs).any (names · kv.1) = false := by
  have hhead := (mem_codeFields h).2
  cases hline : firstConnection hdrs with
  | none => rfl
  | some line =>
    rw [hline] at hhead
    exact Bool.eq_false_iff.mpr fun hnames => Bool.eq_false_iff.mp hhead (hall line kv.1 hnames)

/-- The array names no connection-specific field, and no field that a `Connection` entry names,
exactly when no later `Connection` entry names one of the fields that fit. -/
theorem nva_hopByHop_free_iff {find : FindToken} (hall : FindsTokens find) (h : Head) :
    (∀ kv ∈ buildResponseNva find nvaCap h,
        isConnectionSpecific kv.1 = false ∧ nominated h.headers kv.1 = false) ↔
      ∀ n kv, PassesAt find h.headers n kv → n < 63 → nominatedLater h.headers kv.1 = false := by
  rw [buildResponseNva_eq, List.forall_mem_cons, ← forall_mem_take_iff]
  have hstatus : isConnectionSpecific h.statusField.1 = false ∧ nominated h.headers h.statusField.1 = false :=
    ⟨isConnectionSpecific_status, nominated_statusField h.headers h⟩
  have hlater : ∀ kv ∈ (codeFields find h.headers).take 63,
      (isConnectionSpecific kv.1 = false ∧ nominated h.headers kv.1 = false ↔
        nominatedLater h.headers kv.1 = false) := by
    intro kv hkv
    have hmem := List.mem_of_mem_take hkv
    rw [nominated_eq, names_of_mem_codeFields hall hmem, Bool.false_or]
    exact and_iff_right (mem_codeFields hmem).1
  constructor
  · rintro ⟨_, hfree⟩ kv hkv
    exact (hlater kv hkv).mp (hfree kv hkv)
  · intro hfree
    exact ⟨hstatus, fun kv hkv => (hlater kv hkv).mpr (hfree kv hkv)⟩

/-- One `Connection` entry, which names a field of the table. -/
def oneConnection : Head where
  respHeaders := none
  respStatus := 0
  headersOut := some [(some (ascii "Connection"), some (ascii "close, X-Hop")), (some (ascii "x-hop"), some (ascii "1"))]
  status := 200

theorem nva_hopByHop_free_iff_oneConnection :
    nominated oneConnection.headers (ascii "x-hop") = true ∧
      ∀ kv ∈ buildResponseNva names nvaCap oneConnection,
        isConnectionSpecific kv.1 = false ∧ nominated oneConnection.headers kv.1 = false :=
  ⟨by decide +kernel, (nva_hopByHop_free_iff (fun _ _ => id) oneConnection).mpr fun _ _ _ _ => rfl⟩

/-- Two `Connection` entries, of which the second one names a field of the table. -/
def twoConnections : Head where
  respHeaders := none
  respStatus := 0
  headersOut := some [(some (ascii "Connection"), some (ascii "close")),
    (some (ascii "Connection"), some (ascii "X-Hop")), (some (ascii "X-Hop"), some (ascii "1"))]
  status := 200

theorem later_connection_ignored :
    nominated twoConnections.headers (ascii "X-Hop") = true ∧
      (ascii "X-Hop", ascii "1") ∈ buildResponseNva names nvaCap twoConnections := by
  decide +kernel

end ModHttp3.Response
