import Mathlib.Logic.Function.Basic
import ModHttp3.Response.AllOrNothing

/-! What a response of the stable build says, field by field: the values that `h3_response_finalize` leaves and those
that `build_response_nva` sends. -/
namespace ModHttp3.Response
open Lib ModHttp3.Request

/-- Everything the handler has set, with the error headers in front. -/
def ResponseRec.given (r : ResponseRec) : Table := r.errHeadersOut ++ r.headersOut

/-- The values of a field: httpd's own, where it has one, and else those that the handler has given. A status without
a body takes away what describes the body. -/
def finalValues (env : Httpd) (r : ResponseRec) (n : Bytes) : List Bytes :=
  let given := valuesOf foldCase r.given n
  let bodiless := statusIsHeaderOnly r.status
  if n = ascii "vary" then
    if r.forceNoVary then []
    else if varyTokens r.given = [] then given
    else [joinComma (firsts foldCase (varyTokens r.given))]
  else if n = ascii "etag" then if r.noEtag then [] else given
  else if n = ascii "transfer-encoding" then if bodiless then [] else given
  else if n = ascii "content-length" then
    if bodiless || (r.headerOnly && given.head? == some (ascii "0")) then [] else given
  else if n = ascii "content-type" then
    (env.makeContentType (if bodiless then none else r.contentType)).elim given ([·])
  else if n = ascii "content-encoding" then
    (if bodiless then none else r.contentEncoding).elim given ([·])
  else if n = ascii "content-language" then
    if bodiless || r.contentLanguages.isEmpty then given
    else [joinComma ((given.head?.elim [] env.listItems).foldl pushUnique r.contentLanguages)]
  else if n = ascii "expires" then if r.noCache && given.isEmpty then [env.date] else given
  else if n = ascii "date" then if r.proxied && !given.isEmpty then given else [env.date]
  else if n = ascii "server" then
    if r.proxied && !given.isEmpty then given
    else (env.serverBanner.filter fun us => !us.isEmpty).elim given ([·])
  else given

section
variable {env : Httpd} {r : ResponseRec} {t : Table}

theorem values_setIfSome {key n : Bytes} (hkey : foldCase key = n) (v : Option Bytes) (t : Table) :
    valuesOf foldCase (setIfSome key v t) =
      Function.update (valuesOf foldCase t) n (v.elim (valuesOf foldCase t n) ([·])) := by
  cases v with
  | none => exact (Function.update_eq_self n _).symm
  | some v =>
    rw [← hkey]
    exact valuesOf_setEntry key v t

/-- A step that is only taken under a condition. -/
theorem values_ite {t' : Table} {n : Bytes} {vs : List Bytes} (c : Prop) [Decidable c]
    (h : valuesOf foldCase t' = Function.update (valuesOf foldCase t) n vs) :
    valuesOf foldCase (if c then t' else t) =
      Function.update (valuesOf foldCase t) n (if c then vs else valuesOf foldCase t n) := by
  split_ifs
  · exact h
  · exact (Function.update_eq_self n _).symm

theorem values_set {key n : Bytes} (hkey : foldCase key = n) (v : Bytes) (t : Table) :
    valuesOf foldCase (setEntry foldCase key v t) = Function.update (valuesOf foldCase t) n [v] := by
  rw [← hkey]
  exact valuesOf_setEntry key v t

theorem values_unset {key n : Bytes} (hkey : foldCase key = n) (t : Table) :
    valuesOf foldCase (unsetEntry foldCase key t) = Function.update (valuesOf foldCase t) n [] := by
  rw [← hkey]
  exact valuesOf_unsetEntry key t

theorem isNone_head? (vs : List Bytes) : vs.head?.isNone = vs.isEmpty := by
  cases vs <;> rfl

theorem tableGet_eq {key n : Bytes} (hkey : foldCase key = n) (t : Table) :
    tableGet t key = (valuesOf foldCase t n).head? := by
  rw [← hkey]
  rfl

private theorem values_vary (r : ResponseRec) (t : Table) :
    valuesOf foldCase (finalizeVary r t) = Function.update (valuesOf foldCase t) (ascii "vary")
      (if r.forceNoVary then []
        else if varyTokens t = [] then valuesOf foldCase t (ascii "vary")
        else [joinComma (firsts foldCase (varyTokens t))]) := by
  rw [finalizeVary_eq]
  unfold fixedVary
  split_ifs
  · exact values_unset (by decide) t
  · exact (Function.update_eq_self _ _).symm
  · exact values_set (by decide) _ t

private theorem values_etag (r : ResponseRec) (t : Table) :
    valuesOf foldCase (finalizeEtag r t) = Function.update (valuesOf foldCase t) (ascii "etag")
      (if r.noEtag then [] else valuesOf foldCase t (ascii "etag")) :=
  values_ite _ (values_unset (by decide) t)

private theorem values_languages (env : Httpd) (r : ResponseRec) (t : Table) :
    valuesOf foldCase (finalizeLanguages env r t) = Function.update (valuesOf foldCase t) (ascii "content-language")
      (if r.contentLanguages.isEmpty then valuesOf foldCase t (ascii "content-language")
        else [joinComma (((valuesOf foldCase t (ascii "content-language")).head?.elim [] env.listItems).foldl pushUnique
          r.contentLanguages)]) := by
  unfold finalizeLanguages
  rw [tableGet_eq (n := ascii "content-language") (by decide)]
  split_ifs
  · exact (Function.update_eq_self _ _).symm
  · exact values_set (by decide) _ t

private theorem values_expires (env : Httpd) (r : ResponseRec) (t : Table) :
    valuesOf foldCase (finalizeExpires env r t) = Function.update (valuesOf foldCase t) (ascii "expires")
      (if r.noCache && (valuesOf foldCase t (ascii "expires")).isEmpty then [env.date]
        else valuesOf foldCase t (ascii "expires")) := by
  have hkey : foldCase (ascii "Expires") = ascii "expires" := by decide
  unfold finalizeExpires
  rw [tableGet_eq hkey, isNone_head?]
  split_ifs with hadd
  · have hnone := List.isEmpty_iff.mp (Bool.and_eq_true_iff.mp hadd).2
    funext n
    rw [valuesOf_append, valuesOf_cons, hkey]
    by_cases hn : n = ascii "expires"
    · rw [hn, hnone, if_pos rfl, Function.update_self]
      rfl
    · rw [if_neg (Ne.symm hn), Function.update_of_ne hn]
      exact List.append_nil _
  · exact (Function.update_eq_self _ _).symm

private theorem values_length (r : ResponseRec) (t : Table) :
    valuesOf foldCase (finalizeLength r t) = Function.update (valuesOf foldCase t) (ascii "content-length")
      (if r.headerOnly && (valuesOf foldCase t (ascii "content-length")).head? == some (ascii "0") then []
        else valuesOf foldCase t (ascii "content-length")) := by
  unfold finalizeLength
  rw [tableGet_eq (n := ascii "content-length") (by decide)]
  exact values_ite _ (values_unset (by decide) t)

/-- The test for fields that a proxied response may bring along. -/
theorem own_iff (proxied : Bool) (vs : List Bytes) :
    (!proxied || vs.head?.isNone) = !(proxied && !vs.isEmpty) := by
  rw [isNone_head?, Bool.not_and, Bool.not_not]

private theorem values_date (env : Httpd) (r : ResponseRec) (t : Table) :
    valuesOf foldCase (finalizeDate env r t) = Function.update (valuesOf foldCase t) (ascii "date")
      (if r.proxied && !(valuesOf foldCase t (ascii "date")).isEmpty then valuesOf foldCase t (ascii "date")
        else [env.date]) := by
  unfold finalizeDate
  rw [tableGet_eq (n := ascii "date") (by decide), own_iff]
  cases r.proxied && !(valuesOf foldCase t (ascii "date")).isEmpty with
  | true => exact (Function.update_eq_self _ _).symm
  | false => exact values_set (by decide) _ t

private theorem values_server (env : Httpd) (r : ResponseRec) (t : Table) :
    valuesOf foldCase (finalizeServer env r t) = Function.update (valuesOf foldCase t) (ascii "server")
      (if r.proxied && !(valuesOf foldCase t (ascii "server")).isEmpty then valuesOf foldCase t (ascii "server")
        else (env.serverBanner.filter fun us => !us.isEmpty).elim (valuesOf foldCase t (ascii "server")) ([·])) := by
  unfold finalizeServer
  rw [tableGet_eq (n := ascii "server") (by decide), own_iff]
  cases r.proxied && !(valuesOf foldCase t (ascii "server")).isEmpty with
  | true => exact (Function.update_eq_self _ _).symm
  | false => exact values_setIfSome (by decide) _ t

/-- The table with the body's fields as the handler and the status leave them. -/
private theorem values_entity (env : Httpd) (r : ResponseRec) (t : Table) (n : Bytes) :
    valuesOf foldCase (finalizeEntity env r t) n =
      if n = ascii "content-language" then
        if r.contentLanguages.isEmpty then valuesOf foldCase t n
        else [joinComma (((valuesOf foldCase t n).head?.elim [] env.listItems).foldl pushUnique r.contentLanguages)]
      else if n = ascii "content-encoding" then r.contentEncoding.elim (valuesOf foldCase t n) ([·])
      else if n = ascii "content-type" then (env.makeContentType r.contentType).elim (valuesOf foldCase t n) ([·])
      else valuesOf foldCase t n := by
  have htl : ascii "content-language" ≠ ascii "content-type" := by decide
  have hel : ascii "content-language" ≠ ascii "content-encoding" := by decide
  have hte : ascii "content-encoding" ≠ ascii "content-type" := by decide
  unfold finalizeEntity
  rw [values_languages, values_setIfSome (n := ascii "content-encoding") (by decide),
    values_setIfSome (n := ascii "content-type") (by decide)]
  simp only [Function.update_apply, hel, htl, hte, if_false]
  split_ifs with hl he ht <;> simp_all

private theorem values_dropBody (t : Table) (n : Bytes) :
    valuesOf foldCase (dropBody t) n =
      if n = ascii "content-length" ∨ n = ascii "transfer-encoding" then [] else valuesOf foldCase t n := by
  unfold dropBody
  rw [values_unset (n := ascii "content-length") (by decide), values_unset (n := ascii "transfer-encoding") (by decide)]
  simp only [Function.update_apply]
  split_ifs <;> simp_all

/-- The table before the fields that describe the body are set. -/
def ResponseRec.stripped (r : ResponseRec) : Table :=
  let t := finalizeEtag r (finalizeVary r r.given)
  if statusIsHeaderOnly r.status then dropBody t else t

/-- The request then. -/
def ResponseRec.described (r : ResponseRec) : ResponseRec :=
  if statusIsHeaderOnly r.status then r.withoutBody else r

private theorem finalize_eq (env : Httpd) (r : ResponseRec) :
    h3ResponseFinalize env r = finalizeServer env r.described (finalizeDate env r.described
      (finalizeLength r.described (finalizeExpires env r.described (finalizeEntity env r.described r.stripped)))) := rfl

private theorem values_stripped (r : ResponseRec) (n : Bytes) :
    valuesOf foldCase r.stripped n =
      if statusIsHeaderOnly r.status = true ∧ (n = ascii "content-length" ∨ n = ascii "transfer-encoding") then []
      else if n = ascii "etag" then if r.noEtag then [] else valuesOf foldCase r.given n
      else if n = ascii "vary" then
        if r.forceNoVary then []
        else if varyTokens r.given = [] then valuesOf foldCase r.given n
        else [joinComma (firsts foldCase (varyTokens r.given))]
      else valuesOf foldCase r.given n := by
  have hne : ascii "etag" ≠ ascii "vary" := by decide
  have htable : valuesOf foldCase (finalizeEtag r (finalizeVary r r.given)) n =
      if n = ascii "etag" then if r.noEtag then [] else valuesOf foldCase r.given n
      else if n = ascii "vary" then
        if r.forceNoVary then []
        else if varyTokens r.given = [] then valuesOf foldCase r.given n
        else [joinComma (firsts foldCase (varyTokens r.given))]
      else valuesOf foldCase r.given n := by
    rw [values_etag, values_vary]
    simp only [Function.update_apply, hne, if_false]
    split_ifs <;> simp_all
  rw [← htable]
  unfold ResponseRec.stripped
  cases statusIsHeaderOnly r.status with
  | true => simp only [if_true, values_dropBody, true_and]
  | false => simp only [Bool.false_eq_true, if_false, false_and]

private theorem described_flags (r : ResponseRec) : r.described.noCache = r.noCache ∧ r.described.headerOnly = r.headerOnly ∧
    r.described.proxied = r.proxied := by
  unfold ResponseRec.described
  split_ifs <;> exact ⟨rfl, rfl, rfl⟩

private theorem described_body (r : ResponseRec) :
    r.described.contentType = (if statusIsHeaderOnly r.status then none else r.contentType) ∧
    r.described.contentEncoding = (if statusIsHeaderOnly r.status then none else r.contentEncoding) ∧
    r.described.contentLanguages = if statusIsHeaderOnly r.status then [] else r.contentLanguages := by
  unfold ResponseRec.described
  split_ifs <;> exact ⟨rfl, rfl, rfl⟩

/-- The last four fields, which do not depend on each other. -/
private theorem values_late (env : Httpd) (r : ResponseRec) (t : Table) (n : Bytes) :
    valuesOf foldCase (finalizeServer env r (finalizeDate env r (finalizeLength r (finalizeExpires env r t)))) n =
      if n = ascii "server" then
        if r.proxied && !(valuesOf foldCase t n).isEmpty then valuesOf foldCase t n
        else (env.serverBanner.filter fun us => !us.isEmpty).elim (valuesOf foldCase t n) ([·])
      else if n = ascii "date" then
        if r.proxied && !(valuesOf foldCase t n).isEmpty then valuesOf foldCase t n else [env.date]
      else if n = ascii "content-length" then
        if r.headerOnly && (valuesOf foldCase t n).head? == some (ascii "0") then [] else valuesOf foldCase t n
      else if n = ascii "expires" then
        if r.noCache && (valuesOf foldCase t n).isEmpty then [env.date] else valuesOf foldCase t n
      else valuesOf foldCase t n := by
  have hsd : ascii "server" ≠ ascii "date" := by decide
  have hsl : ascii "server" ≠ ascii "content-length" := by decide
  have hse : ascii "server" ≠ ascii "expires" := by decide
  have hdl : ascii "date" ≠ ascii "content-length" := by decide
  have hde : ascii "date" ≠ ascii "expires" := by decide
  have hle : ascii "content-length" ≠ ascii "expires" := by decide
  rw [values_server, values_date, values_length, values_expires]
  simp only [Function.update_apply, hsd, hsl, hse, hdl, hde, hle, if_false]
  split_ifs <;> simp_all

/-- The header table of a finalized response, field by field. -/
private theorem final_values (env : Httpd) (r : ResponseRec) (n : Bytes) :
    valuesOf foldCase (h3ResponseFinalize env r) n = finalValues env r n := by
  obtain ⟨hcache, honly, hproxied⟩ := described_flags r
  obtain ⟨htype, hencoding, hlanguages⟩ := described_body r
  rw [finalize_eq, values_late, values_entity, values_stripped, hcache, honly, hproxied, htype, hencoding, hlanguages]
  unfold finalValues
  by_cases h1 : n = ascii "vary"
  · subst h1
    simp +decide
  by_cases h2 : n = ascii "etag"
  · subst h2
    simp +decide
  by_cases h3 : n = ascii "transfer-encoding"
  · subst h3
    simp +decide
  by_cases h4 : n = ascii "content-length"
  · subst h4
    cases statusIsHeaderOnly r.status <;> simp +decide
  by_cases h5 : n = ascii "content-type"
  · subst h5
    simp +decide
  by_cases h6 : n = ascii "content-encoding"
  · subst h6
    simp +decide
  by_cases h7 : n = ascii "content-language"
  · subst h7
    cases statusIsHeaderOnly r.status <;> simp +decide
  by_cases h8 : n = ascii "expires"
  · subst h8
    simp +decide
  by_cases h9 : n = ascii "date"
  · subst h9
    simp +decide
  by_cases h10 : n = ascii "server"
  · subst h10
    simp +decide
  simp only [h1, h2, h3, h4, h5, h6, h7, h8, h9, h10, if_false, or_self, and_false]

end

/-- The values that are to be sent for a field: none if it is one for the connection only, as such or because a
`Connection` value of the response names it. -/
def ResponseRec.sentValues (env : Httpd) (r : ResponseRec) (n : Bytes) : List Bytes :=
  if isConnectionSpecific n || (finalValues env r (ascii "connection")).any (names · n) then []
  else finalValues env r n

section
variable {k n : Bytes}

private theorem isConnectionSpecific_congr (h : foldCase k = foldCase n) : isConnectionSpecific k = isConnectionSpecific n := by
  unfold isConnectionSpecific sameName
  rw [h]

private theorem names_congr (line : Bytes) (h : foldCase k = foldCase n) : names line k = names line n := by
  unfold names sameName
  rw [h]

private theorem foldCase_foldCase (b : Bytes) : foldCase (foldCase b) = foldCase b := by
  unfold foldCase
  rw [List.map_map]
  apply List.map_congr_left
  intro c _
  simp only [Function.comp_apply]
  grind

/-- The colon is not a letter. -/
private theorem head?_foldCase (b : Bytes) : (foldCase b).head? = some 58 ↔ b.head? = some 58 := by
  have hcolon : ∀ c : UInt8, (if 65 ≤ c ∧ c ≤ 90 then c + 32 else c) = 58 ↔ c = 58 := by
    intro c
    split_ifs
    · grind
    · rfl
  cases b with
  | nil => rfl
  | cons c b => simpa [foldCase] using hcolon c

private theorem connectionEntries_tableEntries (t : Table) :
    connectionEntries (tableEntries t) = (valuesOf foldCase t (ascii "connection")).map some := by
  have hkey : foldCase (ascii "Connection") = ascii "connection" := by decide
  induction t with
  | nil => rfl
  | cons e t ih =>
    unfold connectionEntries tableEntries at ih ⊢
    rw [List.map_cons, List.filterMap_cons, ih, valuesOf_cons]
    simp only [Option.bind_some, sameName, hkey, beq_iff_eq]
    split_ifs <;> rfl

private theorem nominated_tableEntries (t : Table) (n : Bytes) :
    nominated (tableEntries t) n = (valuesOf foldCase t (ascii "connection")).any (names · n) := by
  unfold nominated
  rw [connectionEntries_tableEntries, List.any_map]
  rfl

private theorem keepField_eq (p : Bytes → Bool) (k v : Bytes) :
    keepField p (some k, some v) =
      if k.head? = some 58 ∨ (isConnectionSpecific k || p k) = true then none else some (k, v) := by
  unfold keepField
  by_cases hcolon : k.head? = some 58
  · simp only [hcolon, if_true, true_or]
  · simp only [hcolon, if_false, false_or]

/-- Whether an entry passes depends on its field only, if this is so for the names that are looked up. -/
private theorem valuesOf_keepField {p : Bytes → Bool} (hp : ∀ k, foldCase k = foldCase n → p k = p n) (t : Table)
    (hn : n.head? ≠ some 58) :
    valuesOf foldCase ((tableEntries t).filterMap (keepField p)) n =
      if isConnectionSpecific n || p n then [] else valuesOf foldCase t n := by
  induction t with
  | nil => split_ifs <;> rfl
  | cons e t ih =>
    have hcons : (tableEntries (e :: t)) = (some e.1, some e.2) :: tableEntries t := rfl
    rw [hcons, List.filterMap_cons, keepField_eq, valuesOf_cons]
    by_cases he : foldCase e.1 = n
    · have hfold : foldCase e.1 = foldCase n := by rw [← he, foldCase_foldCase]
      have hcolon : e.1.head? ≠ some 58 := by
        rw [← he] at hn
        exact mt (head?_foldCase e.1).mpr hn
      simp only [hcolon, isConnectionSpecific_congr hfold, hp e.1 hfold, false_or, if_pos he]
      split_ifs at ih ⊢
      · exact ih
      · rw [valuesOf_cons, if_pos he, ih]
    · rw [if_neg he]
      split_ifs at ih ⊢ <;> simp only [valuesOf_cons, if_neg he, ih]

/-- The code's conditions keep the values that are to be sent, unless only a later `Connection` value names the field. -/
private theorem valuesOf_codeFields {env : Httpd} {r : ResponseRec} (hn : n.head? ≠ some 58) (hall : FindsTokens env.findToken)
    (honly : FindsNoOther env.findToken (r.finalized env).headers)
    (hlater : nominatedLater (r.finalized env).headers n = false) :
    valuesOf foldCase (codeFields env.findToken (r.finalized env).headers) n = r.sentValues env n := by
  have hnominated := nominated_eq (r.finalized env).headers n
  rw [hlater, Bool.or_false] at hnominated
  rw [codeFields_names hall honly]
  unfold ResponseRec.finalized at hnominated ⊢
  unfold codeFields codeField ResponseRec.sentValues
  rw [valuesOf_keepField (fun k hk => by simp only [names_congr _ hk]) _ hn]
  simp only [← hnominated, nominated_tableEntries, final_values]

/-- What nghttp3 is given for a field: the values that are to be sent, all of them if the response has at most 63
fields. -/
theorem sent_fields (env : Httpd) (r : ResponseRec) (hn : n.head? ≠ some 58) (hall : FindsTokens env.findToken)
    (honly : FindsNoOther env.findToken (r.finalized env).headers)
    (hlater : nominatedLater (r.finalized env).headers n = false) :
    valuesOf foldCase ((r.finalized env).nva env) n <+: r.sentValues env n ∧
    ((codeFields env.findToken (r.finalized env).headers).length ≤ 63 →
      valuesOf foldCase ((r.finalized env).nva env) n = r.sentValues env n) := by
  have hstatus : foldCase (ascii ":status") ≠ n := by
    intro he
    rw [← he] at hn
    exact hn (by decide)
  have hnva : valuesOf foldCase ((r.finalized env).nva env) n =
      valuesOf foldCase ((codeFields env.findToken (r.finalized env).headers).take 63) n := by
    unfold ResponseHead.nva
    rw [buildResponseNva_eq, valuesOf_cons]
    exact if_neg hstatus
  rw [hnva, ← valuesOf_codeFields hn hall honly hlater]
  refine ⟨⟨valuesOf foldCase ((codeFields env.findToken (r.finalized env).headers).drop 63) n, ?_⟩, fun hlen => ?_⟩
  · rw [← valuesOf_append, List.take_append_drop]
  · rw [List.take_of_length_le hlen]

end

/-- A response with status 204 to which the handler has given a length. -/
def noContent : ResponseRec where
  status := 204
  headersOut := [(ascii "Content-Length", ascii "3"), (ascii "X-A", ascii "1"), (ascii "x-a", ascii "2")]
  errHeadersOut := []
  forceNoVary := false
  noEtag := false
  contentType := some (ascii "text/html")
  contentEncoding := none
  contentLanguages := []
  noCache := false
  headerOnly := false
  proxied := false

theorem sent_fields_noContent :
    valuesOf foldCase ((noContent.finalized Delivery.sampleHttpd).nva Delivery.sampleHttpd) (ascii "content-length") = [] ∧
    valuesOf foldCase ((noContent.finalized Delivery.sampleHttpd).nva Delivery.sampleHttpd) (ascii "x-a") =
      [ascii "1", ascii "2"] := by
  have hfits : (codeFields names (noContent.finalized Delivery.sampleHttpd).headers).length ≤ 63 := by decide
  have hsent : ∀ n ∈ [ascii "content-length", ascii "x-a"],
      valuesOf foldCase ((noContent.finalized Delivery.sampleHttpd).nva Delivery.sampleHttpd) n =
        noContent.sentValues Delivery.sampleHttpd n := by
    intro n hn
    have hside : n.head? ≠ some 58 ∧ nominatedLater (noContent.finalized Delivery.sampleHttpd).headers n = false := by
      revert n
      decide
    exact (sent_fields Delivery.sampleHttpd noContent hside.1 (fun _ _ => id) (fun _ _ _ _ _ _ => id) hside.2).2 hfits
  exact ⟨(hsent _ (by decide)).trans (by decide), (hsent _ (by decide)).trans (by decide)⟩

end ModHttp3.Response
