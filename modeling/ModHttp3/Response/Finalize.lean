import Mathlib.Algebra.GroupWithZero.Nat
import Mathlib.Algebra.Order.BigOperators.Group.List
import Mathlib.Algebra.Order.Group.Nat
import ModHttp3.Response.Vary

/-! `h3_response_finalize` of the stable build: the header table of a response as httpd would send it. -/
namespace ModHttp3.Response
open Lib ModHttp3.Request

/-- What `h3_response_finalize` reads of the `request_rec`. `forceNoVary` and `noEtag` tell that the
environment and the notes have these entries, `proxied` that the request is a proxy request. -/
structure ResponseRec where
  status : ℕ
  headersOut : Table
  errHeadersOut : Table
  forceNoVary : Bool
  noEtag : Bool
  contentType : Option Bytes
  contentEncoding : Option Bytes
  contentLanguages : List Bytes
  noCache : Bool
  headerOnly : Bool
  proxied : Bool
  deriving DecidableEq, Repr

/-- What httpd answers: `ap_make_content_type`, the items that `ap_get_list_item` finds in a value,
`ap_recent_rfc822_date` for the time of the request, `ap_get_server_banner`, and `ap_find_token`. -/
structure Httpd where
  makeContentType : Option Bytes → Option Bytes
  listItems : Bytes → List Bytes
  date : Bytes
  serverBanner : Option Bytes
  findToken : Bytes → Bytes → Bool

/-- `AP_STATUS_IS_HEADER_ONLY`. -/
def statusIsHeaderOnly (status : ℕ) : Bool := status == 204 || status == 304

/-- The test with which the filter passes over data. -/
def ResponseRec.bare (r : ResponseRec) : Bool := r.headerOnly || statusIsHeaderOnly r.status

/-- `apr_table_get`. -/
def tableGet (t : Table) (key : Bytes) : Option Bytes := (valuesOf foldCase t (foldCase key)).head?

/-- `apr_table_setn`, when there is a value. -/
def setIfSome (key : Bytes) (value : Option Bytes) (t : Table) : Table :=
  value.elim t fun v => setEntry foldCase key v t

/-- Enough for `fix_vary` on this table. -/
def varyFuel (t : Table) : ℕ := ((valuesOf foldCase t (ascii "vary")).map List.length).sum + 1

def finalizeVary (r : ResponseRec) (t : Table) : Table :=
  if r.forceNoVary then unsetEntry foldCase (ascii "Vary") t else (fixVary (varyFuel t) t).getD t

def finalizeEtag (r : ResponseRec) (t : Table) : Table :=
  if r.noEtag then unsetEntry foldCase (ascii "ETag") t else t

/-- A status without a body takes what describes the body out of the table and the `request_rec`. -/
def dropBody (t : Table) : Table :=
  unsetEntry foldCase (ascii "Content-Length") (unsetEntry foldCase (ascii "Transfer-Encoding") t)

def ResponseRec.withoutBody (r : ResponseRec) : ResponseRec :=
  { r with contentType := none, contentEncoding := none, contentLanguages := [] }

/-- The languages of the handler, and those of the table that are not among them. -/
def finalizeLanguages (env : Httpd) (r : ResponseRec) (t : Table) : Table :=
  if r.contentLanguages.isEmpty then t
  else
    let items := (tableGet t (ascii "Content-Language")).elim [] env.listItems
    setEntry foldCase (ascii "Content-Language") (joinComma (items.foldl pushUnique r.contentLanguages)) t

def finalizeEntity (env : Httpd) (r : ResponseRec) (t : Table) : Table :=
  let t := setIfSome (ascii "Content-Type") (env.makeContentType r.contentType) t
  let t := setIfSome (ascii "Content-Encoding") r.contentEncoding t
  finalizeLanguages env r t

def finalizeExpires (env : Httpd) (r : ResponseRec) (t : Table) : Table :=
  if r.noCache && (tableGet t (ascii "Expires")).isNone then t ++ [(ascii "Expires", env.date)] else t

def finalizeLength (r : ResponseRec) (t : Table) : Table :=
  if r.headerOnly && tableGet t (ascii "Content-Length") == some (ascii "0") then
    unsetEntry foldCase (ascii "Content-Length") t
  else t

def finalizeDate (env : Httpd) (r : ResponseRec) (t : Table) : Table :=
  if !r.proxied || (tableGet t (ascii "Date")).isNone then setEntry foldCase (ascii "Date") env.date t else t

def finalizeServer (env : Httpd) (r : ResponseRec) (t : Table) : Table :=
  if !r.proxied || (tableGet t (ascii "Server")).isNone then
    setIfSome (ascii "Server") (env.serverBanner.filter fun us => !us.isEmpty) t
  else t

/-- `h3_response_finalize`: the table that `resp_headers` is set to. -/
def h3ResponseFinalize (env : Httpd) (r : ResponseRec) : Table :=
  -- `apr_table_overlay` puts the error headers in front
  let t := r.errHeadersOut ++ r.headersOut
  let t := finalizeEtag r (finalizeVary r t)
  let bodiless := statusIsHeaderOnly r.status
  let t := if bodiless then dropBody t else t
  let r := if bodiless then r.withoutBody else r
  let t := finalizeExpires env r (finalizeEntity env r t)
  finalizeServer env r (finalizeDate env r (finalizeLength r t))

/-- The fields that `h3_response_finalize` may set or take out. -/
def finalizedNames : List Bytes :=
  [ascii "vary", ascii "etag", ascii "transfer-encoding", ascii "content-length", ascii "content-type",
    ascii "content-encoding", ascii "content-language", ascii "expires", ascii "date", ascii "server"]

/-- The entries of all other fields. -/
def otherFields (t : Table) : Table := t.filter fun e => !finalizedNames.contains (foldCase e.1)

section
variable {env : Httpd} {r : ResponseRec} {t : Table} {key : Bytes}

private theorem varyFits_varyFuel (t : Table) : varyFits t (varyFuel t) := by
  intro v hv
  have hle : v.length ≤ ((valuesOf foldCase t (ascii "vary")).map List.length).sum :=
    List.le_sum_of_mem (List.mem_map_of_mem hv)
  unfold varyFuel
  omega

theorem finalizeVary_eq : finalizeVary r t = if r.forceNoVary then unsetEntry foldCase (ascii "Vary") t else fixedVary t := by
  unfold finalizeVary
  rw [fixVary_eq (varyFits_varyFuel t)]
  rfl

theorem otherFields_unset (hkey : finalizedNames.contains (foldCase key) = true) :
    otherFields (unsetEntry foldCase key t) = otherFields t :=
  filter_unsetEntry (p := fun n => !finalizedNames.contains n) (by rw [hkey]; rfl) t

theorem otherFields_set (hkey : finalizedNames.contains (foldCase key) = true) (v : Bytes) :
    otherFields (setEntry foldCase key v t) = otherFields t :=
  filter_setEntry (p := fun n => !finalizedNames.contains n) (by rw [hkey]; rfl) v t

theorem otherFields_setIfSome (hkey : finalizedNames.contains (foldCase key) = true) (v : Option Bytes) :
    otherFields (setIfSome key v t) = otherFields t := by
  cases v with
  | none => rfl
  | some v => exact otherFields_set hkey v

private theorem otherFields_vary : otherFields (finalizeVary r t) = otherFields t := by
  rw [finalizeVary_eq]
  split_ifs
  · exact otherFields_unset (by decide)
  · unfold fixedVary
    split_ifs
    · rfl
    · exact otherFields_set (by decide) _

private theorem otherFields_etag : otherFields (finalizeEtag r t) = otherFields t := by
  unfold finalizeEtag
  split_ifs
  · exact otherFields_unset (by decide)
  · rfl

private theorem otherFields_entity : otherFields (finalizeEntity env r t) = otherFields t := by
  have hlanguages : ∀ t, otherFields (finalizeLanguages env r t) = otherFields t := by
    intro t
    unfold finalizeLanguages
    split_ifs
    · rfl
    · exact otherFields_set (by decide) _
  unfold finalizeEntity
  rw [hlanguages, otherFields_setIfSome (by decide), otherFields_setIfSome (by decide)]

private theorem otherFields_expires : otherFields (finalizeExpires env r t) = otherFields t := by
  have hkey : finalizedNames.contains (foldCase (ascii "Expires")) = true := by decide
  unfold finalizeExpires
  split_ifs
  · unfold otherFields
    rw [List.filter_append, List.filter_cons_of_neg (by rw [hkey]; decide), List.filter_nil, List.append_nil]
  · rfl

private theorem otherFields_length : otherFields (finalizeLength r t) = otherFields t := by
  unfold finalizeLength
  split_ifs
  · exact otherFields_unset (by decide)
  · rfl

private theorem otherFields_date : otherFields (finalizeDate env r t) = otherFields t := by
  unfold finalizeDate
  split_ifs
  · exact otherFields_set (by decide) _
  · rfl

private theorem otherFields_server : otherFields (finalizeServer env r t) = otherFields t := by
  unfold finalizeServer
  split_ifs
  · exact otherFields_setIfSome (by decide) _
  · rfl

/-- What the handler set in fields that are not httpd's own stays, in its order. -/
theorem otherFields_finalize (env : Httpd) (r : ResponseRec) :
    otherFields (h3ResponseFinalize env r) = otherFields r.errHeadersOut ++ otherFields r.headersOut := by
  have hsplit : otherFields (r.errHeadersOut ++ r.headersOut) =
      otherFields r.errHeadersOut ++ otherFields r.headersOut := List.filter_append _ _
  have hbody : ∀ t, otherFields (if statusIsHeaderOnly r.status then dropBody t else t) = otherFields t := by
    intro t
    split_ifs
    · unfold dropBody
      rw [otherFields_unset (by decide), otherFields_unset (by decide)]
    · rfl
  unfold h3ResponseFinalize
  dsimp only
  rw [otherFields_server, otherFields_date, otherFields_length, otherFields_expires, otherFields_entity, hbody,
    otherFields_etag, otherFields_vary, hsplit]

end

end ModHttp3.Response
