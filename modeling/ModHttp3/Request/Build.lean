import ModHttp3.Lib.KeyedTable
import ModHttp3.Session.Callbacks

/-! The `request_rec` that `stream_worker` builds from a stream. Strings are C strings: a name or
value that came with a NUL byte ends there. -/
namespace ModHttp3.Request
open Session Lib

def ascii (s : String) : Bytes := s.toList.map Char.toUInt8

def cString (b : Bytes) : Bytes := b.takeWhile (· != 0)

/-- Tables compare keys without case. -/
def foldCase (b : Bytes) : Bytes := b.map fun c => if 65 ≤ c ∧ c ≤ 90 then c + 32 else c

/-- `%` `APR_SIZE_T_FMT`. -/
def decimal (n : ℕ) : Bytes := (Nat.toDigits 10 n).map Char.toUInt8

abbrev Table := List (Bytes × Bytes)

/-- `apr_table_get`. -/
def Table.get (t : Table) (key : Bytes) : Option Bytes := (valuesOf foldCase t (foldCase key)).head?

/-- `HTTP_OK` and the like. -/
abbrev Status := ℕ

def httpOk : Status := 200
def httpBadRequest : Status := 400
def httpRequestEntityTooLarge : Status := 413

structure RequestRec where
  method : Bytes
  uri : Option Bytes
  unparsedUri : Option Bytes
  theRequest : Option Bytes
  headersIn : Table
  status : Status
  deriving DecidableEq, Repr

/-- What httpd's functions make of their arguments: the `uri` that `ap_parse_uri` gives for a path,
with whether it could be parsed, and whether `ap_update_vhost_from_headers` accepts the host. -/
structure Httpd where
  parseUri : Bytes → Bytes × Bool
  hostAccepted : Table → Bool

/-- The header table: the authority and the scheme, overlaid by the stream's fields, and the length
of the body. -/
def headersIn (o : H3Stream) : Table :=
  let t : Table := o.authority.elim [] fun a => setEntry foldCase (ascii "Host") (cString a) []
  let t := o.scheme.elim t fun s => setEntry foldCase (ascii "Scheme") (cString s) t
  let t := o.headers.elim t fun hs => overlapSet foldCase t (hs.map fun e => (cString e.1, cString e.2))
  if 0 < o.requestBody.length then
    setEntry foldCase (ascii "Content-Length") (decimal o.requestBody.length) t
  else t

def protocol : Bytes := ascii "HTTP/3.0"

/-- `ap_parse_uri` and the request line. -/
def RequestRec.parseUri (httpd : Httpd) (r : RequestRec) (path : Bytes) : RequestRec :=
  let parsed := httpd.parseUri path
  { r with
    uri := some parsed.1
    unparsedUri := some path
    theRequest := some (r.method ++ ascii " " ++ path ++ ascii " " ++ protocol)
    status := if parsed.2 then r.status else httpBadRequest }

/-- `stream_worker` up to the call that processes the request. -/
def buildRequest (httpd : Httpd) (o : H3Stream) : RequestRec :=
  let r : RequestRec := ⟨(o.method.map cString).getD (ascii "GET"), none, none, none, [], httpOk⟩
  let r := o.path.elim r fun p => r.parseUri httpd (cString p)
  let r := { r with headersIn := headersIn o }
  { r with status := if httpd.hostAccepted r.headersIn then r.status else httpBadRequest }

inductive Handling
  | die (status : Status)
  | process
  deriving DecidableEq, Repr

/-- How the request goes on: `ap_die` or `ap_process_request`. -/
def handling (o : H3Stream) (r : RequestRec) : Handling :=
  if r.status ≠ httpOk then .die r.status
  else if o.requestBodyOverflow then .die httpRequestEntityTooLarge
  else .process

end ModHttp3.Request
