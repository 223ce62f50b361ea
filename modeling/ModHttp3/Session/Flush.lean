import ModHttp3.Session.Callbacks

/-! `flush_nghttp3`: writing what nghttp3 has queued, one step for each answer, and freeing
the handles queued by its callbacks. -/
namespace ModHttp3.Session

/-- `unblock` runs over the table; `writev` and `offsets` are inside nghttp3, the latter while
it takes note of what was written before a stream may be blocked. -/
inductive FlushPc
  | unblock (rest : List ℤ)
  | writev
  | write (sid : ℤ)
  | offsets (blocked : Option ℤ)
  | returned
  deriving DecidableEq, Repr

namespace H3Session

/-- The start of `flush_nghttp3` and of `unblock_writable_streams`. -/
def flushStart (s : H3Session) : FlushPc :=
  if s.ngh3Dead then .returned
  else if s.blockedStreams ≤ 0 then .writev
  else .unblock s.streams

def unblockStream (s : H3Session) (sid : ℤ) : H3Session :=
  { s.modify sid (fun o => { o with writeBlocked := false }) with
    blockedStreams := s.blockedStreams - 1 }

def blockStream (s : H3Session) (sid : ℤ) : H3Session :=
  if s.has sid (·.writeBlocked) then s
  else
    { s.modify sid (fun o => { o with writeBlocked := true }) with
      blockedStreams := s.blockedStreams + 1 }

/-- `unblock_writable_streams` on one stream. -/
def unblockStep (s : H3Session) (sid : ℤ) (a : Answer) : Option H3Session :=
  if !s.has sid (·.writeBlocked) then
    if a = .go then some s else none
  else if (s.qstream sid).isNone then
    if a = .go then some (s.unblockStream sid) else none
  else match a with
    | .flag full =>
      let s := s.logOp .isWriteBlocked (s.qstream sid)
      some (if full then s else s.unblockStream sid)
    | _ => none

end H3Session

/-- One step of `flush_nghttp3`. -/
def flushStep (conf : SessionConf) (s : H3Session) : FlushPc → Answer → Option (H3Session × FlushPc)
  | .unblock [], .go => some (s, .writev)
  | .unblock (sid :: rest), a => (s.unblockStep sid a).map fun s => (s, .unblock rest)
  | .writev, .callback cb => some (s.callback conf cb, .writev)
  | .writev, .writevFailed err => some ((s.markNgh3Dead err).freePending, .returned)
  | .writev, .writevEmpty => some (s.freePending, .returned)
  | .writev, .writevData sid =>
    -- the bytes of a stream that is gone are only counted as written
    some (s, if sid ∈ s.streams ∧ (s.qstream sid).isSome then .write sid else .offsets none)
  | .write sid, .wrote blocked broken =>
    some (s.logOp .write (s.qstream sid), .offsets (if !broken && blocked then some sid else none))
  | .offsets blocked, .callback cb => some (s.callback conf cb, .offsets blocked)
  | .offsets blocked, .returned _ => some (blocked.elim s s.blockStream, .writev)
  | _, _ => none

end ModHttp3.Session
