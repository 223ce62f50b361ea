import Mathlib.Algebra.GroupWithZero.Nat
import ModHttp3.Basic

/-! `h3q_stream_write`: passing buffers to OpenSSL until one is not taken whole. -/
namespace ModHttp3.Quic

/-- What `SSL_write_ex` answers: it took `w` bytes, would block, or failed otherwise. -/
inductive SslWrite
  | took (w : ℕ)
  | wantWrite
  | failed
  deriving DecidableEq, Repr

/-- `h3q_write_result`. -/
structure WriteResult where
  accepted : ℕ
  blocked : Bool
  broken : Bool
  deriving DecidableEq, Repr

/-- The loop over the buffers, with one answer for each call; returns also the bytes OpenSSL
took. `none` if the answers do not fit the calls made. -/
def writeLoop : List Bytes → List SslWrite → Option (WriteResult × Bytes)
  | [], [] => some (⟨0, false, false⟩, [])
  | v :: rest, .took w :: answers =>
    if v.length < w then none
    else if w < v.length then
      if answers = [] then some (⟨w, true, false⟩, v.take w) else none
    else (writeLoop rest answers).map fun r => ({ r.1 with accepted := w + r.1.accepted }, v ++ r.2)
  | _ :: _, [.wantWrite] => some (⟨0, true, false⟩, [])
  | _ :: _, [.failed] => some (⟨0, false, true⟩, [])
  | _, _ => none

/-- The result, the bytes taken, and whether `SSL_stream_conclude` was called. -/
structure Written where
  result : WriteResult
  bytes : Bytes
  concluded : Bool
  deriving DecidableEq, Repr

def h3qStreamWrite (vec : List Bytes) (fin : Bool) (answers : List SslWrite) : Option Written :=
  let expected := (vec.map List.length).sum
  (writeLoop vec answers).map fun r =>
    ⟨r.1, r.2, fin && !r.1.blocked && !r.1.broken && r.1.accepted == expected⟩

/-- What a write may have done: the bytes taken are the first ones, they are counted, and they
are all of them unless it blocked or broke. -/
structure WriteSpec (vec : List Bytes) (r : WriteResult) (bytes : Bytes) : Prop where
  first : bytes <+: vec.flatten
  counted : r.accepted = bytes.length
  whole : r.blocked = false → r.broken = false → bytes = vec.flatten

private theorem writeLoop_spec {vec : List Bytes} {answers : List SslWrite} {r : WriteResult} {bytes : Bytes}
    (h : writeLoop vec answers = some (r, bytes)) : WriteSpec vec r bytes := by
  induction vec generalizing answers r bytes with
  | nil =>
    cases answers with
    | nil =>
      cases h
      exact ⟨List.nil_prefix, rfl, fun _ _ => rfl⟩
    | cons a answers => cases h
  | cons v rest ih =>
    unfold writeLoop at h
    split at h
    · rename_i hn
      cases hn
    · rename_i w answers hv
      cases hv
      split_ifs at h with hlong hshort hlast
      · cases h
        have hlen : w = (v.take w).length := by
          rw [List.length_take]
          omega
        exact ⟨(List.take_prefix _ _).trans (List.prefix_append _ _), hlen, nofun⟩
      · obtain ⟨⟨r', bytes'⟩, hr, he⟩ := Option.map_eq_some_iff.mp h
        cases he
        have hrest := ih hr
        have hw : w = v.length := by omega
        refine ⟨?_, ?_, fun hb hk => ?_⟩
        · rw [List.flatten_cons, List.prefix_append_right_inj]
          exact hrest.first
        · rw [List.length_append, hw, hrest.counted]
        · rw [List.flatten_cons, hrest.whole hb hk]
    · cases h
      exact ⟨List.nil_prefix, rfl, nofun⟩
    · cases h
      exact ⟨List.nil_prefix, rfl, fun _ => nofun⟩
    · cases h

theorem h3qStreamWrite_spec {vec : List Bytes} {fin : Bool} {answers : List SslWrite} {w : Written}
    (h : h3qStreamWrite vec fin answers = some w) :
    WriteSpec vec w.result w.bytes ∧
      (w.concluded ↔ fin ∧ w.result.blocked = false ∧ w.result.broken = false) := by
  obtain ⟨⟨r, bytes⟩, hr, he⟩ := Option.map_eq_some_iff.mp h
  cases he
  have hs := writeLoop_spec hr
  refine ⟨hs, ?_⟩
  have hall : r.blocked = false → r.broken = false → r.accepted = (vec.map List.length).sum := by
    intro hb hk
    rw [hs.counted, hs.whole hb hk, List.length_flatten]
  simp only [Bool.and_eq_true, Bool.not_eq_true', beq_iff_eq]
  constructor
  · exact fun hc => ⟨hc.1.1.1, hc.1.1.2, hc.1.2⟩
  · exact fun hc => ⟨⟨⟨hc.1, hc.2.1⟩, hc.2.2⟩, hall hc.2.1 hc.2.2⟩

end ModHttp3.Quic
