import Mathlib.Data.Int.Notation
import Mathlib.Data.Nat.Notation
import Mathlib.Tactic.Common

/-! Constants, macros and status values shared by the module's components. -/
namespace ModHttp3

abbrev Bytes := List UInt8

def streamChunkBytes : ℕ := 4 * 1024
def h3BodyBufInitCap : ℕ := 8 * 1024

/-- Low two bits of a QUIC stream id: direction and initiator. -/
def h3SidIsBidi (sid : ℤ) : Bool := sid / 2 % 2 == 0
def h3SidIsServer (sid : ℤ) : Bool := sid % 2 == 1

/-- Double `cap` until it reaches `need`; `need` doublings are enough from a positive one. -/
def growCap : ℕ → ℕ → ℕ → ℕ
  | 0, cap, _ => cap
  | fuel + 1, cap, need => if cap < need then growCap fuel (cap * 2) need else cap

theorem le_growCap {fuel cap need : ℕ} (hcap : 0 < cap) (hfuel : need ≤ cap + fuel) :
    need ≤ growCap fuel cap need := by
  induction fuel generalizing cap with
  | zero => exact hfuel
  | succ fuel ih =>
    unfold growCap
    split_ifs with hshort
    · exact ih (by omega) (by omega)
    · exact Nat.not_lt.mp hshort

inductive AprStatus
  | success
  | einval
  | econnaborted
  | egeneral
  | enomem
  | other (code : ℕ)
  deriving DecidableEq, Repr

/-- The session fields that the response functions read under the session lock. -/
structure SessionFlags where
  aborted : Bool
  ngh3Dead : Bool
  ngh3 : Bool
  deriving DecidableEq, Repr

/-- No response can be queued or submitted any more on such a session. -/
def SessionFlags.gone (f : SessionFlags) : Bool := f.aborted || f.ngh3Dead || !f.ngh3

end ModHttp3
