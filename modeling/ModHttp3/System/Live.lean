import ModHttp3.Session.Budget
import ModHttp3.System.Goaway

/-! A session that goes on, and where its passes lead: from which places of a pass a flush or the GOAWAY is still
to come, and how a drain and a pass come to their ends. -/
namespace ModHttp3.Session

/-- A drain that has spent its budget has read something. -/
theorem Turn.dataRead {s s' : H3Session} {d d' : Drain} {pc pc' : DrainPc} {a : Answer}
    (h : Turn s d pc a s' d' pc') (hd : d.exhausted → d.dataRead) : d'.exhausted → d'.dataRead := by
  cases h with
  | visit hs hspends =>
    cases hspends with
    | nothing _ => exact hd
    | read _ _ => exact fun _ => rfl
  | _ => exact hd

end ModHttp3.Session

namespace ModHttp3.System
open Session Lib

/-- The session goes on: it is not aborted, and nghttp3 has not failed. -/
def State.live (σ : State) : Prop := σ.session.aborted = false ∧ σ.session.ngh3Dead = false

/-- A flush is at work; on a dead nghttp3 it returns at once. -/
def EventPc.sending : EventPc → Bool
  | .flush _ pc => pc != .returned
  | _ => false

section
variable {conf : SessionConf} {σ σ' : State} {act : Action} {a : Answer}

end

end ModHttp3.System
