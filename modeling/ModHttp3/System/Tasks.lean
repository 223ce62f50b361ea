import ModHttp3.Session.Lifecycle

/-! Request tasks: from the reservation of a stream in `h3_process_request` to the last
statement of `stream_worker`. -/
namespace ModHttp3.System
open Session

/-- Where a task is. Up to `dropped` it is the event thread that works on it. -/
inductive Phase
  | reserved
  | poolFailed
  | counted
  | pushFailed
  | pushUnreserved
  | dropped
  | queued
  | creating
  | building
  | gaveUp
  | unreserved
  | released
  | processing
  | marking
  | marked
  | exited
  deriving DecidableEq, Repr

structure Task where
  sid : ℤ
  phase : Phase
  deriving DecidableEq, Repr

namespace Phase

/-- The statements of this phase read or write the stream. -/
def touchesStream : Phase → Bool
  | reserved | poolFailed | pushFailed | building | gaveUp | processing | marking => true
  | _ => false

/-- The statements of this phase read or write the session. -/
def touchesSession : Phase → Bool
  | dropped | released | exited => false
  | _ => true

/-- Between the increment of `active_tasks` and its decrement. -/
def isCounted : Phase → Bool
  | reserved | poolFailed | dropped | released | exited => false
  | _ => true

/-- Between the reservation of the stream and the last access to it. -/
def holds : Phase → Bool
  | pushUnreserved | dropped | unreserved | released | marked | exited => false
  | _ => true

/-- The event thread is working on the task. -/
def onEventThread : Phase → Bool
  | reserved | poolFailed | counted | pushFailed | pushUnreserved => true
  | _ => false

/-- The task has been handed to the worker pool. -/
def handedOver : Phase → Bool
  | reserved | poolFailed | counted | pushFailed | pushUnreserved | dropped => false
  | _ => true

/-- The reservation was undone: the push failed, or the worker gave up before processing. -/
def letGo : Phase → Bool
  | pushUnreserved | dropped | unreserved | released => true
  | _ => false

/-- The request was processed to the end. -/
def served : Phase → Bool
  | marked | exited => true
  | _ => false

theorem holds_of_touchesStream {p : Phase} (h : p.touchesStream) : p.holds := by
  cases p <;> first | rfl | cases h

theorem touchesSession_of_holds {p : Phase} (h : p.holds) : p.touchesSession := by
  cases p <;> first | rfl | cases h

theorem not_letGo_of_holds {p : Phase} (h : p.holds) : p.letGo = false := by
  cases p <;> first | rfl | cases h

theorem not_letGo_of_served {p : Phase} (h : p.served) : p.letGo = false := by
  cases p <;> first | rfl | cases h

theorem letGo_of_not {p : Phase} (hh : p.holds = false) (hs : p.served = false) : p.letGo := by
  cases p <;> first | rfl | (cases hh; done) | cases hs

end Phase

end ModHttp3.System
