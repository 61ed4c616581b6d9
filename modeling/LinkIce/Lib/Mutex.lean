import Mathlib.Order.Basic

/-! A non-recursive mutex as seen by its only owner. -/
namespace LinkIce

/-- `deadlocked` is the state after a lock by the thread that already holds the mutex. -/
inductive Mutex
  | free | held | deadlocked
  deriving DecidableEq, Repr

namespace Mutex

def lock : Mutex → Mutex
  | free => held
  | held | deadlocked => deadlocked

def unlock : Mutex → Mutex
  | free | held => free
  | deadlocked => deadlocked

theorem section_section (m : Mutex) : m.lock.unlock.lock.unlock = m.lock.unlock := by
  cases m <;> rfl

@[simp] theorem unlock_unlock_lock_lock (m : Mutex) : m.lock.lock.unlock.unlock = deadlocked := by
  cases m <;> rfl

end Mutex

end LinkIce
