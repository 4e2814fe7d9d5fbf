import Mathlib.Logic.Basic

/-!
# Semaphores (`src/ipc.c`)

A semaphore with `RT_IPC_FLAG_FIFO`: its value, and the threads suspended on it in the order in which
they will be resumed. The functions run with the interrupts disabled, up to the point where the thread
is suspended.
-/

namespace AtkOnenet

/-- `struct rt_semaphore`. -/
structure RtSem (τ : Type) where
  value : Nat
  suspendThread : List τ
  deriving DecidableEq, Repr

/-- `RT_SEM_VALUE_MAX`. -/
def rtSemValueMax : Nat := 65535

/-- What comes of `rt_sem_take`: it returns `RT_EOK` or `-RT_ETIMEOUT` at once, or the thread is
suspended. -/
inductive Taken where
  | ok
  | timeout
  | suspended
  deriving DecidableEq, Repr

section

variable {τ : Type}

/-- `rt_sem_init` with `RT_IPC_FLAG_FIFO`. -/
def rtSemInit (value : Nat) : RtSem τ := ⟨value, []⟩

/-- `rt_sem_take` of the thread `t`. A negative time is `RT_WAITING_FOREVER`. -/
def rtSemTake (s : RtSem τ) (t : τ) (time : Int) : Taken × RtSem τ :=
  if s.value > 0 then (.ok, { s with value := s.value - 1 })
  else if time = 0 then (.timeout, s)
  else (.suspended, { s with suspendThread := s.suspendThread ++ [t] })

/-- `rt_sem_release`, with the thread that it resumes. -/
def rtSemRelease (s : RtSem τ) : Option τ × RtSem τ :=
  match s.suspendThread with
  | t :: ts => (some t, { s with suspendThread := ts })
  | [] => (none, if s.value < rtSemValueMax then { s with value := s.value + 1 } else s)

/-- `rt_sem_control` with `RT_IPC_CMD_RESET`, with the threads that it resumes. -/
def rtSemReset (s : RtSem τ) (value : Nat) : List τ × RtSem τ :=
  (s.suspendThread, ⟨value, []⟩)

/-- The timer of the suspended thread `t` ends its wait (`rt_thread_timeout`). -/
def rtSemTimeout [DecidableEq τ] (s : RtSem τ) (t : τ) : RtSem τ :=
  { s with suspendThread := s.suspendThread.erase t }

end

end AtkOnenet
