import Reclaim.Fault

/-! Counting semaphores. A thread that finds no permit parks until a signal wakes it; when it
resumes, the permit may be gone again and it parks anew. -/

namespace Reclaim

structure Semaphore where
  permits : Nat
  deriving DecidableEq, Repr, Inhabited

namespace Semaphore

def post (semaphore : Semaphore) : Semaphore := ⟨semaphore.permits + 1⟩

def signal (semaphore : Semaphore) : Except Fault Semaphore :=
  match Word.add semaphore.permits 1 with
  | .error fault => .error fault
  | .ok permits => .ok ⟨permits⟩

def acquire? (semaphore : Semaphore) : Option Semaphore :=
  if 0 < semaphore.permits then some ⟨semaphore.permits - 1⟩ else none

def tryAcquire (semaphore : Semaphore) : Bool × Semaphore :=
  match semaphore.acquire? with
  | none => (false, semaphore)
  | some taken => (true, taken)

structure Crowd where
  permits : Nat
  parked : Nat
  woken : Nat
  served : Nat
  expired : Nat
  deriving DecidableEq, Repr

namespace Crowd

def start (semaphore : Semaphore) : Crowd := ⟨semaphore.permits, 0, 0, 0, 0⟩

def look (crowd : Crowd) : Crowd :=
  if 0 < crowd.permits then
    { crowd with permits := crowd.permits - 1, served := crowd.served + 1 }
  else { crowd with parked := crowd.parked + 1 }

def resume (crowd : Crowd) : Crowd :=
  if 0 < crowd.woken then look { crowd with woken := crowd.woken - 1 } else crowd

def signal (crowd : Crowd) : Except Fault Crowd :=
  match Word.add crowd.permits 1 with
  | .error fault => .error fault
  | .ok permits =>
      if 0 < crowd.parked then
        .ok { crowd with permits, parked := crowd.parked - 1, woken := crowd.woken + 1 }
      else .ok { crowd with permits }

def expire (crowd : Crowd) : Crowd :=
  if 0 < crowd.parked then
    { crowd with parked := crowd.parked - 1, expired := crowd.expired + 1 }
  else crowd

def times (step : Crowd → Crowd) : Nat → Crowd → Crowd
  | 0, crowd => crowd
  | count + 1, crowd => times step count (step crowd)

def signals : Nat → Crowd → Except Fault Unit × Crowd
  | 0, crowd => (.ok (), crowd)
  | count + 1, crowd =>
      match crowd.signal with
      | .error fault => (.error fault, crowd)
      | .ok crowd => signals count crowd

end Crowd

/-- Lets threads come to wait, then sends signals, then lets every woken thread resume; patient
threads stay parked, the others give up. Answers the number of permits taken, or nothing when a
patient thread would wait for ever. -/
def gather (semaphore : Semaphore) (waiters signals : Nat) (patient : Bool) :
    Option (Except Fault Nat × Semaphore) :=
  if patient ∧ semaphore.permits + signals < waiters then none
  else
    let (sent, crowd) := (Crowd.times .look waiters (.start semaphore)).signals signals
    let crowd := Crowd.times .resume crowd.woken crowd
    let crowd := if patient then crowd else Crowd.times .expire crowd.parked crowd
    some (sent.map fun _ => crowd.served, ⟨crowd.permits⟩)

end Semaphore

end Reclaim
