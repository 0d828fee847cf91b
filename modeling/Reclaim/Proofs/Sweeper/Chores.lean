import Reclaim.Coordinator
import Reclaim.Proofs.Heap.Harvest

/-! The chores of a sweeper, one at a time. Between any two of them other sweepers and the client may
act; what a sweeper has in hand stays with it meanwhile. The handshake is what a sweeper and its
coordinator may rely on at any of these points. -/

namespace Reclaim

inductive Chore where
  | wake
  | heed
  | take
  | sweep (page : Page) (answer : Except Fault Unit)
  | publish (kind : SpaceKind) (answer : Except Fault Unit)
  | conclude
  | leave
  | signal
  | acknowledge

def Chore.fault? : Chore → Option Fault
  | .sweep _ (.error fault) => some fault
  | .publish _ (.error fault) => some fault
  | _ => none

def Chore.sweeps : Chore → List Page
  | .sweep page _ => [page]
  | _ => []

def Sweeper.endure (sweeper : Sweeper) : Except Fault Unit → Sweeper
  | .ok () => sweeper
  | .error _ => { sweeper with phase := .died }

inductive Move (stop : Bool) : Sweeper → Load → Site → Chore → Sweeper → Load → Site → Prop
  | wake {sweeper woken : Sweeper} {load : Load} {site : Site}
      (taken : sweeper.takePermit? = some woken) :
      Move stop sweeper load site .wake woken load site
  | heed {sweeper : Sweeper} {load : Load} {site : Site} (phase : sweeper.phase = .woken) :
      Move stop sweeper load site .heed (sweeper.heed stop) load site
  | take {sweeper : Sweeper} {load : Load} {site : Site} (phase : sweeper.phase = .cleared) :
      Move stop sweeper load site .take sweeper.takeBatch (.ofPages sweeper.assignment.pages)
        (site.note (.sweeper sweeper.index)
          (.enter (.sweepBatch sweeper.assignment.round sweeper.index
            sweeper.assignment.pages.length)))
  | sweep {sweeper : Sweeper} {load : Load} {site : Site} {batch : Assignment} {page : Page}
      {left : List Page} (phase : sweeper.phase = .sweeping batch)
      (first : load.left = page :: left) :
      Move stop sweeper load site (.sweep page (load.sweepNext site.heap).1)
        (sweeper.endure (load.sweepNext site.heap).1) (load.sweepNext site.heap).2.1
        { site with heap := (load.sweepNext site.heap).2.2 }
  | publish {sweeper : Sweeper} {load : Load} {site : Site} {batch : Assignment}
      (kind : SpaceKind) (phase : sweeper.phase = .sweeping batch) (done : load.left = [])
      (some : load.batch.pages.get kind ≠ []) :
      Move stop sweeper load site (.publish kind (load.publish site.heap kind).1)
        (sweeper.endure (load.publish site.heap kind).1) (load.publish site.heap kind).2.1
        { site with heap := (load.publish site.heap kind).2.2 }
  | conclude {sweeper : Sweeper} {load : Load} {site : Site} {batch : Assignment}
      (phase : sweeper.phase = .sweeping batch) (done : load.pages = []) :
      Move stop sweeper load site .conclude (sweeper.concludeBatch load.batch.yielded) load
        ((site.note (.sweeper sweeper.index)
          (.report (.batchSwept (some sweeper.index) load.batch.yielded.pages
            load.batch.yielded.freed))).note (.sweeper sweeper.index)
          (.leave (.sweepBatch batch.round sweeper.index batch.pages.length)))
  | leave {sweeper : Sweeper} {load : Load} {site : Site} {outcome : BatchYield}
      (phase : sweeper.phase = .swept outcome) :
      Move stop sweeper load site .leave sweeper.leaveOutcome load site
  | signal {sweeper : Sweeper} {load : Load} {site : Site} (phase : sweeper.phase = .reported) :
      Move stop sweeper load site .signal sweeper.signalEnd load site
  | acknowledge {sweeper : Sweeper} {load : Load} {site : Site}
      (phase : sweeper.phase = .leaving) :
      Move stop sweeper load site .acknowledge sweeper.acknowledge load
        ((site.note (.sweeper sweeper.index) (.report (.sweeperStopped sweeper.index))).note
          (.sweeper sweeper.index) (.leave (.sweeperThread sweeper.index)))

namespace SweeperPhase

def token : SweeperPhase → Nat
  | .idle => 0
  | _ => 1

def busy : SweeperPhase → Bool
  | .cleared | .sweeping _ | .swept _ | .reported => true
  | _ => false

def past : SweeperPhase → Bool
  | .sweeping _ | .swept _ | .reported => true
  | _ => false

def holds : SweeperPhase → Bool
  | .sweeping _ => true
  | _ => false

end SweeperPhase

/-- What holds of a sweeper and its load between any two steps. As long as nobody stops the sweepers,
a round in flight is one permit, in one of its places: waiting to be taken, with the sweeper, or
waiting for those who wait for the end. -/
structure Handshake (stop : Bool) (sweeper : Sweeper) (load : Load) : Prop where
  alive : sweeper.phase ≠ .died
  hand : sweeper.phase.holds = false → load.pages = []
  slot : sweeper.assignment.pages ≠ [] →
    sweeper.inFlight = true ∧ sweeper.ended.permits = 0 ∧ sweeper.outcome = none
  taken : sweeper.phase.past = true → sweeper.assignment.pages = []
  busy : sweeper.phase.busy = true → sweeper.inFlight = true ∧ sweeper.ended.permits = 0
  unreported : sweeper.phase.busy = true → sweeper.phase ≠ .reported → sweeper.outcome = none
  permits : stop = false →
    sweeper.begun.permits + sweeper.ended.permits + sweeper.phase.token =
      if sweeper.inFlight then 1 else 0
  running : stop = false → sweeper.phase ≠ .leaving ∧ sweeper.phase ≠ .exited
  left : stop = false → sweeper.outcome ≠ none →
    sweeper.phase = .reported ∨ sweeper.ended.permits = 1
  acknowledged : 0 < sweeper.stopped.permits → sweeper.phase = .exited

namespace Handshake

variable {stop : Bool} {sweeper : Sweeper} {load : Load}

theorem fresh (index : Nat) : Handshake stop (.fresh index) (.ofPages []) := by
  constructor <;> simp [Sweeper.fresh, Assignment.none, SweeperPhase.past, SweeperPhase.busy,
    SweeperPhase.token, Load.ofPages_pages]

theorem reload (shake : Handshake stop sweeper load) (holds : sweeper.phase.holds = true)
    (taken : Load) : Handshake stop sweeper taken where
  alive := shake.alive
  hand idle := by
    rw [holds] at idle
    cases idle
  slot := shake.slot
  taken := shake.taken
  busy := shake.busy
  unreported := shake.unreported
  permits := shake.permits
  running := shake.running
  left := shake.left
  acknowledged := shake.acknowledged

theorem stopped (shake : Handshake stop sweeper load) : Handshake true sweeper load :=
  { shake with
    permits := nofun
    running := nofun
    left := nofun }

theorem relatch (shake : Handshake stop sweeper load) (completed : Bool) :
    Handshake stop { sweeper with completed } load :=
  { shake with }

theorem at_busy (shake : Handshake stop sweeper load) (busy : sweeper.phase.busy = true) :
    sweeper.inFlight = true ∧ sweeper.ended.permits = 0 ∧
      (stop = false → sweeper.begun.permits = 0) ∧ sweeper.stopped.permits = 0 := by
  obtain ⟨flight, ended⟩ := shake.busy busy
  have token : sweeper.phase.token = 1 := by
    cases phase : sweeper.phase <;> first | rfl | simp [phase, SweeperPhase.busy] at busy
  refine ⟨flight, ended, ?_, ?_⟩
  · intro running
    have counted := shake.permits running
    rw [flight, token, if_pos rfl] at counted
    omega
  · by_contra posted
    have exited := shake.acknowledged (by omega)
    rw [exited] at busy
    cases busy

theorem of_busy (busy : sweeper.phase.busy = true) (flight : sweeper.inFlight = true)
    (ended : sweeper.ended.permits = 0) (begun : stop = false → sweeper.begun.permits = 0)
    (stopped : sweeper.stopped.permits = 0) (hand : sweeper.phase.holds = false → load.pages = [])
    (slot : sweeper.assignment.pages ≠ [] → sweeper.outcome = none)
    (taken : sweeper.phase.past = true → sweeper.assignment.pages = [])
    (unreported : sweeper.phase ≠ .reported → sweeper.outcome = none) :
    Handshake stop sweeper load where
  alive died := by
    rw [died] at busy
    cases busy
  hand := hand
  slot held := ⟨flight, ended, slot held⟩
  taken := taken
  busy _ := ⟨flight, ended⟩
  unreported _ := unreported
  permits running := by
    have token : sweeper.phase.token = 1 := by
      cases phase : sweeper.phase <;> first | rfl | simp [phase, SweeperPhase.busy] at busy
    rw [begun running, ended, flight, token, if_pos rfl]
  running _ := by
    constructor <;> intro phase <;> rw [phase] at busy <;> cases busy
  left _ outcome := by
    by_cases reported : sweeper.phase = .reported
    · exact Or.inl reported
    · exact absurd (unreported reported) outcome
  acknowledged posted := by omega

end Handshake

theorem Sweeper.takePermit?_some {sweeper woken : Sweeper}
    (taken : sweeper.takePermit? = some woken) :
    sweeper.phase = .idle ∧ 0 < sweeper.begun.permits ∧
      woken = { sweeper with begun := ⟨sweeper.begun.permits - 1⟩, phase := .woken } := by
  unfold takePermit? at taken
  split at taken
  next idle =>
    obtain ⟨begun, acquired, rfl⟩ := Option.map_eq_some_iff.mp taken
    unfold Semaphore.acquire? at acquired
    split at acquired
    next some =>
      cases acquired
      exact ⟨idle, some, rfl⟩
    next => cases acquired
  next => cases taken

theorem Sweeper.endure_calm {sweeper : Sweeper} {answer : Except Fault Unit}
    (calm : ∀ fault, answer ≠ .error fault) : sweeper.endure answer = sweeper := by
  cases answer with
  | ok _ => rfl
  | error fault => exact absurd rfl (calm fault)

namespace Handshake

variable {stop : Bool} {sweeper : Sweeper} {load : Load}

theorem wake {woken : Sweeper} (shake : Handshake stop sweeper load)
    (taken : sweeper.takePermit? = some woken) : Handshake stop woken load := by
  obtain ⟨idle, posted, rfl⟩ := Sweeper.takePermit?_some taken
  constructor
  · simp
  · intro _
    exact shake.hand (by rw [idle]; rfl)
  · exact shake.slot
  · intro past
    cases past
  · intro busy
    cases busy
  · intro busy
    cases busy
  · intro running
    have counted := shake.permits running
    rw [idle] at counted
    simp only [SweeperPhase.token] at counted ⊢
    omega
  · simp
  · intro running outcome
    have left := shake.left running outcome
    rw [idle] at left
    exact left.imp_left nofun
  · intro acknowledged
    have exited := shake.acknowledged acknowledged
    rw [idle] at exited
    cases exited

theorem woken (shake : Handshake false sweeper load) (phase : sweeper.phase = .woken) :
    sweeper.inFlight = true ∧ sweeper.ended.permits = 0 ∧ sweeper.begun.permits = 0 ∧
      sweeper.outcome = none := by
  have counted := shake.permits rfl
  rw [phase] at counted
  simp only [SweeperPhase.token] at counted
  have flight : sweeper.inFlight = true := by
    by_contra rest
    rw [if_neg rest] at counted
    omega
  rw [if_pos flight] at counted
  refine ⟨flight, by omega, by omega, ?_⟩
  by_contra outcome
  rcases shake.left rfl outcome with reported | ended
  · rw [phase] at reported
    cases reported
  · omega

theorem heed (shake : Handshake stop sweeper load) (phase : sweeper.phase = .woken) :
    Handshake stop (sweeper.heed stop) load := by
  have empty := shake.hand (by rw [phase]; rfl)
  have unstopped : ¬ 0 < sweeper.stopped.permits := by
    intro posted
    have exited := shake.acknowledged posted
    rw [phase] at exited
    cases exited
  simp only [Sweeper.heed, phase]
  cases stop with
  | false =>
      obtain ⟨flight, ended, begun, outcome⟩ := shake.woken phase
      exact .of_busy rfl flight ended (fun _ => begun) (by dsimp only; omega) (fun _ => empty)
        (fun _ => outcome) nofun (fun _ => outcome)
  | true =>
      exact { shake with
        alive := nofun
        hand := fun _ => empty
        taken := nofun
        busy := nofun
        unreported := nofun
        permits := nofun
        running := nofun
        left := nofun
        acknowledged := fun posted => absurd posted unstopped }

theorem take (shake : Handshake stop sweeper load) (phase : sweeper.phase = .cleared) :
    Handshake stop sweeper.takeBatch (.ofPages sweeper.assignment.pages) := by
  obtain ⟨flight, ended, begun, stopped⟩ := shake.at_busy (by rw [phase]; rfl)
  have outcome := shake.unreported (by rw [phase]; rfl) (by rw [phase]; nofun)
  simp only [Sweeper.takeBatch, phase]
  exact .of_busy rfl flight ended begun stopped nofun (fun _ => outcome) (fun _ => rfl)
    (fun _ => outcome)

theorem conclude {batch : Assignment} (shake : Handshake stop sweeper load)
    (phase : sweeper.phase = .sweeping batch) (done : load.pages = []) :
    Handshake stop (sweeper.concludeBatch load.batch.yielded) load := by
  obtain ⟨flight, ended, begun, stopped⟩ := shake.at_busy (by rw [phase]; rfl)
  have empty := shake.taken (by rw [phase]; rfl)
  have outcome := shake.unreported (by rw [phase]; rfl) (by rw [phase]; nofun)
  simp only [Sweeper.concludeBatch, phase]
  exact .of_busy rfl flight ended begun stopped (fun _ => done) (fun _ => outcome) (fun _ => empty)
    (fun _ => outcome)

theorem leave {outcome : BatchYield} (shake : Handshake stop sweeper load)
    (phase : sweeper.phase = .swept outcome) : Handshake stop sweeper.leaveOutcome load := by
  obtain ⟨flight, ended, begun, stopped⟩ := shake.at_busy (by rw [phase]; rfl)
  have empty := shake.taken (by rw [phase]; rfl)
  have hand := shake.hand (by rw [phase]; rfl)
  simp only [Sweeper.leaveOutcome, phase]
  exact .of_busy rfl flight ended begun stopped (fun _ => hand) (fun held => absurd empty held)
    (fun _ => empty) (fun unreported => absurd rfl unreported)

theorem signal (shake : Handshake stop sweeper load) (phase : sweeper.phase = .reported) :
    Handshake stop sweeper.signalEnd load := by
  obtain ⟨flight, ended, begun, stopped⟩ := shake.at_busy (by rw [phase]; rfl)
  have empty := shake.taken (by rw [phase]; rfl)
  have hand := shake.hand (by rw [phase]; rfl)
  have once : sweeper.ended.post.permits = 1 := congrArg (· + 1) ended
  simp only [Sweeper.signalEnd, phase]
  constructor
  · nofun
  · exact fun _ => hand
  · exact fun held => absurd empty held
  · nofun
  · nofun
  · nofun
  · intro running
    rw [begun running, once, flight]
    rfl
  · exact fun _ => ⟨nofun, nofun⟩
  · exact fun _ _ => Or.inr once
  · intro posted
    dsimp only at posted
    omega

theorem acknowledge (shake : Handshake stop sweeper load) (phase : sweeper.phase = .leaving) :
    Handshake stop sweeper.acknowledge load := by
  have halted : stop = true := by
    by_contra running
    exact (shake.running (by simpa using running)).1 phase
  have hand := shake.hand (by rw [phase]; rfl)
  subst halted
  simp only [Sweeper.acknowledge, phase]
  exact { shake with
    alive := nofun
    hand := fun _ => hand
    taken := nofun
    busy := nofun
    unreported := nofun
    permits := nofun
    running := nofun
    left := nofun
    acknowledged := fun _ => rfl }

end Handshake

namespace Move

variable {stop : Bool} {sweeper next : Sweeper} {load taken : Load} {site later : Site}
  {chore : Chore}

/-- No chore but a fault breaks the handshake. -/
theorem handshake (move : Move stop sweeper load site chore next taken later)
    (calm : chore.fault? = none) (shake : Handshake stop sweeper load) :
    Handshake stop next taken := by
  cases move with
  | wake taken => exact shake.wake taken
  | heed phase => exact shake.heed phase
  | take phase => exact shake.take phase
  | sweep phase first =>
      rw [Sweeper.endure_calm fun fault failed => by simp [Chore.fault?, failed] at calm]
      exact shake.reload (by rw [phase]; rfl) _
  | publish kind phase done some =>
      rw [Sweeper.endure_calm fun fault failed => by simp [Chore.fault?, failed] at calm]
      exact shake.reload (by rw [phase]; rfl) _
  | conclude phase done => exact shake.conclude phase done
  | leave phase => exact shake.leave phase
  | signal phase => exact shake.signal phase
  | acknowledge phase => exact shake.acknowledge phase

theorem frame (move : Move stop sweeper load site chore next taken later)
    (calm : chore.fault? = none) :
    next.index = sweeper.index ∧ next.inFlight = sweeper.inFlight ∧
      next.joinable = sweeper.joinable := by
  cases move with
  | wake taken =>
      obtain ⟨_, _, rfl⟩ := Sweeper.takePermit?_some taken
      exact ⟨rfl, rfl, rfl⟩
  | heed phase => simp only [Sweeper.heed, phase, and_self]
  | take phase => simp only [Sweeper.takeBatch, phase, and_self]
  | sweep _ _ =>
      rw [Sweeper.endure_calm fun fault failed => by simp [Chore.fault?, failed] at calm]
      exact ⟨rfl, rfl, rfl⟩
  | publish _ _ _ _ =>
      rw [Sweeper.endure_calm fun fault failed => by simp [Chore.fault?, failed] at calm]
      exact ⟨rfl, rfl, rfl⟩
  | conclude phase _ => simp only [Sweeper.concludeBatch, phase, and_self]
  | leave phase => simp only [Sweeper.leaveOutcome, phase, and_self]
  | signal phase => simp only [Sweeper.signalEnd, phase, and_self]
  | acknowledge phase => simp only [Sweeper.acknowledge, phase, and_self]

theorem index (move : Move stop sweeper load site chore next taken later)
    (calm : chore.fault? = none) : next.index = sweeper.index := (move.frame calm).1

theorem flight (move : Move stop sweeper load site chore next taken later)
    (calm : chore.fault? = none) : next.inFlight = sweeper.inFlight := (move.frame calm).2.1

end Move

/-! What the coordinator and those who wait do to a sweeper. -/

namespace Sweeper

def dealt (sweeper : Sweeper) (round : Nat) (pages : List Page) : Sweeper :=
  { sweeper with
    assignment := ⟨round, pages⟩
    completed := false
    inFlight := true
    begun := sweeper.begun.post }

def awaited (sweeper : Sweeper) : Sweeper :=
  { sweeper with
    ended := ⟨sweeper.ended.permits - 1⟩
    completed := true
    inFlight := false
    outcome := none }

def joined (sweeper : Sweeper) : Sweeper :=
  { sweeper with
    stopped := ⟨sweeper.stopped.permits - 1⟩
    joinable := false
    inFlight := false
    assignment := .none
    outcome := none }

theorem acquireEnd?_some {sweeper taken : Sweeper}
    (acquired : sweeper.acquireEnd? = some taken) :
    0 < sweeper.ended.permits ∧
      taken = { sweeper with ended := ⟨sweeper.ended.permits - 1⟩ } := by
  obtain ⟨permits, posted, rfl⟩ := Option.map_eq_some_iff.mp acquired
  unfold Semaphore.acquire? at posted
  split at posted
  next some =>
    cases posted
    exact ⟨some, rfl⟩
  next => cases posted

theorem await?_some {sweeper next : Sweeper} {outcome : Option BatchYield}
    (waited : sweeper.await? = some (outcome, next)) :
    (sweeper.inFlight = false ∧ outcome = none ∧ next = sweeper) ∨
      (sweeper.inFlight = true ∧ 0 < sweeper.ended.permits ∧ outcome = sweeper.outcome ∧
        next = sweeper.awaited) := by
  unfold await? at waited
  split at waited
  next flight =>
    obtain ⟨ended, acquired, same⟩ := Option.map_eq_some_iff.mp waited
    obtain ⟨posted, rfl⟩ := acquireEnd?_some acquired
    cases same
    exact Or.inr ⟨flight, posted, rfl, rfl⟩
  next flight =>
    cases waited
    exact Or.inl ⟨by simpa using flight, rfl, rfl⟩

/-- A poll leaves everything as it was but the latch. -/
theorem poll_eq (sweeper : Sweeper) :
    sweeper.poll.2 = { sweeper with completed := sweeper.poll.2.completed } := by
  unfold poll
  split
  next => rfl
  next =>
    split
    next borrowed acquired =>
      obtain ⟨posted, rfl⟩ := acquireEnd?_some acquired
      have whole : sweeper.ended.permits - 1 + 1 = sweeper.ended.permits := by omega
      simp only [setCompleted, returnEnd, Semaphore.post, whole]
    next => rfl

theorem join?_some {sweeper next : Sweeper} {left : Assignment}
    (joins : sweeper.join? = some (left, next)) :
    0 < sweeper.stopped.permits ∧ left = sweeper.assignment ∧
      next.takeOutcome = (sweeper.outcome, sweeper.joined) := by
  obtain ⟨stopped, acquired, same⟩ := Option.map_eq_some_iff.mp joins
  obtain ⟨permits, posted, rfl⟩ := Option.map_eq_some_iff.mp acquired
  unfold Semaphore.acquire? at posted
  split at posted
  next some =>
    cases posted
    cases same
    exact ⟨some, rfl, rfl⟩
  next => cases posted

end Sweeper

namespace Handshake

variable {stop : Bool} {sweeper : Sweeper} {load : Load}

theorem rest (shake : Handshake false sweeper load) (rest : sweeper.inFlight = false) :
    sweeper.phase = .idle ∧ sweeper.begun.permits = 0 ∧ sweeper.ended.permits = 0 ∧
      sweeper.outcome = none ∧ sweeper.assignment.pages = [] := by
  have counted := shake.permits rfl
  rw [rest, if_neg (by simp)] at counted
  have idle : sweeper.phase = .idle := by
    cases phase : sweeper.phase <;> first | rfl | simp [phase, SweeperPhase.token] at counted
  refine ⟨idle, by omega, by omega, ?_, ?_⟩
  · by_contra outcome
    rcases shake.left rfl outcome with reported | ended
    · rw [idle] at reported
      cases reported
    · omega
  · by_contra held
    have flight := (shake.slot held).1
    rw [rest] at flight
    cases flight

theorem dealt (shake : Handshake false sweeper load) (rest : sweeper.inFlight = false)
    (round : Nat) (pages : List Page) : Handshake false (sweeper.dealt round pages) load := by
  obtain ⟨idle, begun, ended, outcome, _⟩ := shake.rest rest
  obtain ⟨alive, hand, slot, past, busy, unreported, permits, running, left, acknowledged⟩ := shake
  constructor <;> simp_all [Sweeper.dealt, Semaphore.post, SweeperPhase.past, SweeperPhase.busy,
    SweeperPhase.token]

theorem awaited (shake : Handshake stop sweeper load) (flight : sweeper.inFlight = true)
    (ended : 0 < sweeper.ended.permits) : Handshake stop sweeper.awaited load where
  alive := shake.alive
  hand := shake.hand
  slot held := by
    have none := (shake.slot held).2.1
    omega
  taken := shake.taken
  busy busy := by
    have none := (shake.busy busy).2
    omega
  unreported _ _ := rfl
  permits running := by
    have counted := shake.permits running
    rw [if_pos flight] at counted
    simp only [Sweeper.awaited, Bool.false_eq_true, if_false]
    omega
  running := shake.running
  left _ outcome := absurd rfl outcome
  acknowledged := shake.acknowledged

theorem nudge (shake : Handshake true sweeper load) : Handshake true sweeper.nudge load :=
  { shake with permits := nofun }

theorem joined (shake : Handshake true sweeper load) (posted : 0 < sweeper.stopped.permits) :
    Handshake true sweeper.joined load := by
  have exited := shake.acknowledged posted
  exact { shake with
    slot := fun held => absurd rfl held
    taken := fun _ => rfl
    busy := by
      intro busy
      simp only [Sweeper.joined, exited] at busy
      cases busy
    unreported := fun _ _ => rfl
    permits := nofun
    left := nofun
    acknowledged := fun _ => exited }

end Handshake

end Reclaim
