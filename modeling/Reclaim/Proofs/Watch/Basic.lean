import Reclaim.Proofs.Sweeper.Effect
import Reclaim.Proofs.World.History

/-! A watch over several sweepers. Any number of threads wait for single sweepers or poll them while
rounds are started, one after another. Every access to what is shared is a step of its own, so others
may act between any two of them: between the reading of two flags, while a poll has the permit of the
end, and in the middle of a start.

A start leaves the batch of a sweeper, clears its latch, raises the flag of the round and posts the
permit to begin. A wait call that is alone with the sweeper looks at the flag, waits for the permit of
the end, sets the latch, lowers the flag and takes the outcome. A poll reads the flag and then the latch;
unless they tell that the round has ended it queues up, reads both again when it is alone, and borrows
the permit of the end. Without one it looks for the last time. -/

namespace Reclaim

inductive Launch where
  | fill (batch : Assignment)
  | renew
  | fly
  | nudge
  deriving DecidableEq, Repr

inductive WaitStage where
  | admitted
  | blocked
  | holding
  | latched
  | landed
  deriving DecidableEq, Repr

inductive Look where
  | flight
  | latch
  deriving DecidableEq, Repr

def Sweeper.spot (sweeper : Sweeper) : Look → Option Bool
  | .flight => if sweeper.inFlight then none else some true
  | .latch => some sweeper.completed

inductive Approach where
  | look (look : Look)
  | queued
  deriving DecidableEq, Repr

structure Poll where
  ticket : Nat
  approach : Approach
  deriving DecidableEq, Repr

inductive PollStage where
  | look (last : Bool) (look : Look)
  | trying
  | borrowing
  | latched
  deriving DecidableEq, Repr

structure Poller where
  ticket : Nat
  stage : PollStage
  deriving DecidableEq, Repr

structure Berth where
  sweeper : Sweeper
  load : Load
  launch : Option Launch
  queued : Nat
  waiter : Option WaitStage
  polls : List Poll
  poller : Option Poller

inductive Happening where
  | chore (chore : Chore)
  | call
  | pass
  | acquire
  | collect (outcome : Option BatchYield)
  | poll (ticket : Nat)
  | answer (ticket : Nat) (ended : Bool)
  | fill (batch : Assignment)
  | ready
  | nudge (batch : Assignment)
  | inside

def Deed.byClient : Deed → Bool
  | .take | .restore | .sweep _ _ | .publish _ _ => false
  | _ => true

namespace Berth

def fresh (index : Nat) : Berth :=
  { sweeper := .fresh index
    load := .ofPages []
    launch := none
    queued := 0
    waiter := none
    polls := []
    poller := none }

def pledged (berth : Berth) : List Page :=
  match berth.launch with
  | some (.fill batch) => batch.pages
  | _ => []

def loads (berth : Berth) : List Load :=
  [.ofPages berth.pledged, .ofPages berth.sweeper.assignment.pages, berth.load]

structure Resting (berth : Berth) : Prop where
  unlaunched : berth.launch = none
  rest : berth.sweeper.inFlight = false
  unqueued : berth.queued = 0
  unawaited : berth.waiter = none

inductive Attend (berth : Berth) : Happening → Berth → Prop
  | call : Attend berth .call { berth with queued := berth.queued + 1 }
  | serve {others : Nat} (waiting : berth.queued = others + 1) (free : berth.waiter = none) :
      Attend berth .inside { berth with queued := others, waiter := some .admitted }
  | seek (stage : berth.waiter = some .admitted) (flight : berth.sweeper.inFlight = true) :
      Attend berth .inside { berth with waiter := some .blocked }
  | pass (stage : berth.waiter = some .admitted) (rest : berth.sweeper.inFlight = false) :
      Attend berth .pass { berth with waiter := none }
  | acquire {taken : Sweeper} (stage : berth.waiter = some .blocked)
      (acquired : berth.sweeper.acquireEnd? = some taken) :
      Attend berth .acquire { berth with sweeper := taken, waiter := some .holding }
  | latch (stage : berth.waiter = some .holding) :
      Attend berth .inside
        { berth with sweeper := berth.sweeper.setCompleted true, waiter := some .latched }
  | land (stage : berth.waiter = some .latched) :
      Attend berth .inside
        { berth with sweeper := berth.sweeper.setInFlight false, waiter := some .landed }
  | collect (stage : berth.waiter = some .landed) :
      Attend berth (.collect berth.sweeper.takeOutcome.1)
        { berth with sweeper := berth.sweeper.takeOutcome.2, waiter := none }
  | poll (ticket : Nat) (unused : ∀ poll ∈ berth.polls, poll.ticket ≠ ticket)
      (other : ∀ poller, berth.poller = some poller → poller.ticket ≠ ticket) :
      Attend berth (.poll ticket)
        { berth with polls := berth.polls ++ [⟨ticket, .look .flight⟩] }
  | glance {first last : List Poll} {ticket : Nat}
      (split : berth.polls = first ++ ⟨ticket, .look .flight⟩ :: last)
      (sight : berth.sweeper.spot .flight = none) :
      Attend berth .inside { berth with polls := first ++ ⟨ticket, .look .latch⟩ :: last }
  | spot {first last : List Poll} {ticket : Nat} {look : Look}
      (split : berth.polls = first ++ ⟨ticket, .look look⟩ :: last)
      (sight : berth.sweeper.spot look = some true) :
      Attend berth (.answer ticket true) { berth with polls := first ++ last }
  | doubt {first last : List Poll} {ticket : Nat} {look : Look}
      (split : berth.polls = first ++ ⟨ticket, .look look⟩ :: last)
      (sight : berth.sweeper.spot look = some false) :
      Attend berth .inside { berth with polls := first ++ ⟨ticket, .queued⟩ :: last }
  | enter {first last : List Poll} {ticket : Nat}
      (split : berth.polls = first ++ ⟨ticket, .queued⟩ :: last) (free : berth.poller = none) :
      Attend berth .inside
        { berth with
          polls := first ++ last
          poller := some ⟨ticket, .look false .flight⟩ }
  | glanceInside {ticket : Nat} {last : Bool}
      (stage : berth.poller = some ⟨ticket, .look last .flight⟩)
      (sight : berth.sweeper.spot .flight = none) :
      Attend berth .inside { berth with poller := some ⟨ticket, .look last .latch⟩ }
  | spotInside {ticket : Nat} {last : Bool} {look : Look}
      (stage : berth.poller = some ⟨ticket, .look last look⟩)
      (sight : berth.sweeper.spot look = some true) :
      Attend berth (.answer ticket true) { berth with poller := none }
  | attempt {ticket : Nat} {look : Look}
      (stage : berth.poller = some ⟨ticket, .look false look⟩)
      (sight : berth.sweeper.spot look = some false) :
      Attend berth .inside { berth with poller := some ⟨ticket, .trying⟩ }
  | giveUp {ticket : Nat} {look : Look}
      (stage : berth.poller = some ⟨ticket, .look true look⟩)
      (sight : berth.sweeper.spot look = some false) :
      Attend berth (.answer ticket false) { berth with poller := none }
  | borrow {ticket : Nat} {taken : Sweeper} (stage : berth.poller = some ⟨ticket, .trying⟩)
      (acquired : berth.sweeper.acquireEnd? = some taken) :
      Attend berth .inside
        { berth with sweeper := taken, poller := some ⟨ticket, .borrowing⟩ }
  | miss {ticket : Nat} (stage : berth.poller = some ⟨ticket, .trying⟩)
      (none : berth.sweeper.acquireEnd? = none) :
      Attend berth .inside { berth with poller := some ⟨ticket, .look true .flight⟩ }
  | mark {ticket : Nat} (stage : berth.poller = some ⟨ticket, .borrowing⟩) :
      Attend berth .inside
        { berth with
          sweeper := berth.sweeper.setCompleted true
          poller := some ⟨ticket, .latched⟩ }
  | giveBack {ticket : Nat} (stage : berth.poller = some ⟨ticket, .latched⟩) :
      Attend berth (.answer ticket true)
        { berth with sweeper := berth.sweeper.returnEnd, poller := none }

inductive Launching (berth : Berth) : Happening → Berth → Prop
  | fill {batch : Assignment} {assigned : Sweeper} (stage : berth.launch = some (.fill batch))
      (accepted : berth.sweeper.assign batch.pages batch.round = .ok assigned) :
      Launching berth (.fill batch) { berth with sweeper := assigned, launch := some .renew }
  | renew (stage : berth.launch = some .renew) :
      Launching berth .ready
        { berth with sweeper := berth.sweeper.setCompleted false, launch := some .fly }
  | fly (stage : berth.launch = some .fly) (rest : berth.sweeper.inFlight = false) :
      Launching berth .ready
        { berth with sweeper := berth.sweeper.setInFlight true, launch := some .nudge }
  | nudge (stage : berth.launch = some .nudge) :
      Launching berth (.nudge berth.sweeper.assignment)
        { berth with sweeper := berth.sweeper.nudge, launch := none }

def refusal? (berth : Berth) : Option Fault :=
  match berth.launch with
  | some (.fill batch) =>
      match berth.sweeper.assign batch.pages batch.round with
      | .error fault => some fault
      | .ok _ => none
  | some .fly =>
      if berth.sweeper.inFlight then some (.sweeperStillInFlight berth.sweeper.index) else none
  | _ => none

inductive Step (site : Site) (berth : Berth) : Happening → Berth → Site → Prop
  | chore {next : Sweeper} {taken : Load} {later : Site} {chore : Chore}
      (move : Move false berth.sweeper berth.load site chore next taken later) :
      Step site berth (.chore chore) { berth with sweeper := next, load := taken } later
  | attend {happening : Happening} {next : Berth} (attend : berth.Attend happening next) :
      Step site berth happening next site
  | launching {happening : Happening} {next : Berth} (launching : berth.Launching happening next) :
      Step site berth happening next site

end Berth

namespace Happening

def fault? : Happening → Option Fault
  | .chore work => work.fault?
  | _ => none

def sweeps : Happening → List Page
  | .chore work => work.sweeps
  | _ => []

def launches : Happening → Bool
  | .fill _ | .ready | .nudge _ => true
  | _ => false

def goesOn : Happening → Bool
  | .call | .poll _ => false
  | _ => true

end Happening

structure Watch where
  berths : List Berth
  site : Site
  loose : List Page

inductive Moment where
  | here (index : Nat) (happening : Happening)
  | start
  | refuse (fault : Fault)
  | deed (deed : Deed)
  | books

namespace Moment

def fault? : Moment → Option Fault
  | .here _ happening => happening.fault?
  | .refuse fault => some fault
  | .deed done => done.fault?
  | _ => none

def sweeps : Moment → List Page
  | .here _ happening => happening.sweeps
  | _ => []

def Young (moment : Moment) : Prop := ∀ page ∈ moment.sweeps, page.sweeps + 1 < Word.halfLimit

instance (moment : Moment) : Decidable moment.Young :=
  inferInstanceAs (Decidable (∀ page ∈ moment.sweeps, page.sweeps + 1 < Word.halfLimit))

def goesOn : Moment → Bool
  | .here _ happening => happening.goesOn
  | _ => false

def isPrepare : Moment → Bool
  | .deed .prepare => true
  | _ => false

def at? (index : Nat) : Moment → Option Happening
  | .here place happening => if place = index then some happening else none
  | _ => none

end Moment

namespace Watch

def opened (site : Site) (loose : List Page) (threads : Nat) : Watch :=
  { berths := (List.range threads).map Berth.fresh, site, loose }

def loadsOf (berths : List Berth) : List Load := berths.flatMap Berth.loads

def world (watch : Watch) : World := ⟨watch.site.heap, watch.loose, loadsOf watch.berths⟩

inductive Step : Watch → Moment → Watch → Prop
  | here {early late : List Berth} {berth next : Berth} {site later : Site} {loose : List Page}
      {happening : Happening} (step : berth.Step site happening next later)
      (inOrder : happening.launches = true → ∀ other ∈ early, other.launch = none) :
      Step ⟨early ++ berth :: late, site, loose⟩ (.here early.length happening)
        ⟨early ++ next :: late, later, loose⟩
  | start {watch : Watch} {parts : List (List Page)} (rest : ∀ berth ∈ watch.berths, berth.Resting)
      (parted : batches watch.site.heap.takeUnswept.1 watch.berths.length = .ok parts) :
      Step watch .start
        { watch with
          berths := List.zipWith
            (fun berth part =>
              { berth with launch := some (.fill ⟨watch.site.nextRound, part⟩) })
            watch.berths parts
          site :=
            { watch.site with
              heap := watch.site.heap.takeUnswept.2
              nextRound := Word.wrappingAdd watch.site.nextRound 1 } }
  | refuse {early late : List Berth} {berth : Berth} {site : Site} {loose : List Page}
      {fault : Fault} (inOrder : ∀ other ∈ early, other.launch = none)
      (refused : berth.refusal? = some fault) :
      Step ⟨early ++ berth :: late, site, loose⟩ (.refuse fault)
        ⟨(early ++ berth :: late).map fun other => { other with launch := none }, site, loose⟩
  | deed {watch : Watch} {deed : Deed} {world : World} (step : Reclaim.Step watch.world deed world)
      (client : deed.byClient = true) :
      Step watch (.deed deed)
        { watch with site := { watch.site with heap := world.heap }, loose := world.loose }
  | books {watch : Watch} {later : Site} (same : later.heap = watch.site.heap) :
      Step watch .books { watch with site := later }

abbrev Run (first : Watch) (moments : List Moment) (last : Watch) : Prop :=
  Runs Step first moments last

end Watch

end Reclaim
