import Reclaim.Bench.Office
import Reclaim.Bench.Rounds
import Reclaim.Bench.Workshop
import Reclaim.Proofs.Bureau.Schedule
import Reclaim.Proofs.Bureau.Served
import Reclaim.Proofs.Callers.Reports
import Reclaim.Proofs.Floor.Drained
import Reclaim.Proofs.Queue.Wakeups
import Reclaim.Proofs.Scene.Stopped
import Reclaim.Proofs.Session.Balance
import Reclaim.Proofs.Traffic.Cycles
import Reclaim.Proofs.Watch.Calls
import Reclaim.Proofs.Watch.Polls
import Reclaim.Proofs.World.Safety
import Reclaim.Proofs.Page.Lifetime
import Reclaim.Proofs.Page.Tiling
import Reclaim.Proofs.Turnstile.Basic
import Reclaim.Proofs.Turnstile.Wakeups
import Reclaim.Proofs.Turnstile.Settled
import Reclaim.Proofs.Foreground.Desk
import Reclaim.Proofs.Forum.Basic
import Reclaim.Proofs.Forum.Pumped
import Reclaim.Proofs.Forum.Schedule
import Reclaim.Proofs.Turnstile.Gathering
import Reclaim.Proofs.FreeList.FirstFit
import Reclaim.Proofs.Shelf.Basic
import Reclaim.Proofs.Shelf.Accounts
import Reclaim.Proofs.Shelf.Parcels
import Reclaim.Proofs.Heap.Merging
import Reclaim.Proofs.Batches
import Reclaim.Proofs.Heap.Handover
import Reclaim.Proofs.Scene.Supply
import Reclaim.Proofs.Scene.Resweep
import Reclaim.Proofs.Forum.Sized
import Reclaim.Proofs.Task.Alone
import Reclaim.Proofs.Setting.Reading
import Reclaim.Proofs.Grouping
