import Reclaim.Proofs.Runs
import Reclaim.Proofs.Traffic.Blocks

/-! Traffic on one space. Mutators allocate, sweepers publish, and a collector begins new cycles, each
of them section by section: between two sections of one party all others may act. A sweeper works on
its own pages and its own list, which nobody else sees before it publishes them. -/

namespace Reclaim

structure Haul where
  left : List Page
  pages : List Page
  list : FreeList

def Haul.start (pages : List Page) : Haul := ⟨pages, [], .empty⟩

inductive Collector where
  | idle
  | dropped
  | holding (pages : List Page)

def Collector.pages : Collector → List Page
  | .holding pages => pages
  | _ => []

structure Traffic where
  space : PagedSpace
  hauls : List Haul
  reserved : List FreeBlock
  collector : Collector

inductive Section where
  | reserve (request : Nat) (answer : Except Fault (Option FreeBlock))
  | occupy (block : FreeBlock) (answer : Except Fault ObjectAddress)
  | edit (deed : Deed)
  | deal
  | sweep (page : Page) (answer : Except Fault Unit)
  | publishPages
  | publishBlocks (answer : Except Fault Unit)
  | drop
  | take (stale : List FreeBlock)
  | recycle

namespace Section

def fault? : Section → Option Fault
  | .reserve _ (.error fault) => some fault
  | .occupy _ (.error fault) => some fault
  | .sweep _ (.error fault) => some fault
  | .publishBlocks (.error fault) => some fault
  | _ => none

def isCycle : Section → Bool
  | .drop | .take _ | .recycle => true
  | _ => false

/-- No allocation is under way when the swept pages leave the space. -/
def Clean (passed : Section) : Prop := ∀ stale, passed = .take stale → stale = []

end Section

def granted : Except Fault (Option FreeBlock) → List FreeBlock
  | .ok (some block) => [block]
  | _ => []

namespace Traffic

/-- One section. A round takes every unswept page, and a new cycle begins when no round is in flight. A
sweeper that faults is lost with what it had. -/
inductive Step : Traffic → Section → Traffic → Prop
  | reserve {space : PagedSpace} {hauls : List Haul} {reserved : List FreeBlock}
      {collector : Collector} (request : Nat) :
      Step ⟨space, hauls, reserved, collector⟩ (.reserve request (space.reserve request).1)
        ⟨(space.reserve request).2, hauls, reserved ++ granted (space.reserve request).1, collector⟩
  | occupy {space : PagedSpace} {hauls : List Haul} {first last : List FreeBlock}
      {block : FreeBlock} {collector : Collector} :
      Step ⟨space, hauls, first ++ block :: last, collector⟩ (.occupy block (space.occupy block).1)
        ⟨(space.occupy block).2, hauls, first ++ last, collector⟩
  | edit {space : PagedSpace} {hauls : List Haul} {reserved : List FreeBlock}
      {collector : Collector} {early late : List Page} {page edited : Page} {deed : Deed}
      (edit : Edit page deed edited) (waiting : space.unswept = early ++ page :: late) :
      Step ⟨space, hauls, reserved, collector⟩ (.edit deed)
        ⟨{ space with unswept := early ++ edited :: late }, hauls, reserved, collector⟩
  | deal {space : PagedSpace} {hauls : List Haul} {reserved : List FreeBlock}
      {parts : List (List Page)} (parted : parts.flatten.Perm space.takeUnswept.1) :
      Step ⟨space, hauls, reserved, .idle⟩ .deal
        ⟨space.takeUnswept.2, hauls ++ parts.map .start, reserved, .idle⟩
  | sweep {space : PagedSpace} {before after : List Haul} {reserved : List FreeBlock}
      {collector : Collector} {page renewed : Page} {left pages : List Page}
      {list grown : FreeList} {produced : PageYield}
      (swept : page.sweep list = .ok (produced, renewed, grown)) :
      Step ⟨space, before ++ ⟨page :: left, pages, list⟩ :: after, reserved, collector⟩
        (.sweep page (.ok ()))
        ⟨space, before ++ ⟨left, pages ++ [renewed], grown⟩ :: after, reserved, collector⟩
  | lose {space : PagedSpace} {before after : List Haul} {reserved : List FreeBlock}
      {collector : Collector} {page : Page} {left pages : List Page} {list : FreeList}
      {fault : Fault} (failed : page.sweep list = .error fault) :
      Step ⟨space, before ++ ⟨page :: left, pages, list⟩ :: after, reserved, collector⟩
        (.sweep page (.error fault)) ⟨space, before ++ after, reserved, collector⟩
  | publishPages {space : PagedSpace} {before after : List Haul} {reserved : List FreeBlock}
      {collector : Collector} {pages : List Page} {list : FreeList} :
      Step ⟨space, before ++ ⟨[], pages, list⟩ :: after, reserved, collector⟩ .publishPages
        ⟨space.publishPages pages, before ++ ⟨[], [], list⟩ :: after, reserved, collector⟩
  | publishBlocks {space : PagedSpace} {before after : List Haul} {reserved : List FreeBlock}
      {collector : Collector} {list : FreeList} :
      Step ⟨space, before ++ ⟨[], [], list⟩ :: after, reserved, collector⟩
        (.publishBlocks (space.publishBlocks list).1)
        ⟨(space.publishBlocks list).2, before ++ after, reserved, collector⟩
  | drop {space : PagedSpace} {reserved : List FreeBlock} :
      Step ⟨space, [], reserved, .idle⟩ .drop ⟨space.dropBlocks, [], reserved, .dropped⟩
  | take {space : PagedSpace} {hauls : List Haul} {reserved : List FreeBlock} :
      Step ⟨space, hauls, reserved, .dropped⟩ (.take reserved)
        ⟨space.takeSwept.2, hauls, reserved, .holding space.takeSwept.1⟩
  | recycle {space : PagedSpace} {hauls : List Haul} {reserved : List FreeBlock}
      {pages : List Page} :
      Step ⟨space, hauls, reserved, .holding pages⟩ .recycle
        ⟨space.recycle pages, hauls, reserved, .idle⟩

abbrev Run (first : Traffic) (passed : List Section) (last : Traffic) : Prop :=
  Runs Step first passed last

def calm (space : PagedSpace) : Traffic := ⟨space, [], [], .idle⟩

def waiting (traffic : Traffic) : List Page :=
  traffic.space.unswept ++ traffic.hauls.flatMap (·.left)

def cleared (traffic : Traffic) : List Page :=
  traffic.hauls.flatMap (·.pages) ++ traffic.space.swept

def pages (traffic : Traffic) : List Page :=
  traffic.waiting ++ (traffic.cleared ++ traffic.collector.pages)

end Traffic

end Reclaim
