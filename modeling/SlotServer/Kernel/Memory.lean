import SlotServer.Fault

/-!
# Memory

What a machine has room for. The kernel keeps rings and registered regions in memory, by whole pages, and lets a user
keep only so many pages there; regions are mapped into the addresses of a process, and tables are laid out on its heap.
How much of each there is, is the machine's.

- `Memory.usual`: the memory of a machine that the program is run on;
- `Memory.lock`: room for more bytes that are kept, if there is any;
- `Memory.lockRegion`: room for a region, which has a limit of its own;
- `Memory.allocate`: room for a table on the heap;
- `Memory.le_of_lock`: locking never gives pages back.
-/

namespace SlotServer

/-- The size from which on a region is larger than the addresses of a process. -/
def addressLimit : Nat := 0x800000000000

/-- The size of the greatest region that the kernel registers, however much memory a machine has. -/
def regionLimit : Nat := 0x40000000

/-- The memory of a machine: what there is room for, and what is kept already. -/
structure Memory where
  /-- The bytes of a page. -/
  pageBytes : Nat
  /-- The pages that a user may keep in memory. -/
  mostPages : Nat
  /-- The greatest region that can be registered. -/
  greatestRegion : Nat
  greatestRegion_le : greatestRegion ≤ regionLimit
  /-- The size from which on a region cannot be mapped. With fewer bytes than addresses there, the tables of a worker
  over a region have sizes that are words. -/
  mappingLimit : Nat
  mappingLimit_le : mappingLimit ≤ addressLimit
  /-- There is room on the heap for a table of so many entries. -/
  hasRoom : Table → Nat → Bool
  /-- The pages that the user keeps in memory. -/
  pages : Nat

namespace Memory

/-- The bytes that an entry of a table takes at least. -/
def entryBytes : Nat := 16

/-- The memory of a machine that the program is run on, where nothing is kept yet. Its heap takes every table that fits
the addresses of the process. -/
def usual : Memory where
  pageBytes := 4096
  mostPages := 2048
  greatestRegion := regionLimit
  greatestRegion_le := Nat.le_refl _
  mappingLimit := addressLimit
  mappingLimit_le := Nat.le_refl _
  hasRoom _ count := entryBytes * count < addressLimit
  pages := 0

/-- The system's number for memory that is not there. -/
def outOfMemory : Int32 := 12

/-- The system's number for memory that cannot be used. -/
def badMemory : Int32 := 14

/-- The pages that some bytes take. -/
def pagesFor (m : Memory) (bytes : Nat) : Nat := (bytes + m.pageBytes - 1) / m.pageBytes

/-- Room for more bytes. -/
def lock (m : Memory) (bytes : Nat) : Except Int32 Memory :=
  let pages := m.pages + m.pagesFor bytes
  if m.mostPages < pages then .error outOfMemory else .ok { m with pages }

/-- Room for a region. -/
def lockRegion (m : Memory) (bytes : Nat) : Except Int32 Memory :=
  if m.greatestRegion < bytes then .error badMemory else m.lock bytes

/-- Room for a table of `count` entries. Without it the process is given up. -/
def allocate (m : Memory) (table : Table) (count : Nat) : Except Fault Unit :=
  if m.hasRoom table count then .ok () else .error (.noRoom table)

theorem le_of_lock {m m' : Memory} {bytes : Nat} (h : m.lock bytes = .ok m') : m.pages ≤ m'.pages := by
  simp only [lock] at h
  split at h
  · cases h
  · cases h
    exact Nat.le_add_right ..

end Memory

end SlotServer
