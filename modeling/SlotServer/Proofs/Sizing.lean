import SlotServer.Proofs.Layout
import SlotServer.Proofs.Leases
import SlotServer.Proofs.WakeReads
import SlotServer.Worker.Start

/-!
# The sizes of a worker that starts

Whether a worker starts hangs on sizes alone: those of its ring, of its region and of its tables, and the memory of the
machine. A worker that has started is made of numbers that are the ones asked for.

- `Ring.setup_of_isPowerOfTwo`: the queues of a ring whose entries are a power of two are not rounded;
- `Worker.exists_slotsOver`: the slots over a region whose size is a word can be laid out;
- `Config.verdict`: what comes of a start, told from the sizes and the machine's memory, and `Config.Faults`: why it
  faults;
- `Started.Exact`: every size, place and number of a worker is exact, and no two slots share a context;
- `Worker.starts_of_start`: runs begin with such a worker;
- `Worker.start_exact`: so much holds of every start from a configuration that passes. The doubling of the greatest ring
  faults on every machine, `Worker.not_started_greatest`.
-/

namespace SlotServer

/-- Contexts of different slots differ, as long as the numbers of the slots have 32 bits. -/
theorem Context.ofSlot_inj {i j : Nat} (hi : i < 0x100000000) (hj : j < 0x100000000) (h : ofSlot i = ofSlot j) :
    i = j := by
  have hslot := congrArg slot h
  rwa [slot_ofSlot, slot_ofSlot, Nat.mod_eq_of_lt hi, Nat.mod_eq_of_lt hj] at hslot

/-! ## Rings -/

theorem exists_of_isPowerOfTwo {n : Nat} (h : isPowerOfTwo n = true) : ∃ k, n = 1 <<< k := by
  simp only [isPowerOfTwo, Bool.and_eq_true, decide_eq_true_eq] at h
  obtain ⟨k, hk⟩ := (Nat.and_sub_one_eq_zero_iff_isPowerOfTwo h.1).1 h.2
  exact ⟨k, by rw [hk, Nat.one_shiftLeft]⟩

namespace Ring

/-- A power of two is not rounded. -/
theorem roundUp_shiftLeft (k : Nat) : roundUp (1 <<< k) = 1 <<< k := by
  cases k with
  | zero => rfl
  | succ k =>
    have hpos := Nat.two_pow_pos k
    have hdouble : 1 <<< (k + 1) = 2 * 2 ^ k := by rw [Nat.one_shiftLeft, Nat.pow_succ']
    have hlog : (1 <<< (k + 1) - 1).log2 = k := by
      rw [hdouble, Nat.log2_eq_iff (by omega), Nat.pow_succ']
      omega
    rw [roundUp, if_neg (by omega), hlog]

/-- With twice as many places for completions, a ring is refused only for its entries, and nothing is rounded. -/
theorem ofSizes_of_isPowerOfTwo {entries : Nat} (h : isPowerOfTwo entries = true) :
    ofSizes entries (2 * entries) =
      if mostEntries < entries then .error (.ringSetup invalidArgument)
      else .ok { capacity := entries, completionCapacity := 2 * entries } := by
  obtain ⟨k, hk⟩ := exists_of_isPowerOfTwo h
  have hpos : 0 < entries := by
    rw [hk, Nat.one_shiftLeft]
    exact Nat.two_pow_pos k
  have hround : roundUp entries = entries := by
    rw [hk, roundUp_shiftLeft]
  have hdouble : roundUp (2 * entries) = 2 * entries := by
    have htwice : 2 * entries = 1 <<< (k + 1) := by
      rw [hk, Nat.one_shiftLeft, Nat.one_shiftLeft, Nat.pow_succ']
    rw [htwice, roundUp_shiftLeft]
  have hrefused : (entries = 0 || mostEntries < entries || 2 * entries = 0 || mostCompletions < 2 * entries ||
      2 * entries < entries : Bool) = decide (mostEntries < entries) := by
    rw [Bool.eq_iff_iff]
    simp only [Bool.or_eq_true, decide_eq_true_eq]
    unfold mostEntries mostCompletions
    omega
  rw [ofSizes, hdouble, hround, hrefused]
  simp only [decide_eq_true_eq]

/-- The queues of a ring have just the places that were asked for, and twice as many for completions. -/
theorem setup_of_isPowerOfTwo {entries : Nat} (h : isPowerOfTwo entries = true) :
    setup entries none =
      if 0x100000000 ≤ 2 * entries then .error .mulOverflow
      else if mostEntries < entries then .ok (.error (.ringSetup invalidArgument))
      else .ok (.ok { capacity := entries, completionCapacity := 2 * entries }) := by
  unfold setup defaultCompletions
  by_cases hword : 0x100000000 ≤ 2 * entries
  · rw [if_pos hword, if_pos hword]
    rfl
  · rw [if_neg hword, if_neg hword]
    show Except.ok (ofSizes entries (2 * entries)) = _
    rw [ofSizes_of_isPowerOfTwo h]
    split <;> rfl

/-- The pages of a ring's memory. -/
def pages (r : Ring) (m : Memory) : Nat := m.pagesFor r.queuesLength + m.pagesFor r.entriesLength

theorem lock_eq (r : Ring) (m : Memory) :
    r.lock m = if m.mostPages < m.pages + r.pages m then .error Memory.outOfMemory
      else .ok { m with pages := m.pages + r.pages m } := by
  unfold lock Memory.lock pages
  by_cases hqueues : m.mostPages < m.pages + m.pagesFor r.queuesLength
  · rw [if_pos (Nat.lt_of_lt_of_le hqueues (Nat.add_le_add_left (Nat.le_add_right ..) _))]
    simp only [if_pos hqueues]
    rfl
  · simp only [if_neg hqueues, ← Nat.add_assoc]
    rfl

end Ring

/-! ## Slots -/

/-- A row of computations that all give something gives a row. -/
theorem exists_mapM {β γ ε : Type} {f : β → Except ε γ} {l : List β} (h : ∀ b ∈ l, ∃ c, f b = .ok c) :
    ∃ l', l.mapM f = .ok l' := by
  induction l with
  | nil => exact ⟨[], rfl⟩
  | cons b l ih =>
    obtain ⟨c, hc⟩ := h b List.mem_cons_self
    obtain ⟨cs, hcs⟩ := ih fun b' hb' => h b' (List.mem_cons_of_mem b hb')
    refine ⟨c :: cs, ?_⟩
    rw [List.mapM_cons, hc, hcs]
    rfl

/-- A segment of a region whose size is a word begins at a multiple of the segments' length. -/
theorem Pool.segment_eq {p : Pool} {i : Nat} (hword : p.regionLength < wordCount) (hi : i < p.segmentCount) :
    p.segment i = .ok ⟨p.bufIndex, i * p.segmentLength, p.segmentLength⟩ := by
  have hlast : i * p.segmentLength ≤ p.segmentCount * p.segmentLength := Nat.mul_le_mul_right _ (Nat.le_of_lt hi)
  rw [Nat.mul_comm p.segmentCount] at hlast
  rw [segment, if_neg (Nat.not_le.2 hi), checkedMul, if_pos (Nat.lt_of_le_of_lt hlast hword)]
  rfl

/-- A slot can be made of a segment that ends at a word and is as long as its receive half. -/
theorem Slot.exists_ofSegment {index receiveLength : Nat} {segment : Segment}
    (hend : segment.offset + segment.length < wordCount) (hhalf : receiveLength ≤ segment.length) :
    ∃ s, ofSegment index segment receiveLength = .ok s := by
  unfold ofSegment Segment.split checkedAdd
  rw [if_neg (Nat.not_lt.2 hhalf), if_pos (by omega)]
  exact ⟨_, rfl⟩

namespace Worker

/-- The slots over a region whose size is a word can be laid out. -/
theorem exists_slotsOver {pool : Pool} {receiveLength : Nat} (hword : pool.regionLength < wordCount)
    (hhalf : receiveLength ≤ pool.segmentLength) : ∃ slots, slotsOver pool receiveLength = .ok slots := by
  apply exists_mapM
  intro i hi
  have hsegment := Pool.segment_eq hword (List.mem_range.1 hi)
  have hend := (Pool.within_segment hword hsegment).1
  rw [hsegment]
  exact Slot.exists_ofSegment hend hhalf

/-- Over such a region it only takes room for its tables to make a worker. -/
theorem map_ofPool (id : Nat) {config : Config} (memory : Memory) {pool : Pool} (hword : pool.regionLength < wordCount)
    (hhalf : config.receiveLength ≤ pool.segmentLength) :
    (ofPool id config memory pool).map (fun _ => ()) = allocate config memory pool.segmentCount := by
  obtain ⟨slots, hslots⟩ := exists_slotsOver hword hhalf
  unfold ofPool
  rw [hslots]
  cases allocate config memory pool.segmentCount <;> rfl

/-- The entries of the tables of a worker of `count` slots. -/
def entries (config : Config) (count : Nat) : Table → Nat
  | .slots | .free => count
  | .inbox => 2 * count
  | .batch => max config.batch 1

/-- There is no room for a table, or the batch is larger than the address space. -/
theorem of_allocate_error {config : Config} {memory : Memory} {count : Nat} {fault : Fault}
    (h : allocate config memory count = .error fault) :
    fault = .batchTooLarge ∧ wordCount ≤ 2 * (completionBytes * max config.batch 1) ∨
      ∃ table, fault = .noRoom table ∧ memory.hasRoom table (entries config count table) = false := by
  -- what an allocation that fails says of its table
  have hfull : ∀ {table : Table} {n : Nat}, memory.allocate table n = .error fault →
      fault = .noRoom table ∧ memory.hasRoom table n = false := by
    intro table n hno
    unfold Memory.allocate at hno
    split at hno
    · cases hno
    · rename_i hroom
      cases hno
      exact ⟨rfl, eq_false_of_ne_true hroom⟩
  unfold allocate at h
  cases hslots : memory.allocate .slots count with
  | error fault' =>
    rw [hslots] at h
    cases h
    exact .inr ⟨.slots, hfull hslots⟩
  | ok _ =>
  cases hfree : memory.allocate .free count with
  | error fault' =>
    rw [hslots, hfree] at h
    cases h
    exact .inr ⟨.free, hfull hfree⟩
  | ok _ =>
  cases hinbox : memory.allocate .inbox (2 * count) with
  | error fault' =>
    rw [hslots, hfree, hinbox] at h
    cases h
    exact .inr ⟨.inbox, hfull hinbox⟩
  | ok _ =>
  rw [hslots, hfree, hinbox] at h
  by_cases hbatch : wordCount ≤ 2 * (completionBytes * max config.batch 1)
  · simp only [if_pos hbatch] at h
    cases h
    exact .inl ⟨rfl, hbatch⟩
  · simp only [if_neg hbatch] at h
    exact .inr ⟨.batch, hfull h⟩

end Worker

/-! ## Starts -/

namespace Config

/-- The lengths of the halves of a configuration that passes can be added. -/
theorem segmentLength_eq {c : Config} (h : c.validate = .ok ()) :
    c.segmentLength = .ok (c.receiveLength + c.sendLength) := by
  obtain ⟨-, -, hreceive, hsend, -⟩ := validate_eq_ok.1 h
  unfold greatestHalf at hreceive hsend
  rw [segmentLength, checkedAdd, if_pos (by unfold wordCount; omega)]

/-- The ring that the configuration asks for. -/
def ring (c : Config) : Ring := { capacity := c.ringEntries, completionCapacity := 2 * c.ringEntries }

/-- The bytes of a worker's region. -/
def regionLength (c : Config) (cores : Nat) : Nat := (c.receiveLength + c.sendLength) * c.slotsPerWorker cores

/-- What comes of a start on a machine of such memory: the first obstacle, if there is one. -/
def verdict (c : Config) (cores : Nat) (memory : Memory) : Except Fault (Except Error Unit) :=
  let kept := memory.pages + c.ring.pages memory
  if 0x100000000 ≤ 2 * c.ringEntries then .error .mulOverflow
  else if Ring.mostEntries < c.ringEntries then .ok (.error (.ringSetup Ring.invalidArgument))
  else if memory.mostPages < kept then .ok (.error (.ringSetup Memory.outOfMemory))
  else if wordCount ≤ c.regionLength cores then .ok (.error (.invalidConfig "buffer region too large"))
  else if memory.mappingLimit ≤ c.regionLength cores then .ok (.error (.bufferAlloc Pool.outOfMemory))
  else if memory.greatestRegion < c.regionLength cores then .ok (.error (.bufferRegister Memory.badMemory))
  else if memory.mostPages < kept + memory.pagesFor (c.regionLength cores) then
    .ok (.error (.bufferRegister Memory.outOfMemory))
  else (Worker.allocate c memory (c.slotsPerWorker cores)).map .ok

/-- Why the start of a worker faults. -/
inductive Faults (c : Config) (cores : Nat) (memory : Memory) : Fault → Prop
  /-- The ring's size doubles beyond 32 bits. -/
  | doubling (hring : 0x80000000 ≤ c.ringEntries) : c.Faults cores memory .mulOverflow
  /-- The batch is larger than the address space. -/
  | batch (hbatch : 0x800000000000000 ≤ c.batch) : c.Faults cores memory .batchTooLarge
  /-- There is no room on the heap for a table. -/
  | noRoom (table : Table) (hfull : memory.hasRoom table (Worker.entries c (c.slotsPerWorker cores) table) = false) :
    c.Faults cores memory (.noRoom table)

theorem faults_of_verdict_error {c : Config} {cores : Nat} {memory : Memory} {fault : Fault}
    (h : c.verdict cores memory = .error fault) : c.Faults cores memory fault := by
  unfold verdict at h
  dsimp only at h
  split at h
  · cases h
    exact .doubling (by omega)
  iterate 6
    split at h
    · cases h
  cases hroom : Worker.allocate c memory (c.slotsPerWorker cores) with
  | ok _ =>
    rw [hroom] at h
    cases h
  | error fault' =>
    rw [hroom] at h
    cases h
    rcases Worker.of_allocate_error hroom with ⟨rfl, hlarge⟩ | ⟨table, rfl, hfull⟩
    · unfold wordCount Worker.completionBytes at hlarge
      exact .batch (by omega)
    · exact .noRoom table hfull

/-- Only a region that can be registered makes a worker. -/
theorem le_of_verdict_ok {c : Config} {cores : Nat} {memory : Memory} (h : c.verdict cores memory = .ok (.ok ())) :
    c.regionLength cores ≤ memory.greatestRegion := by
  unfold verdict at h
  dsimp only at h
  iterate 5
    split at h
    · cases h
  split at h
  · cases h
  rename_i hregion
  exact Nat.le_of_not_lt hregion

theorem slotsPerWorker_pos {c : Config} (cores : Nat) (h : 0 < c.backlog) : 0 < c.slotsPerWorker cores := by
  have hpos := c.effectiveWorkers_pos cores
  unfold slotsPerWorker
  exact Nat.div_pos (by omega) hpos

/-- Only its size may keep a region from being mapped. -/
theorem map_segments (c : Config) (cores limit : Nat) (h : c.validate = .ok ()) :
    Pool.map limit (c.receiveLength + c.sendLength) (c.slotsPerWorker cores) =
      if wordCount ≤ c.regionLength cores then .error (.invalidConfig "buffer region too large")
      else if limit ≤ c.regionLength cores then .error (.bufferAlloc Pool.outOfMemory)
      else .ok (c.regionLength cores) := by
  obtain ⟨hreceive, -, -, -, hbacklog, -⟩ := validate_eq_ok.1 h
  rw [Pool.map, if_neg (by omega), if_neg (Nat.ne_of_gt (slotsPerWorker_pos cores hbacklog))]
  rfl

end Config

namespace Worker

variable {id cores : Nat} {config : Config} {memory : Memory}

/-- What comes of making a pool: the region is mapped, and registered then. -/
theorem fst_create (limit segmentLength count : Nat) (k : Kernel) (es : List Event) :
    (Pool.create register limit segmentLength count (k, es)).1 =
      (Pool.map limit segmentLength count).bind fun _ =>
        match k.register.1 with
        | .error e => .error (Pool.registerError e)
        | .ok bufIndex => .ok ⟨segmentLength, count, bufIndex, true, fun _ => 0⟩ := by
  unfold Pool.create
  cases Pool.map limit segmentLength count with
  | error e => rfl
  | ok size =>
    change ((StateT.bind (register size) _ : StateM (Kernel × List Event) _) (k, es)).1 = _
    unfold StateT.bind
    have hregister : register size (k, es) = (k.register.1, k.register.2, .registered size :: es) := rfl
    rw [hregister]
    show _ = match k.register.1 with
      | .error e => _
      | .ok bufIndex => _
    cases k.register.1 <;> rfl

/-- What comes of building a worker: its pool, if the region can be mapped and is registered, and the rest over it. -/
theorem map_build {k : Kernel} (hvalid : config.validate = .ok ()) :
    (build id config cores k).1.map (·.map fun _ => ()) =
      match Pool.map k.memory.mappingLimit (config.receiveLength + config.sendLength) (config.slotsPerWorker cores),
        k.register.1 with
      | .error e, _ => .ok (.error e)
      | .ok _, .error e => .ok (.error (Pool.registerError e))
      | .ok _, .ok _ => (allocate config k.memory (config.slotsPerWorker cores)).map .ok := by
  have hmade := fst_create k.memory.mappingLimit (config.receiveLength + config.sendLength)
    (config.slotsPerWorker cores) k []
  unfold build
  rw [hvalid, Config.segmentLength_eq hvalid]
  dsimp only
  generalize Pool.create register k.memory.mappingLimit (config.receiveLength + config.sendLength)
    (config.slotsPerWorker cores) (k, []) = made at hmade ⊢
  obtain ⟨answer, k', es⟩ := made
  dsimp only at hmade
  subst hmade
  cases hmap : Pool.map k.memory.mappingLimit (config.receiveLength + config.sendLength)
    (config.slotsPerWorker cores) with
  | error e => rfl
  | ok size =>
    cases k.register.1 with
    | error e => rfl
    | ok bufIndex =>
      let pool : Pool :=
        ⟨config.receiveLength + config.sendLength, config.slotsPerWorker cores, bufIndex, true, fun _ => 0⟩
      have hword : pool.regionLength < wordCount := Pool.lt_of_map hmap
      have hpool := map_ofPool id k.memory hword (Nat.le_add_right config.receiveLength config.sendLength)
      rw [show pool.segmentCount = config.slotsPerWorker cores from rfl] at hpool
      dsimp only [Except.bind]
      rw [← hpool]
      cases ofPool id config k.memory pool <;> rfl

/-- The kernel of a ring that was set up registers one region, if there is room for it. -/
theorem register_kernelOf {ring : Ring} :
    (kernelOf config cores ring memory).1.register.1 =
      match memory.lockRegion (config.regionLength cores) with
      | .ok _ => .ok 0
      | .error e => .error (.bufferRegister e) := by
  unfold kernelOf Config.regionLength
  dsimp only
  cases memory.lockRegion ((config.receiveLength + config.sendLength) * config.slotsPerWorker cores) <;> rfl

/-- With a ring whose memory is kept, a start comes to what building the worker comes to. -/
theorem map_start_of_ring {ring : Ring} {kept : Memory} (hring : Ring.setup config.ringEntries none = .ok (.ok ring))
    (hlock : ring.lock memory = .ok kept) :
    (start id config cores memory).map (·.map fun _ => ()) =
      (build id config cores (kernelOf config cores ring kept).1).1.map (·.map fun _ => ()) := by
  unfold start
  rw [hring]
  dsimp only
  rw [hlock]
  dsimp only
  generalize build id config cores (kernelOf config cores ring kept).1 = built
  obtain ⟨_ | _ | _, _, _⟩ := built <;> rfl

/-- The kernel of a ring goes by the memory that the ring has left. -/
theorem memory_kernelOf (ring : Ring) : (kernelOf config cores ring memory).1.memory = memory := by
  unfold kernelOf
  dsimp only
  split <;> rfl

/-- What has room on the heap has it still when more pages are kept. -/
theorem allocate_pages (pages count : Nat) :
    allocate config { memory with pages } count = allocate config memory count := rfl

theorem lockRegion_pages (pages bytes : Nat) :
    ({ memory with pages } : Memory).lockRegion bytes =
      if memory.greatestRegion < bytes then .error Memory.badMemory
      else if memory.mostPages < pages + memory.pagesFor bytes then .error Memory.outOfMemory
      else .ok { memory with pages := pages + memory.pagesFor bytes } := rfl

/-- The sizes decide what comes of a start. -/
theorem map_start (hvalid : config.validate = .ok ()) :
    (start id config cores memory).map (·.map fun _ => ()) = config.verdict cores memory := by
  obtain ⟨-, -, -, -, -, hpower, -⟩ := Config.validate_eq_ok.1 hvalid
  have hsetup : Ring.setup config.ringEntries none =
      if 0x100000000 ≤ 2 * config.ringEntries then .error .mulOverflow
      else if Ring.mostEntries < config.ringEntries then .ok (.error (.ringSetup Ring.invalidArgument))
      else .ok (.ok config.ring) := Ring.setup_of_isPowerOfTwo hpower
  have hlock := config.ring.lock_eq memory
  unfold Config.verdict
  by_cases hdouble : 0x100000000 ≤ 2 * config.ringEntries
  · simp only [start, hsetup, if_pos hdouble]
    rfl
  by_cases hmost : Ring.mostEntries < config.ringEntries
  · simp only [start, hsetup, if_neg hdouble, if_pos hmost]
    rfl
  rw [if_neg hdouble, if_neg hmost] at hsetup
  by_cases hkept : memory.mostPages < memory.pages + config.ring.pages memory
  · rw [if_pos hkept] at hlock
    simp only [if_neg hdouble, if_neg hmost, if_pos hkept]
    unfold start
    rw [hsetup]
    dsimp only
    rw [hlock]
    rfl
  rw [if_neg hkept] at hlock
  rw [map_start_of_ring hsetup hlock, map_build hvalid, register_kernelOf, memory_kernelOf,
    config.map_segments cores _ hvalid, allocate_pages, lockRegion_pages]
  simp only [if_neg hdouble, if_neg hmost, if_neg hkept]
  by_cases hword : wordCount ≤ config.regionLength cores
  · simp only [if_pos hword]
  by_cases hmapped : memory.mappingLimit ≤ config.regionLength cores
  · simp only [if_neg hword, if_pos hmapped]
  by_cases hgreat : memory.greatestRegion < config.regionLength cores
  · simp only [if_neg hword, if_neg hmapped, if_pos hgreat]
    rfl
  by_cases hroom : memory.mostPages <
      memory.pages + config.ring.pages memory + memory.pagesFor (config.regionLength cores)
  · simp only [if_neg hword, if_neg hmapped, if_neg hgreat, if_pos hroom]
    rfl
  · simp only [if_neg hword, if_neg hmapped, if_neg hgreat, if_neg hroom]

end Worker

/-- Every size, place and number of a worker is exact. -/
structure Started.Exact (config : Config) (cores : Nat) (s : Started) : Prop where
  /-- The queues have the places asked for, and twice as many for completions. -/
  ring : Ring.setup config.ringEntries none = .ok (.ok config.ring)
  segmentLength : config.segmentLength = .ok (config.receiveLength + config.sendLength)
  region : s.worker.pool.regionLength = config.regionLength cores ∧ config.regionLength cores ≤ regionLimit
  /-- Segments begin at multiples of their length. -/
  segment : ∀ i < s.worker.slots.length, s.worker.pool.segment i = .ok
    ⟨s.worker.pool.bufIndex, i * (config.receiveLength + config.sendLength), config.receiveLength + config.sendLength⟩
  /-- Slots lie over the halves of their segments, whose lengths have 32 bits. -/
  laidOut : s.worker.LaidOut (config.layout cores s.worker.pool.bufIndex)
  fits : (config.layout cores s.worker.pool.bufIndex).Fits
  slots : 0 < s.worker.slots.length
  inbox : s.worker.inboxCapacity = 2 * config.slotsPerWorker cores ∧ s.worker.inboxCapacity ≤ regionLimit
  /-- Every slot goes by its own number, and is free. -/
  index : ∀ (i : Nat) (slot : Slot), s.worker.slots[i]? = some slot → slot.index = i
  free : s.worker.free = List.range s.worker.slots.length
  /-- Different slots have different contexts. -/
  context : ∀ (i j : Nat) (slot other : Slot), s.worker.slots[i]? = some slot → s.worker.slots[j]? = some other →
    Context.ofSlot slot.index = Context.ofSlot other.index → i = j

namespace Worker

variable {id cores : Nat} {config : Config} {memory : Memory}

/-- A worker that has started is exact. Its region can be registered, so it has fewer slots than numbers of 32 bits. -/
theorem exact_of_start {s : Started} (hvalid : config.validate = .ok ())
    (h : start id config cores memory = .ok (.ok s)) : s.Exact config cores := by
  obtain ⟨hreceive, hsend, -, -, hbacklog, hpower, -⟩ := Config.validate_eq_ok.1 hvalid
  have hverdict : (start id config cores memory).map (·.map fun _ => ()) = config.verdict cores memory :=
    map_start hvalid
  rw [h] at hverdict
  have hregistered := Nat.le_trans (Config.le_of_verdict_ok hverdict.symm) memory.greatestRegion_le
  obtain ⟨ring, kept, hring, -, hbuild⟩ := of_start h
  obtain ⟨hlaid, hfits⟩ := laidOut_of_build hbuild
  obtain ⟨⟨bufIndex, hpool⟩, hword⟩ := pool_of_build hbuild
  have hcount : s.worker.slots.length = config.slotsPerWorker cores := hlaid.count
  have hpos := Config.slotsPerWorker_pos cores hbacklog
  -- A segment has two bytes at least, so that there are twice as many bytes as slots.
  have htwice : 2 * config.slotsPerWorker cores ≤ regionLimit :=
    Nat.le_trans (Nat.mul_le_mul_right _ (by omega)) hregistered
  have hsmall : s.worker.slots.length ≤ 0x100000000 := by
    unfold regionLimit at htwice
    omega
  have hindex : ∀ (i : Nat) (slot : Slot), s.worker.slots[i]? = some slot → slot.index = i ∧ i < 0x100000000 := by
    intro i slot hslot
    have hi := Nat.lt_of_lt_of_le (List.getElem?_eq_some_iff.1 hslot).1 hsmall
    exact ⟨(hlaid.index i slot hslot).trans (Nat.mod_eq_of_lt hi), hi⟩
  constructor
  case ring =>
    have hsetup := Ring.setup_of_isPowerOfTwo hpower
    rw [hring] at hsetup ⊢
    split at hsetup
    · cases hsetup
    split at hsetup
    · cases hsetup
    exact hsetup
  case segmentLength => exact Config.segmentLength_eq hvalid
  case region => exact ⟨hlaid.region.trans (Nat.mul_comm ..), hregistered⟩
  case segment =>
    intro i hi
    rw [hcount] at hi
    rw [Pool.segment_eq hword (by rwa [hpool]), hpool]
  case laidOut => exact hlaid
  case fits => exact hfits
  case slots => rwa [hcount]
  case inbox =>
    rw [inboxCapacity, hcount]
    exact ⟨rfl, htwice⟩
  case index => exact fun i slot hslot => (hindex i slot hslot).1
  case free => exact (new_of_build hbuild).1.free.trans (map_low32_range hsmall)
  case context =>
    intro i j slot other hslot hother hsame
    obtain ⟨hi, hilt⟩ := hindex i slot hslot
    obtain ⟨hj, hjlt⟩ := hindex j other hother
    rw [hi, hj] at hsame
    exact Context.ofSlot_inj hilt hjlt hsame

/-- The machine of a worker that has started is one that runs begin with. -/
theorem starts_of_start {α : Type} {s : Started} (app : α) (hvalid : config.validate = .ok ())
    (h : start id config cores memory = .ok (.ok s)) :
    ({ worker := s.worker, kernel := s.kernel, app, trace := s.trace } : Machine α).Starts := by
  have hexact := exact_of_start hvalid h
  obtain ⟨id, k, hready, hbuild⟩ := built_of_start h
  refine ⟨⟨⟨id, config, cores, k, hready, hbuild⟩, rfl⟩, ?_⟩
  have hinbox := hexact.inbox.2
  unfold inboxCapacity regionLimit at hinbox
  show s.worker.slots.length ≤ _
  omega

/-- **Starts from a configuration that passes**: on any machine the sizes decide what comes of one. It faults only where
the ring's size doubles beyond 32 bits, the batch is larger than the address space or there is no room for a table, and
a worker that has started is exact. -/
theorem start_exact (hvalid : config.validate = .ok ()) :
    (start id config cores memory).map (·.map fun _ => ()) = config.verdict cores memory ∧
      (∀ fault, config.verdict cores memory = .error fault → config.Faults cores memory fault) ∧
      ∀ s, start id config cores memory = .ok (.ok s) → s.Exact config cores :=
  ⟨map_start hvalid, fun _ => Config.faults_of_verdict_error, fun _ => exact_of_start hvalid⟩

/-- Where a user may keep enough pages, a worker starts over the greatest region. -/
example : ({ backlog := 1, receiveLength := 0x20000000, sendLength := 0x20000000 } : Config).verdict 1
    { Memory.usual with mostPages := 0x80000 } = .ok (.ok ()) := by cbv

theorem exists_of_map {outcome : Except Fault (Except Error Started)}
    (h : outcome.map (·.map fun _ => ()) = .ok (.ok ())) : ∃ s, outcome = .ok (.ok s) := by
  rcases outcome with _ | _ | s
  · cases h
  · cases h
  · exact ⟨s, rfl⟩

/-- The greatest ring that starts, with nearly as many slots as there is memory left for. -/
theorem start_exact_great : ∃ (config : Config) (s : Started),
    config = { backlog := 1000, receiveLength := 4096, sendLength := 1, workers := 3, ringEntries := 32768 } ∧
      config.validate = .ok () ∧ start 0 config 1 .usual = .ok (.ok s) ∧ s.worker.slots.length = 334 ∧
      s.Exact config 1 := by
  have hvalid : ({ backlog := 1000, receiveLength := 4096, sendLength := 1, workers := 3, ringEntries := 32768 } :
      Config).validate = .ok () := rfl
  have hverdict : ({ backlog := 1000, receiveLength := 4096, sendLength := 1, workers := 3, ringEntries := 32768 } :
      Config).verdict 1 .usual = .ok (.ok ()) := by cbv
  obtain ⟨hmap, -, hexact⟩ := start_exact hvalid
  rw [hverdict] at hmap
  obtain ⟨s, hstart⟩ := exists_of_map hmap
  have hs := hexact s hstart
  exact ⟨_, s, rfl, hvalid, hstart, hs.laidOut.count.trans rfl, hs⟩

/-- The size of the greatest ring does not double: a configuration with it passes, and the start faults. -/
theorem not_started_greatest : ¬ ∀ (id cores : Nat) (config : Config) (memory : Memory),
    config.ringEntries < 0x100000000 → config.validate = .ok () →
      ∃ outcome, start id config cores memory = .ok outcome := by
  intro h
  obtain ⟨outcome, houtcome⟩ := h 0 1 { ringEntries := 0x80000000 } .usual (by decide) rfl
  cases houtcome

end Worker

end SlotServer
