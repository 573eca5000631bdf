import SlotServer.Handler.Application
import SlotServer.Proofs.Calls
import SlotServer.Worker.Start

/-!
# Workers that were just built

A worker that was built has a slot over each segment of its pool, all of them free, and nothing to do.

- `Slot.Blank`: a slot that nobody has used yet, with both halves inside the region;
- `Machine.Fresh`: a machine whose worker was just built;
- `Machine.Fresh.view`: what such a machine shows of its slots.
-/

namespace SlotServer

variable {α : Type}

/-- A slot that nobody has used yet. -/
structure Slot.Blank (i region : Nat) (s : Slot) : Prop where
  eq : s = { index := low32 i, receiveHalf := s.receiveHalf, sendHalf := s.sendHalf }
  receiveHalf : s.receiveHalf.Within region
  sendHalf : s.sendHalf.Within region

/-- What a row of computations gives, one after the other. -/
theorem getElem?_of_mapM {β γ ε : Type} {f : β → Except ε γ} {l : List β} {l' : List γ} (h : l.mapM f = .ok l') :
    l'.length = l.length ∧ ∀ (i : Nat) c, l'[i]? = some c → ∃ b, l[i]? = some b ∧ f b = .ok c := by
  induction l generalizing l' with
  | nil =>
    cases h
    exact ⟨rfl, nofun⟩
  | cons b l ih =>
    rw [List.mapM_cons] at h
    cases hb : f b with
    | error e => rw [hb] at h; cases h
    | ok c =>
      rw [hb] at h
      cases hl : l.mapM f with
      | error e => rw [hl] at h; cases h
      | ok cs =>
        rw [hl] at h
        cases h
        obtain ⟨hlength, hget⟩ := ih hl
        refine ⟨congrArg (· + 1) hlength, fun i d hd => ?_⟩
        cases i with
        | zero => exact ⟨b, rfl, by cases hd; exact hb⟩
        | succ i => exact hget i d hd

/-- The first numbers of 32 bits are kept as they are. -/
theorem map_low32_range {n : Nat} (h : n ≤ 0x100000000) : (List.range n).map low32 = List.range n :=
  (List.map_congr_left (g := id) fun _ hj =>
    Nat.mod_eq_of_lt (Nat.lt_of_lt_of_le (List.mem_range.1 hj) h)).trans (List.map_id _)

/-- The halves of a segment that ends inside a region end inside it too. -/
theorem Slot.blank_ofSegment {i receiveLength region : Nat} {segment : Segment} {s : Slot} (hin : segment.Within region)
    (h : Slot.ofSegment (low32 i) segment receiveLength = .ok s) : s.Blank i region := by
  obtain ⟨hword, hregion⟩ := hin
  unfold Slot.ofSegment Segment.split at h
  by_cases hlong : segment.length < receiveLength
  · rw [if_pos hlong] at h
    cases h
  · rw [if_neg hlong, checkedAdd, if_pos (by omega)] at h
    cases h
    exact ⟨rfl, ⟨by dsimp only; omega, by dsimp only; omega⟩, ⟨by dsimp only; omega, by dsimp only; omega⟩⟩

/-- The size of a region that was mapped is a word. -/
theorem Pool.lt_of_map {limit segmentLength count size : Nat} (h : map limit segmentLength count = .ok size) :
    segmentLength * count < wordCount := by
  unfold map at h
  split at h
  · cases h
  split at h
  · cases h
  split at h
  · cases h
  · omega

/-- A segment of a pool ends inside the pool's region. -/
theorem Pool.within_segment {p : Pool} {i : Nat} {segment : Segment} (hword : p.regionLength < wordCount)
    (h : p.segment i = .ok segment) : segment.Within p.regionLength := by
  unfold Pool.segment checkedMul at h
  split at h
  · cases h
  · rename_i hi
    split at h
    · cases h
      have hnext : (i + 1) * p.segmentLength ≤ p.segmentCount * p.segmentLength :=
        Nat.mul_le_mul_right _ (Nat.lt_of_not_le hi)
      rw [Nat.add_one_mul, Nat.mul_comm p.segmentCount] at hnext
      exact ⟨Nat.lt_of_le_of_lt hnext hword, hnext⟩
    · cases h

namespace Worker

/-- The worker has done nothing yet. -/
structure New (w : Worker) : Prop where
  slots : ∀ (i : Nat) (s : Slot), w.slots[i]? = some s → s.Blank i w.pool.regionLength
  free : w.free = (List.range w.slots.length).map low32
  inbox : w.inbox = []
  exited : w.exited = false

/-- What a worker over a pool is made of. -/
theorem of_ofPool {id : Nat} {config : Config} {memory : Memory} {pool : Pool} {w : Worker}
    (h : ofPool id config memory pool = .ok w) :
    slotsOver pool config.receiveLength = .ok w.slots ∧
      w = {
        id, pool
        slots := w.slots
        free := (List.range pool.segmentCount).map low32
        useNagle := config.useNagle
        batch := max config.batch 1
        grace := config.grace } := by
  unfold ofPool at h
  cases hroom : allocate config memory pool.segmentCount with
  | error fault =>
    rw [hroom] at h
    cases h
  | ok _ =>
    rw [hroom] at h
    cases hslots : slotsOver pool config.receiveLength with
    | error fault =>
      rw [hslots] at h
      cases h
    | ok slots =>
      rw [hslots] at h
      cases h
      exact ⟨rfl, rfl⟩

theorem new_ofPool {id : Nat} {config : Config} {memory : Memory} {pool : Pool} {w : Worker}
    (hword : pool.regionLength < wordCount) (h : ofPool id config memory pool = .ok w) : w.New := by
  obtain ⟨hslots, heq⟩ := of_ofPool h
  obtain ⟨hlength, hget⟩ := getElem?_of_mapM hslots
  have hpool : w.pool = pool := congrArg Worker.pool heq
  refine ⟨fun i s hs => ?_, ?_, congrArg Worker.inbox heq, congrArg Worker.exited heq⟩
  · obtain ⟨j, hj, hsegment⟩ := hget i s hs
    obtain rfl : i = j := by simpa using (List.getElem?_eq_some_iff.1 hj).2
    cases hat : pool.segment i with
    | error e =>
      rw [hat] at hsegment
      cases hsegment
    | ok segment =>
      rw [hat] at hsegment
      rw [hpool]
      exact Slot.blank_ofSegment (Pool.within_segment hword hat) hsegment
  · rw [hlength, List.length_range]
    exact congrArg Worker.free heq

/-- A pool that was made has the segments that were asked for, in a region that is not too large. Making it readies no
completion, and is told. -/
theorem of_create {limit segmentLength count : Nat} {k k' : Kernel} {pool : Pool} {es es' : List Event}
    (h : Pool.create register limit segmentLength count (k, es) = (.ok pool, k', es')) :
    (∃ bufIndex, pool = ⟨segmentLength, count, bufIndex, true, fun _ => 0⟩) ∧ pool.regionLength < wordCount ∧
      k'.ready = k.ready ∧ ∃ length, es' = .registered length :: es := by
  have hready : k.register.2.ready = k.ready := by
    unfold Kernel.register Kernel.ask
    dsimp only
    cases k.schedule .register (k.asked .register) <;> rfl
  unfold Pool.create at h
  cases hmap : Pool.map limit segmentLength count with
  | error e =>
    rw [hmap] at h
    cases h
  | ok size =>
    rw [hmap] at h
    have hword := Pool.lt_of_map hmap
    have hregister : register size (k, es) = (k.register.1, k.register.2, .registered size :: es) := rfl
    change StateT.bind (register size) _ (k, es) = _ at h
    unfold StateT.bind at h
    rw [hregister] at h
    cases hanswer : k.register.1 with
    | error e =>
      rw [hanswer] at h
      cases h
    | ok bufIndex =>
      rw [hanswer] at h
      cases h
      exact ⟨⟨bufIndex, rfl⟩, hword, hready, size, rfl⟩

/-- How a worker was built: the configuration is valid, the pool was made and registered, and the slots were laid out
over it. -/
theorem of_build {id cores : Nat} {config : Config} {k k' : Kernel} {w : Worker} {es : List Event}
    (h : build id config cores k = (.ok (.ok w), k', es)) :
    ∃ segmentLength pool length, config.validate = .ok () ∧ config.segmentLength = .ok segmentLength ∧
      Pool.create register k.memory.mappingLimit segmentLength (config.slotsPerWorker cores) (k, []) =
        (.ok pool, k', [.registered length]) ∧
      es = [.said .debug (pool.createdLine somePlace), .registered length] ∧
      ofPool id config k.memory pool = .ok w := by
  unfold build at h
  split at h
  · cases h
  · cases h
  · rename_i segmentLength hvalid hsegment
    split at h
    · cases h
    · rename_i pool k₁ es₁ hcreate
      obtain ⟨-, -, -, length, rfl⟩ := of_create hcreate
      cases hw : ofPool id config k.memory pool with
      | error fault =>
        rw [hw] at h
        cases h
      | ok w' =>
        rw [hw] at h
        cases h
        exact ⟨segmentLength, pool, length, hvalid, hsegment, hcreate, rfl, hw⟩

/-- The pool of a worker that was built has a segment for each slot, of the length that was asked for. -/
theorem pool_of_build {id cores : Nat} {config : Config} {k k' : Kernel} {w : Worker} {es : List Event}
    (h : build id config cores k = (.ok (.ok w), k', es)) :
    (∃ bufIndex, w.pool =
      ⟨config.receiveLength + config.sendLength, config.slotsPerWorker cores, bufIndex, true, fun _ => 0⟩) ∧
      w.pool.regionLength < wordCount := by
  obtain ⟨segmentLength, pool, length, -, hsegment, hcreate, -, hw⟩ := of_build h
  obtain ⟨⟨bufIndex, hpool⟩, hword, -⟩ := of_create hcreate
  have hsame : w.pool = pool := congrArg Worker.pool (of_ofPool hw).2
  obtain rfl : segmentLength = config.receiveLength + config.sendLength := by
    unfold Config.segmentLength checkedAdd at hsegment
    split at hsegment <;> cases hsegment
    rfl
  rw [hsame]
  exact ⟨⟨bufIndex, hpool⟩, hword⟩

/-- A worker that was built is new, and nothing is ready that was not ready before. -/
theorem new_of_build {id cores : Nat} {config : Config} {k k' : Kernel} {w : Worker} {es : List Event}
    (h : build id config cores k = (.ok (.ok w), k', es)) : w.New ∧ k'.ready = k.ready ∧ ∀ e ∈ es, e.Aside := by
  obtain ⟨segmentLength, pool, length, -, -, hcreate, rfl, hw⟩ := of_build h
  obtain ⟨-, hword, hready, -⟩ := of_create hcreate
  refine ⟨new_ofPool hword hw, hready, ?_⟩
  simp [Event.Aside, Event.concerns]

/-- The pool of a worker that was built is registered, and that was not undone. -/
theorem registered_of_build {id cores : Nat} {config : Config} {k k' : Kernel} {w : Worker} {es : List Event}
    (h : build id config cores k = (.ok (.ok w), k', es)) : w.pool.registered = true ∧ .unregistered ∉ es := by
  obtain ⟨segmentLength, pool, length, -, -, hcreate, rfl, hw⟩ := of_build h
  obtain ⟨⟨bufIndex, hpool⟩, -⟩ := of_create hcreate
  have hsame : w.pool = pool := congrArg Worker.pool (of_ofPool hw).2
  refine ⟨?_, by simp⟩
  rw [hsame, hpool]

/-- How a worker was started: over a ring of its own, and then as one is built. -/
theorem of_start {id cores : Nat} {config : Config} {memory : Memory} {s : Started}
    (h : start id config cores memory = .ok (.ok s)) :
    ∃ ring kept, Ring.setup config.ringEntries none = .ok (.ok ring) ∧ ring.lock memory = .ok kept ∧
      build id config cores (kernelOf config cores ring kept).1 = (.ok (.ok s.worker), s.kernel, s.trace) := by
  unfold start at h
  split at h
  · cases h
  · cases h
  rename_i ring hring
  split at h
  · cases h
  rename_i kept hkept
  dsimp only at h
  split at h
  · cases h
  · cases h
  rename_i hbuild
  cases h
  exact ⟨ring, kept, hring, hkept, hbuild⟩

/-- A worker that was started was built over a kernel with nothing ready. -/
theorem built_of_start {id cores : Nat} {config : Config} {memory : Memory} {s : Started}
    (h : start id config cores memory = .ok (.ok s)) :
    ∃ id k, k.ready = [] ∧ build id config cores k = (.ok (.ok s.worker), s.kernel, s.trace) := by
  obtain ⟨ring, kept, -, -, hbuild⟩ := of_start h
  refine ⟨id, _, ?_, hbuild⟩
  unfold kernelOf
  dsimp only
  split <;> rfl

/-- A worker that was built takes completions out, at least one at a time. -/
theorem batch_of_build {id cores : Nat} {config : Config} {k k' : Kernel} {w : Worker} {es : List Event}
    (h : build id config cores k = (.ok (.ok w), k', es)) : 0 < w.batch := by
  obtain ⟨segmentLength, pool, length, -, -, -, -, hw⟩ := of_build h
  rw [(of_ofPool hw).2]
  exact Nat.lt_of_lt_of_le Nat.one_pos (Nat.le_max_right ..)

end Worker

namespace Machine

/-- The worker was just built over a kernel with nothing ready. -/
structure Fresh (m : Machine α) : Prop where
  built : ∃ id config cores k, k.ready = [] ∧ Worker.build id config cores k = (.ok (.ok m.worker), m.kernel, m.trace)
  held : m.held = []

variable {m : Machine α} {i : Nat}

theorem Fresh.new (h : m.Fresh) : m.worker.New := by
  obtain ⟨id, config, cores, k, -, hbuild⟩ := h.built
  exact (Worker.new_of_build hbuild).1

/-- A slot of a machine that was just started is blank, and nothing is due for it. -/
theorem Fresh.view (h : m.Fresh) : m.view [] i =
    { slot? := m.worker.slots[i]?, commands := [], history := [], answers := [], handles := 0
      places := m.worker.free.count i, size := m.worker.slots.length, region := m.worker.pool.regionLength
      exited := false } := by
  obtain ⟨id, config, cores, k, hnone, hbuild⟩ := h.built
  obtain ⟨hnew, hready, haside⟩ := Worker.new_of_build hbuild
  have htrace : m.trace.filter (·.concerns i) = [] :=
    List.filter_eq_nil_iff.2 fun e he hi => Bool.false_ne_true ((haside e he i).symm.trans hi)
  simp [Machine.view, history, hnew.inbox, hnew.exited, hready, hnone, h.held, htrace]

theorem Fresh.small (h : m.Fresh) (hplaces : 0 < m.worker.free.count i) : i < 0x100000000 := by
  rw [h.new.free] at hplaces
  obtain ⟨j, -, rfl⟩ := List.mem_map.1 (List.count_pos_iff.1 hplaces)
  exact Nat.mod_lt _ (by decide)

/-- With no more slots than numbers of 32 bits, each has one place in the queue of free slots. -/
theorem Fresh.places (h : m.Fresh) (hsize : m.worker.slots.length ≤ 0x100000000) :
    m.worker.free.count i = if m.worker.slots[i]?.isSome then 1 else 0 := by
  rw [h.new.free, map_low32_range hsize]
  by_cases hi : i < m.worker.slots.length
  · rw [List.getElem?_eq_getElem hi]
    exact List.Nodup.count List.nodup_range |>.trans (if_pos (List.mem_range.2 hi))
  · rw [List.getElem?_eq_none (Nat.le_of_not_lt hi)]
    exact List.count_eq_zero.2 fun hm => hi (List.mem_range.1 hm)

/-- A machine whose worker is built from a configuration, if one can be. -/
def built? (config : Config) (cores : Nat) (app : α) : Option (Machine α) :=
  match Worker.build 0 config cores {} with
  | (.ok (.ok worker), kernel, trace) => some { worker, kernel, app, trace }
  | _ => none

/-- The worker was just built from the configuration, over a kernel with nothing ready. -/
structure FreshFrom (config : Config) (cores : Nat) (m : Machine α) : Prop where
  built : ∃ id k, k.ready = [] ∧ Worker.build id config cores k = (.ok (.ok m.worker), m.kernel, m.trace)
  held : m.held = []

theorem FreshFrom.fresh {config : Config} {cores : Nat} (h : m.FreshFrom config cores) : m.Fresh := by
  obtain ⟨⟨id, k, hready, hbuild⟩, hheld⟩ := h
  exact ⟨⟨id, config, cores, k, hready, hbuild⟩, hheld⟩

theorem freshFrom_of_built? {config : Config} {cores : Nat} {app : α} (h : built? config cores app = some m) :
    m.FreshFrom config cores := by
  unfold built? at h
  split at h
  · rename_i hbuild
    cases h
    exact ⟨⟨0, {}, rfl, hbuild⟩, rfl⟩
  · cases h

/-- By default one core has a worker of 1024 slots, over a region of eight megabytes. -/
example : (built? {} 1 () : Option (Machine Unit)).any (fun m =>
    m.worker.slots.length = 1024 ∧ 1024 * m.worker.pool.segmentLength = 0x800000) = true := by decide +kernel

theorem fresh_of_built? {config : Config} {cores : Nat} {app : α} (h : built? config cores app = some m) : m.Fresh :=
  (freshFrom_of_built? h).fresh

/-- A machine with one slot, over an application that keeps its connections. -/
def small? : Option (Machine Application) :=
  built? { backlog := 1, receiveLength := 1, sendLength := 1, useNagle := true } 1 { service := .keep }

end Machine

end SlotServer
