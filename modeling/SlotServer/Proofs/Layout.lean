import SlotServer.Proofs.Halves
import SlotServer.Proofs.Start

/-!
# How a region is laid out

A worker's region is cut into one segment for each slot, and each segment into a half that receives and a half that
sends. Every byte of the region lies in just one half, and every offset and length is a number that its word can hold.

- `Layout.start_le`, `Layout.apart`, `Layout.covered`: the halves of a layout tile its region;
- `Worker.LaidOut`: the slots of a worker lie over the halves of a layout;
- `Worker.laidOut_of_build`: those of a worker that was built do, and `Layout.Fits`: all numbers fit.
-/

namespace SlotServer

/-- The byte lies in the segment. -/
def Segment.Holds (s : Segment) (byte : Nat) : Prop := s.offset ≤ byte ∧ byte < s.offset + s.length

instance (s : Segment) (byte : Nat) : Decidable (s.Holds byte) := by
  unfold Segment.Holds
  infer_instance

/-- A region of `count` segments, each with a half that receives and a half that sends. -/
structure Layout where
  count : Nat
  receiveLength : Nat
  sendLength : Nat
  /-- The number of the region with the kernel. -/
  bufIndex : UInt16

/-- The layout that a configuration asks for. -/
def Config.layout (c : Config) (cores : Nat) (bufIndex : UInt16) : Layout :=
  ⟨c.slotsPerWorker cores, c.receiveLength, c.sendLength, bufIndex⟩

namespace Layout

def segmentLength (g : Layout) : Nat := g.receiveLength + g.sendLength

def size (g : Layout) : Nat := g.count * g.segmentLength

def length (g : Layout) : Half → Nat
  | .receive => g.receiveLength
  | .send => g.sendLength

/-- Where a half begins: that which receives at the start of its segment, and that which sends after it. -/
def start (g : Layout) (i : Nat) : Half → Nat
  | .receive => i * g.segmentLength
  | .send => i * g.segmentLength + g.receiveLength

/-- The segment of a half. -/
def half (g : Layout) (i : Nat) (half : Half) : Segment := ⟨g.bufIndex, g.start i half, g.length half⟩

/-- Every length is one of 32 bits, and every place in the region one of 64. -/
structure Fits (g : Layout) : Prop where
  length : ∀ half, low32 (g.length half) = g.length half
  size : g.size < wordCount

variable {g : Layout} {i j byte : Nat} {half other : Half}

theorem start_le (g : Layout) (i : Nat) (half : Half) :
    i * g.segmentLength ≤ g.start i half ∧ g.start i half + g.length half ≤ (i + 1) * g.segmentLength := by
  rw [Nat.add_one_mul]
  cases half <;> simp only [start, length, segmentLength] <;> omega

/-- The segments of a layout end inside its region. -/
theorem segment_le (g : Layout) (hi : i < g.count) : (i + 1) * g.segmentLength ≤ g.size :=
  Nat.mul_le_mul_right _ hi

theorem within (h : g.Fits) (hi : i < g.count) (half : Half) : (g.half i half).Within g.size := by
  have hstart := (g.start_le i half).2
  have hsegment := g.segment_le hi
  have hsize := h.size
  constructor
  · show g.start i half + g.length half < wordCount
    omega
  · show g.start i half + g.length half ≤ g.size
    omega

/-- A byte lies in one half at most. -/
theorem apart (h : (g.half i half).Holds byte) (h' : (g.half j other).Holds byte) : i = j ∧ half = other := by
  obtain ⟨hle, hlt⟩ := h
  obtain ⟨hle', hlt'⟩ := h'
  simp only [Layout.half] at hle hlt hle' hlt'
  have hi := g.start_le i half
  have hj := g.start_le j other
  have hij : i = j := by
    rcases Nat.lt_trichotomy i j with hlt | heq | hlt
    · have : (i + 1) * g.segmentLength ≤ j * g.segmentLength := Nat.mul_le_mul_right _ hlt
      omega
    · exact heq
    · have : (j + 1) * g.segmentLength ≤ i * g.segmentLength := Nat.mul_le_mul_right _ hlt
      omega
  subst hij
  refine ⟨rfl, ?_⟩
  cases half <;> cases other <;> simp only [start, length] at hle hlt hle' hlt' <;> first | rfl | omega

/-- The bytes of the region are those of its halves. -/
theorem covered : byte < g.size ↔ ∃ i half, i < g.count ∧ (g.half i half).Holds byte := by
  constructor
  · intro hbyte
    have hpos : 0 < g.segmentLength := by
      rcases Nat.eq_zero_or_pos g.segmentLength with hzero | hpos
      · rw [size, hzero] at hbyte
        omega
      · exact hpos
    have hlow := Nat.div_mul_le_self byte g.segmentLength
    have hhigh := Nat.lt_mul_div_succ byte hpos
    rw [Nat.mul_comm, Nat.add_one_mul] at hhigh
    have hcount : byte / g.segmentLength < g.count := Nat.div_lt_of_lt_mul (by rw [Nat.mul_comm]; exact hbyte)
    by_cases hreceive : byte < byte / g.segmentLength * g.segmentLength + g.receiveLength
    · exact ⟨byte / g.segmentLength, .receive, hcount, hlow, hreceive⟩
    · refine ⟨byte / g.segmentLength, .send, hcount, Nat.le_of_not_lt hreceive, ?_⟩
      simp only [half, start, length]
      simp only [segmentLength] at hhigh hreceive ⊢
      omega
  · rintro ⟨i, half, hi, -, hlt⟩
    have hstart := (g.start_le i half).2
    have hsegment := g.segment_le hi
    simp only [Layout.half] at hlt
    omega

/-- The halves tile the region: each of its bytes lies in one of them, and in no other. -/
structure Tiles (g : Layout) : Prop where
  apart : ∀ {i j byte : Nat} {half other : Half}, (g.half i half).Holds byte → (g.half j other).Holds byte →
    i = j ∧ half = other
  covered : ∀ {byte : Nat}, byte < g.size ↔ ∃ i half, i < g.count ∧ (g.half i half).Holds byte

theorem tiles (g : Layout) : g.Tiles := ⟨apart, covered⟩

end Layout

/-! ## Workers -/

/-- The slots of the worker lie over the halves of the layout. -/
structure Worker.LaidOut (g : Layout) (w : Worker) : Prop where
  count : w.slots.length = g.count
  region : w.pool.regionLength = g.size
  bufIndex : w.pool.bufIndex = g.bufIndex
  index : ∀ (i : Nat) (s : Slot), w.slots[i]? = some s → s.index = low32 i
  segment : ∀ (i : Nat) (s : Slot) (half : Half), w.slots[i]? = some s → s.segment half = g.half i half

/-- What a configuration that passes has. -/
theorem Config.validate_eq_ok {c : Config} : c.validate = .ok () ↔ 0 < c.receiveLength ∧ 0 < c.sendLength ∧
    c.receiveLength ≤ greatestHalf ∧ c.sendLength ≤ greatestHalf ∧ 0 < c.backlog ∧ isPowerOfTwo c.ringEntries = true ∧
    0 < c.batch := by
  have hnone : c.validate = .ok () ↔ c.complaint? = none := by
    unfold validate
    cases c.complaint? <;> simp
  rw [hnone]
  unfold complaint?
  grind

namespace Worker

/-- The slots over a pool lie over its segments, in order. -/
theorem laidOut_of_slotsOver {g : Layout} {pool : Pool} {slots : List Slot} {i : Nat} {s : Slot}
    (hlength : pool.segmentLength = g.segmentLength) (hindex : pool.bufIndex = g.bufIndex)
    (h : slotsOver pool g.receiveLength = .ok slots) (hs : slots[i]? = some s) :
    s.index = low32 i ∧ ∀ half, s.segment half = g.half i half := by
  obtain ⟨-, hget⟩ := getElem?_of_mapM h
  obtain ⟨j, hj, hslot⟩ := hget i s hs
  obtain rfl : i = j := by simpa using (List.getElem?_eq_some_iff.1 hj).2
  cases hat : pool.segment i with
  | error e =>
    rw [hat] at hslot
    cases hslot
  | ok segment =>
    rw [hat] at hslot
    obtain rfl : segment = ⟨g.bufIndex, i * g.segmentLength, g.segmentLength⟩ := by
      rw [← hlength, ← hindex]
      unfold Pool.segment checkedMul at hat
      split at hat
      · cases hat
      split at hat <;> cases hat
      rfl
    change Slot.ofSegment (low32 i) ⟨g.bufIndex, i * g.segmentLength, g.segmentLength⟩ g.receiveLength = _ at hslot
    have hshort : ¬ g.segmentLength < g.receiveLength := Nat.not_lt.2 (Nat.le_add_right _ _)
    unfold Slot.ofSegment Segment.split at hslot
    rw [if_neg hshort, checkedAdd] at hslot
    by_cases hword : i * g.segmentLength + g.receiveLength < wordCount
    · rw [if_pos hword] at hslot
      cases hslot
      refine ⟨rfl, fun half => ?_⟩
      cases half with
      | receive => rfl
      | send => simp [Slot.segment, Layout.half, Layout.start, Layout.length, Layout.segmentLength]
    · rw [if_neg hword] at hslot
      cases hslot

theorem laidOut_of_build {id cores : Nat} {config : Config} {k k' : Kernel} {w : Worker} {es : List Event}
    (h : build id config cores k = (.ok (.ok w), k', es)) :
    w.LaidOut (config.layout cores w.pool.bufIndex) ∧ (config.layout cores w.pool.bufIndex).Fits := by
  obtain ⟨segmentLength, pool, length, hvalid, -, -, -, hw⟩ := of_build h
  obtain ⟨⟨bufIndex, hpool⟩, hword⟩ := pool_of_build h
  obtain ⟨hslots, heq⟩ := of_ofPool hw
  have hsame : w.pool = pool := congrArg Worker.pool heq
  rw [← hsame] at hslots
  have hlength : w.pool.segmentLength = config.receiveLength + config.sendLength := by rw [hpool]
  have hsegments : w.pool.segmentCount = config.slotsPerWorker cores := by rw [hpool]
  have hcount : w.slots.length = config.slotsPerWorker cores := by
    rw [(getElem?_of_mapM hslots).1, List.length_range, hsegments]
  have hover := fun i s => laidOut_of_slotsOver (i := i) (s := s)
    (g := config.layout cores w.pool.bufIndex) hlength rfl hslots
  have hsize : w.pool.regionLength = (config.layout cores w.pool.bufIndex).size := by
    rw [Pool.regionLength, hlength, hsegments, Nat.mul_comm]
    rfl
  obtain ⟨-, -, hreceive, hsend, -⟩ := Config.validate_eq_ok.1 hvalid
  unfold Config.greatestHalf at hreceive hsend
  refine ⟨⟨hcount, hsize, rfl, fun i s hs => (hover i s hs).1, fun i s half hs => (hover i s hs).2 half⟩,
    ⟨fun half => ?_, hsize ▸ hword⟩⟩
  cases half with
  | receive => exact Nat.mod_eq_of_lt (Nat.lt_succ_of_le hreceive)
  | send => exact Nat.mod_eq_of_lt (Nat.lt_succ_of_le hsend)

end Worker

end SlotServer
