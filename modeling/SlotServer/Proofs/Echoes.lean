import Mathlib.Data.List.Forall2
import SlotServer.Proofs.Exchanges

/-!
# What an echo sends back

An echo receives, sends back, and receives again, until the peer ends or something fails. Of what came with a receive it
asks the kernel to send as much as the send half holds, and whatever the kernel does not send of that is not sent later.

- `Traffic`: what happens around the calls of one handle, with a kernel that delivers bytes and answers operations;
- `Echo`: a connection that an echo serves, with what arrived and what the kernel told was sent;
- `Echoing`, `Served`: how far the echo has come, kept by traffic (`Served.traffic`) and by each step (`Served.step`);
- `PollEnds`: the steps of a poll are enough;
- `EchoRun.sends_back`: what is sent back, exchange by exchange.
-/

namespace SlotServer

/-! ## Counts of bytes -/

namespace Completion

variable {n : Nat} {c : Completion}

/-- A count of bytes is told as it is. -/
theorem outcome_ofNat (ctx : Context) (flags : UInt32) (hn : n < 0x80000000) :
    (⟨ctx, Int32.ofNat n, flags⟩ : Completion).outcome = .ok n := by
  have hint := Int32.toInt_ofNat_of_lt hn
  have hsign : ¬ Int32.ofNat n < 0 := fun hneg => by
    rw [Int32.lt_iff_toInt_lt, hint, Int32.toInt_zero] at hneg
    omega
  rw [outcome, if_neg hsign, hint]
  rfl

theorem ofNat_ne_minValue (hn : n < 0x80000000) : Int32.ofNat n ≠ Int32.minValue := fun heq => by
  have hint := Int32.toInt_ofNat_of_lt hn
  rw [heq, Int32.toInt_minValue] at hint
  omega

/-- What ended well has a result that is not negative. -/
theorem of_outcome_ok (h : c.outcome = .ok n) : 0 ≤ c.result ∧ n = c.result.toInt.toNat := by
  unfold outcome at h
  split at h
  · cases h
  · rename_i hsign
    exact ⟨Int32.not_lt.1 hsign, (Except.ok.inj h).symm⟩

end Completion

/-! ## Traffic -/

/-- What happens around the calls of a handle. -/
inductive Traffic
  /-- The worker is made to do something. -/
  | moved (move : Move)
  /-- Bytes arrive, and answer a receive. -/
  | deliver (op : Op) (data : List UInt8) (flags : UInt32)
  /-- An operation is answered otherwise. -/
  | answer (op : Op) (result : Int32) (flags : UInt32)
  /-- Something happens around the worker. From now on calls of the kernel may fail. -/
  | around (kernel : Kernel) (app : Application)

/-- How an operation may be answered where no bytes arrive: a receive meets the end or fails, and a send tells of no
more bytes than it was for. -/
def Op.Admits (result : Int32) : Op → Prop
  | .receive .. => result ≤ 0
  | .send _ _ _ length _ => result.toInt ≤ length
  | .close .. => True

instance (result : Int32) (op : Op) : Decidable (op.Admits result) := by
  cases op <;> unfold Op.Admits <;> infer_instance

namespace Traffic

/-- It is a call of the slot's handle. -/
def calls (i : Nat) : Traffic → Bool
  | .moved (.deed j _) => j = i
  | _ => false

/-- What becomes of a machine, if this may happen. -/
def next? (m : Machine Application) : Traffic → Option (Machine Application)
  | .moved move => if move.isWhole = true then m.after? Application.serve [move] else none
  | .deliver (.receive ctx fd offset length bufIndex) data flags =>
    if m.Owed (.receive ctx fd offset length bufIndex) ∧ data ≠ [] ∧ data.length ≤ length ∧
        data.length < 0x80000000 then
      some { m with
        worker := { m.worker with pool := m.worker.pool.put offset data.toArray }
        kernel := m.kernel.inject ⟨ctx, Int32.ofNat data.length, flags⟩ }
    else none
  | .deliver .. => none
  | .answer op result flags =>
    if m.Owed op ∧ result ≠ Int32.minValue ∧ op.Admits result then
      some { m with kernel := m.kernel.inject ⟨op.ctx, result, flags⟩ }
    else none
  | .around kernel app => if kernel.ready = m.kernel.ready then some { m with kernel, app } else none

/-- What arrives for a slot. -/
def received (i : Nat) : Traffic → List (List UInt8)
  | .deliver op data _ => if op.ctx.slot = i then [data] else []
  | _ => []

/-- What the kernel tells was sent of a slot's bytes. -/
def sent (i : Nat) (m : Machine Application) : Traffic → List (List UInt8)
  | .answer (.send ctx _ offset _ _) result _ =>
    if ctx.slot = i ∧ 0 ≤ result then [m.worker.pool.bytesAt offset result.toInt.toNat] else []
  | _ => []

/-- What may happen, and what comes of it. -/
inductive Step (m : Machine Application) : Traffic → Machine Application → Prop
  | moved {move : Move} {m' : Machine Application} (hwhole : move.isWhole = true) (hallowed : move.Allowed m)
    (hrun : move.run Application.serve m = .ok () m') : Step m (.moved move) m'
  | deliver {ctx : Context} {fd : Int} {offset length : Nat} {bufIndex : UInt16} {data : List UInt8} (flags : UInt32)
    (howed : m.Owed (.receive ctx fd offset length bufIndex)) (hlength : data.length ≤ length)
    (hsmall : data.length < 0x80000000) :
    Step m (.deliver (.receive ctx fd offset length bufIndex) data flags) { m with
      worker := { m.worker with pool := m.worker.pool.put offset data.toArray }
      kernel := m.kernel.inject ⟨ctx, Int32.ofNat data.length, flags⟩ }
  | answer {op : Op} {result : Int32} (flags : UInt32) (howed : m.Owed op) (hresult : result ≠ Int32.minValue)
    (hadmits : op.Admits result) :
    Step m (.answer op result flags) { m with kernel := m.kernel.inject ⟨op.ctx, result, flags⟩ }
  | around (kernel : Kernel) (app : Application) (hready : kernel.ready = m.kernel.ready) :
    Step m (.around kernel app) { m with kernel, app }

theorem step_of_next {m m' : Machine Application} {t : Traffic} (h : t.next? m = some m') : Step m t m' := by
  unfold next? at h
  split at h
  · split at h
    case isFalse => cases h
    rename_i hwhole
    unfold Machine.after? at h
    split at h
    case isFalse => cases h
    rename_i hallowed
    split at h <;> cases h
    rename_i hrun
    exact .moved hwhole hallowed hrun
  · split at h <;> cases h
    rename_i hmay
    obtain ⟨howed, -, hlength, hsmall⟩ := hmay
    exact .deliver _ howed hlength hsmall
  · cases h
  · split at h <;> cases h
    rename_i hmay
    obtain ⟨howed, hresult, hadmits⟩ := hmay
    exact .answer _ howed hresult hadmits
  · split at h <;> cases h
    rename_i hready
    exact .around _ _ hready

/-- What is known of a worker in all its runs, traffic keeps. -/
theorem Step.grounded {g : Layout} {m m' : Machine Application} {t : Traffic} (hstep : Step m t m')
    (h : m.Grounded g) : m'.Grounded g := by
  cases hstep with
  | moved hwhole hallowed hrun => exact h.move hwhole hallowed hrun
  | deliver flags howed _ hsmall =>
    exact (h.answer _ flags howed (Completion.ofNat_ne_minValue hsmall)).put _ _
  | answer flags howed hresult => exact h.answer _ flags howed hresult
  | around kernel app hready => exact h.around kernel app hready

/-- The machine after a row of these, if all of them may happen. -/
def play? (m : Machine Application) : List Traffic → Option (Machine Application)
  | [] => some m
  | t :: ts => (t.next? m).bind (play? · ts)

end Traffic

/-! ## Echoes -/

/-- A connection that an echo serves. -/
structure Echo where
  machine : Machine Application
  /-- Where the echo's task is. -/
  stage : Handler.Stage := .ready
  /-- What arrived, receive by receive. -/
  received : List (List UInt8) := []
  /-- What the kernel told was sent, send by send. -/
  sent : List (List UInt8) := []

namespace Echo

/-- What may happen while an echo serves a connection: anything but a call of the handle, and polls of the task. -/
inductive Cue
  | traffic (t : Traffic)
  | poll (waker : Waker)

/-- What becomes of an echo, if it has not come to its end. -/
def next? (i : Nat) (x : Echo) (cue : Cue) : Option Echo :=
  if x.stage = .finished then none
  else
    match cue with
    | .traffic t =>
      if t.calls i = true then none
      else
        (t.next? x.machine).map fun machine =>
          { x with machine, received := x.received ++ t.received i, sent := x.sent ++ t.sent i x.machine }
    | .poll waker =>
      match Handler.echo.poll waker i x.stage x.machine with
      | .ok stage machine => some { x with machine, stage }
      | .error .. => none

/-- The echo after a row of cues, if all of them may be. -/
def play? (i : Nat) (x : Echo) : List Cue → Option Echo
  | [] => some x
  | cue :: cues => (x.next? i cue).bind (·.play? i cues)

end Echo

/-- Where a task is after a step. -/
def Handler.Progress.stage : Handler.Progress → Handler.Stage
  | waits stage | goesOn stage => stage

/-- A poll of the echo has come to its end after so many steps: with more of them it comes to the same. -/
def PollEnds (waker : Waker) (i n : Nat) (stage : Handler.Stage) (m : Machine Application) : Prop :=
  ∀ k, Handler.steps .echo waker i (n + k) stage m = Handler.steps .echo waker i n stage m

namespace PollEnds

variable {waker : Waker} {i n : Nat} {stage stage' : Handler.Stage} {m m' : Machine Application}

theorem of_finished (waker : Waker) (i n : Nat) (m : Machine Application) : PollEnds waker i n .finished m := by
  have hstays : ∀ n, Handler.steps .echo waker i n .finished m = .ok .finished m := fun n => by cases n <;> rfl
  exact fun k => (hstays (n + k)).trans (hstays n).symm

theorem of_waits (hrun : Handler.step .echo waker i stage m = .ok (.waits stage') m') :
    PollEnds waker i (n + 1) stage m := by
  have hwaits : ∀ n, Handler.steps .echo waker i (n + 1) stage m = .ok stage' m' := fun n => Run.bind_run hrun
  intro k
  rw [Nat.add_right_comm, hwaits, hwaits]

theorem of_goesOn (h : PollEnds waker i n stage' m')
    (hrun : Handler.step .echo waker i stage m = .ok (.goesOn stage') m') : PollEnds waker i (n + 1) stage m := by
  intro k
  rw [Nat.add_right_comm]
  refine (Run.bind_run hrun).trans (Eq.trans ?_ (Run.bind_run hrun).symm)
  cases stage' <;> first | rfl | exact h k

theorem mono {k : Nat} (h : PollEnds waker i n stage m) (hle : n ≤ k) : PollEnds waker i k stage m := by
  obtain ⟨e, rfl⟩ := Nat.exists_eq_add_of_le hle
  intro d
  rw [Nat.add_assoc, h, h]

end PollEnds

/-! ## Exchanges -/

variable {i n : Nat} {half : Half} {answer? : Option Completion} {last? : Option (List UInt8)} {data : List UInt8}
  {received sent : List (List UInt8)} {since before : List Event} {p : Phase} {c : Completion}

/-- What arrived and what was sent, exchange by exchange: of every exchange but the last one that is not over, a first
part of what the send half could hold was sent. -/
def Rounds (sendLength : Nat) (received sent : List (List UInt8)) (last? : Option (List UInt8)) : Prop :=
  ∃ whole, received = whole ++ last?.toList ∧ List.Forall₂ (fun r s => s <+: r.take sendLength) whole sent

namespace Rounds

variable {sendLength : Nat}

/-- Bytes arrive. -/
theorem receive (h : Rounds sendLength received sent none) (data : List UInt8) :
    Rounds sendLength (received ++ [data]) sent (some data) := by
  obtain ⟨whole, rfl, hall⟩ := h
  exact ⟨whole, by rw [Option.toList_none, List.append_nil]; rfl, hall⟩

/-- Bytes were sent. -/
theorem send {s : List UInt8} (h : Rounds sendLength received sent (some data)) (hs : s <+: data.take sendLength) :
    Rounds sendLength received (sent ++ [s]) none := by
  obtain ⟨whole, rfl, hall⟩ := h
  exact ⟨whole ++ [data], (List.append_nil _).symm, List.rel_append hall (.cons hs .nil)⟩

end Rounds

/-- Where a first part of each exchange was sent, all was sent only if each of them was sent whole. -/
theorem flatten_eq_iff {whole sent : List (List UInt8)} (h : List.Forall₂ (fun r s => s <+: r) whole sent) :
    sent.flatten.length ≤ whole.flatten.length ∧ (sent.flatten = whole.flatten ↔ sent = whole) := by
  induction h with
  | nil => exact ⟨Nat.le_refl _, iff_of_true rfl rfl⟩
  | @cons r s whole sent hprefix _ ih =>
    obtain ⟨hle, hiff⟩ := ih
    have hshort := hprefix.length_le
    refine ⟨by simp only [List.flatten_cons, List.length_append]; omega, fun heq => ?_, fun heq => by rw [heq]⟩
    -- by their lengths: what one exchange lost, no other one makes up for
    have hlength := congrArg List.length heq
    simp only [List.flatten_cons, List.length_append] at hlength
    obtain rfl : s = r := hprefix.eq_of_length (by omega)
    rw [hiff.1 (List.append_cancel_left heq)]

/-! ## How far an echo has come -/

namespace Pool

variable {pool pool' : Pool} {offset count : Nat}

theorem bytesAt_congr (h : ∀ place, offset ≤ place → place < offset + count → pool'.bytes place = pool.bytes place) :
    pool'.bytesAt offset count = pool.bytesAt offset count :=
  List.map_congr_left fun _ hk => h _ (Nat.le_add_right _ _) (Nat.add_lt_add_left (List.mem_range.1 hk) _)

theorem bytesAt_prefix (h : n ≤ count) : pool.bytesAt offset n <+: pool.bytesAt offset count := by
  have htake : pool.bytesAt offset n = (pool.bytesAt offset count).take n := by
    rw [bytesAt, bytesAt, ← List.map_take, List.take_range, Nat.min_eq_left h]
  rw [htake]
  exact List.take_prefix ..

/-- What was put somewhere is there. -/
theorem bytesAt_put (pool : Pool) (offset : Nat) (data : List UInt8) :
    (pool.put offset data.toArray).bytesAt offset data.length = data := by
  refine List.ext_getElem (Pool.length_bytesAt ..) fun _ _ hk => ?_
  simp [bytesAt, put, hk]

end Pool

/-- What comes to an answer is not caught. -/
theorem Run.tryCatch_run {α β : Type} {x : Run α β} {m m' : Machine α} {b : β} (recover : Fault → Run α β)
    (h : x m = .ok b m') : tryCatch x recover m = .ok b m' := by
  show EStateM.tryCatch x recover m = _
  unfold EStateM.tryCatch
  rw [h]

/-- A completion of a slot becomes ready where none is. -/
theorem Machine.answersFor_inject {α : Type} (m : Machine α) {worker : Worker} (hnone : m.answersFor [] i = [])
    (hslot : c.ctx.slot = i) : ({ m with worker, kernel := m.kernel.inject c } : Machine α).answersFor [] i = [c] := by
  rw [answersFor_of_ready rfl, hnone, List.nil_append]
  exact List.filter_cons_of_pos (decide_eq_true hslot)

/-- The kernel's answer to a receive, and what came with it. -/
inductive Came (g : Layout) (i : Nat) (pool : Pool) : Option Completion → Option (List UInt8) → Prop
  | due : Came g i pool none none
  | ended {c : Completion} (hnone : ∀ n, c.outcome = .ok n → n = 0) : Came g i pool (some c) none
  | came {c : Completion} {data : List UInt8} (houtcome : c.outcome = .ok data.length)
    (hfits : data.length ≤ g.receiveLength) (hbytes : pool.bytesAt (g.start i .receive) data.length = data) :
    Came g i pool (some c) (some data)

/-- The kernel's answer to a send, and what is to be sent still. -/
inductive Went (g : Layout) (i : Nat) (pool : Pool) (asked : Nat) : Option Completion → Option (List UInt8) → Prop
  | due {data : List UInt8} (hbytes : pool.bytesAt (g.start i .send) asked = data.take g.sendLength) :
    Went g i pool asked none (some data)
  | failed {c : Completion} {data : List UInt8} (hnone : ∀ n, c.outcome ≠ .ok n) :
    Went g i pool asked (some c) (some data)
  | went {c : Completion} : Went g i pool asked (some c) none

/-- How far an echo has come with what arrived and what was sent. -/
inductive Echoing (g : Layout) (i : Nat) (m : Machine Application) (received sent : List (List UInt8)) :
    Handler.Stage → Prop
  | ready (hdormant : Dormant (m.history i)) (hrounds : Rounds g.sendLength received sent none) :
    Echoing g i m received sent .ready
  | refused (error : Option Error) (hdormant : Dormant (m.history i))
    (hrounds : Rounds g.sendLength received sent none) :
    Echoing g i m received sent (.receiving (.refused error))
  | receiving {answer? : Option Completion} {last? : Option (List UInt8)} {since before : List Event}
    (hawaits : Awaits i .receive answer? (m.history i) (m.answersFor [] i) since before)
    (hcame : Came g i m.worker.pool answer? last?) (hrounds : Rounds g.sendLength received sent last?) :
    Echoing g i m received sent (.receiving (.awaiting ⟨i, .receive⟩))
  | sending {answer? : Option Completion} {last? : Option (List UInt8)} {since before : List Event}
    (hawaits : Awaits i .send answer? (m.history i) (m.answersFor [] i) since before)
    (hwent : Went g i m.worker.pool ((sendAsked i m.trace).getD 0) answer? last?)
    (hrounds : Rounds g.sendLength received sent last?) :
    Echoing g i m received sent (.sending (.awaiting ⟨i, .send⟩))
  | finished {last? : Option (List UInt8)} (hrounds : Rounds g.sendLength received sent last?) :
    Echoing g i m received sent .finished

section Echoing

variable {g : Layout} {m m' : Machine Application} {pool pool' : Pool} {asked : Nat} {stage : Handler.Stage}

/-- What came stays where it is, as long as the bytes of the slot do. -/
theorem Came.congr (h : Came g i pool answer? last?)
    (hbytes : ∀ place, g.Own i place → pool'.bytes place = pool.bytes place) :
    Came g i pool' answer? last? := by
  cases h with
  | due => exact .due
  | ended hnone => exact .ended hnone
  | came houtcome hfits hsame =>
    refine .came houtcome hfits ((Pool.bytesAt_congr fun place hle hlt => ?_).trans hsame)
    exact hbytes place ⟨.receive, hle, Nat.lt_of_lt_of_le hlt (Nat.add_le_add_left hfits _)⟩

theorem Went.congr (h : Went g i pool asked answer? last?)
    (hbytes : ∀ place, g.Own i place → pool'.bytes place = pool.bytes place) :
    Went g i pool' asked answer? last? := by
  cases h with
  | failed hnone => exact .failed hnone
  | went => exact .went
  | @due data hsame =>
    have hfits : asked ≤ g.sendLength := by
      rw [← pool.length_bytesAt (g.start i .send) asked, hsame]
      exact List.length_take_le ..
    refine .due ((Pool.bytesAt_congr fun place hle hlt => ?_).trans hsame)
    exact hbytes place ⟨.send, hle, Nat.lt_of_lt_of_le hlt (Nat.add_le_add_left hfits _)⟩

namespace Echoing

theorem rounds (h : Echoing g i m received sent stage) : ∃ last?, Rounds g.sendLength received sent last? := by
  cases h with
  | ready _ hrounds | refused _ _ hrounds | receiving _ _ hrounds | sending _ _ hrounds | finished hrounds =>
    exact ⟨_, hrounds⟩

/-! ### Others at work -/

/-- Others leave an echo where it is. -/
theorem unharmed (h : Echoing g i m received sent stage) (hm : m.Unharmed i (g.Own i) [] [] m')
    (hp : phase (m'.history i) = some p) : Echoing g i m' received sent stage := by
  cases h with
  | ready hdormant hrounds => exact .ready (hdormant.lulls hm.lulls) hrounds
  | refused error hdormant hrounds => exact .refused error (hdormant.lulls hm.lulls) hrounds
  | receiving hawaits hcame hrounds =>
    obtain ⟨since, hawaits'⟩ := hawaits.lulls hm.lulls hp
    exact .receiving hawaits' (hcame.congr hm.bytes) hrounds
  | sending hawaits hwent hrounds =>
    obtain ⟨since, hawaits'⟩ := hawaits.lulls hm.lulls hp
    refine .sending hawaits' ?_ hrounds
    rw [hm.asked]
    exact hwent.congr hm.bytes
  | finished hrounds => exact .finished hrounds

/-- So does the answer to an operation that is not of a half. -/
theorem passed (h : Echoing g i m received sent stage) (hp : phase (m.history i) = some p)
    (hoff : ∀ half, p.isOn half = false) (kernel : Kernel) : Echoing g i { m with kernel } received sent stage := by
  cases h with
  | ready hdormant hrounds => exact .ready hdormant hrounds
  | refused error hdormant hrounds => exact .refused error hdormant hrounds
  | receiving hawaits hcame hrounds => exact .receiving (hawaits.passed hp (hoff .receive) _) hcame hrounds
  | sending hawaits hwent hrounds => exact .sending (hawaits.passed hp (hoff .send) _) hwent hrounds
  | finished hrounds => exact .finished hrounds

/-! ### Answers -/

section Answers

variable (h : Echoing g i m received sent stage) (hgoing : stage ≠ .finished) (hp : phase (m.history i) = some p)
  (hnone : m.answersFor [] i = [])

include h hgoing hp hnone

/-- An echo awaits the receive that its connection has under way. -/
theorem due_receive (hon : p.isOn .receive = true) :
    stage = .receiving (.awaiting ⟨i, .receive⟩) ∧ Rounds g.sendLength received sent none ∧
      ∃ since before, Awaits i .receive none (m.history i) [] since before := by
  cases h with
  | receiving hawaits hcame hrounds =>
    rw [hnone] at hawaits
    obtain rfl := hawaits.unanswered hp hon
    cases hcame with
    | due => exact ⟨rfl, hrounds, _, _, hawaits⟩
  | ready hdormant | refused _ hdormant =>
    rw [hdormant p hp .receive] at hon
    cases hon
  | sending hawaits =>
    have hoff : p.isOn .receive = false := hawaits.off hp nofun
    rw [hoff] at hon
    cases hon
  | finished => exact absurd rfl hgoing

/-- An echo awaits the send that its connection has under way, and that is of what arrived last. -/
theorem due_send (hon : p.isOn .send = true) :
    stage = .sending (.awaiting ⟨i, .send⟩) ∧ ∃ data, Rounds g.sendLength received sent (some data) ∧
      m.worker.pool.bytesAt (g.start i .send) ((sendAsked i m.trace).getD 0) = data.take g.sendLength ∧
        ∃ since before, Awaits i .send none (m.history i) [] since before := by
  cases h with
  | sending hawaits hwent hrounds =>
    rw [hnone] at hawaits
    obtain rfl := hawaits.unanswered hp hon
    cases hwent with
    | @due data hbytes => exact ⟨rfl, data, hrounds, hbytes, _, _, hawaits⟩
  | ready hdormant | refused _ hdormant =>
    rw [hdormant p hp .send] at hon
    cases hon
  | receiving hawaits =>
    have hoff : p.isOn .send = false := hawaits.off hp nofun
    rw [hoff] at hon
    cases hon
  | finished => exact absurd rfl hgoing

variable (hslot : c.ctx.slot = i)

include hslot

/-- Bytes arrive. -/
theorem delivered (hon : p.isOn .receive = true) (houtcome : c.outcome = .ok data.length)
    (hfits : data.length ≤ g.receiveLength) :
    Echoing g i
      { m with
        worker := { m.worker with pool := m.worker.pool.put (g.start i .receive) data.toArray }
        kernel := m.kernel.inject c } (received ++ [data]) sent stage := by
  obtain ⟨rfl, hrounds, since, before, hawaits⟩ := h.due_receive hgoing hp hnone hon
  have hanswered := hawaits.answered hp hon c
  rw [← Machine.answersFor_inject m hnone hslot] at hanswered
  exact .receiving hanswered (.came houtcome hfits (m.worker.pool.bytesAt_put _ data)) (hrounds.receive data)

/-- A receive has met the end, or failed. -/
theorem ended (hon : p.isOn .receive = true) (hzero : ∀ n, c.outcome = .ok n → n = 0) :
    Echoing g i { m with kernel := m.kernel.inject c } received sent stage := by
  obtain ⟨rfl, hrounds, since, before, hawaits⟩ := h.due_receive hgoing hp hnone hon
  have hanswered := hawaits.answered hp hon c
  rw [← Machine.answersFor_inject m hnone hslot] at hanswered
  exact .receiving hanswered (.ended hzero) hrounds

/-- A first part of what was asked for was sent. -/
theorem went (hon : p.isOn .send = true) (hn : n ≤ (sendAsked i m.trace).getD 0) :
    Echoing g i { m with kernel := m.kernel.inject c } received
      (sent ++ [m.worker.pool.bytesAt (g.start i .send) n]) stage := by
  obtain ⟨rfl, data, hrounds, hbytes, since, before, hawaits⟩ := h.due_send hgoing hp hnone hon
  have hanswered := hawaits.answered hp hon c
  rw [← Machine.answersFor_inject m hnone hslot] at hanswered
  refine .sending hanswered .went (hrounds.send ?_)
  rw [← hbytes]
  exact Pool.bytesAt_prefix hn

/-- A send has failed. -/
theorem failed (hon : p.isOn .send = true) (hbad : ∀ n, c.outcome ≠ .ok n) :
    Echoing g i { m with kernel := m.kernel.inject c } received sent stage := by
  obtain ⟨rfl, data, hrounds, -, since, before, hawaits⟩ := h.due_send hgoing hp hnone hon
  have hanswered := hawaits.answered hp hon c
  rw [← Machine.answersFor_inject m hnone hslot] at hanswered
  exact .sending hanswered (.failed hbad) hrounds

end Answers

end Echoing

/-- The connection is served: its handle is alive, and the echo has come so far. -/
structure Served (g : Layout) (i : Nat) (received sent : List (List UInt8)) (m : Machine Application)
    (stage : Handler.Stage) : Prop where
  grounded : m.Grounded g
  held : i ∈ m.held
  echoing : Echoing g i m received sent stage

namespace Served

theorem phase (h : Served g i received sent m stage) : ∃ p, phase (m.history i) = some p := by
  obtain ⟨s, hs, -⟩ := h.grounded.slot_of_held h.held
  obtain ⟨p, hp, -⟩ := (h.grounded.calm hs).1.stage
  exact ⟨p, hp⟩

/-- Others are at work. -/
theorem unharmed (h : Served g i received sent m stage) (hm' : m'.Grounded g)
    (hkept : m.Unharmed i (g.Own i) [] [] m') : Served g i received sent m' stage where
  grounded := hm'
  held := hkept.held h.held
  echoing := by
    obtain ⟨s, hs, -⟩ := hm'.slot_of_held (hkept.held h.held)
    obtain ⟨p, hp, -⟩ := (hm'.calm hs).1.stage
    exact h.echoing.unharmed hkept hp

/-- The operation of another slot is answered, and maybe bytes are put elsewhere. -/
theorem elsewhere (h : Served g i received sent m stage) {worker : Worker} (hslot : c.ctx.slot ≠ i)
    (hm' : Machine.Grounded g { m with worker, kernel := m.kernel.inject c })
    (hbytes : ∀ place, g.Own i place → worker.pool.bytes place = m.worker.pool.bytes place) :
    Served g i received sent { m with worker, kernel := m.kernel.inject c } stage := by
  refine h.unharmed hm' (.of_same hbytes id rfl ?_)
  rw [Machine.answersFor_of_ready rfl, List.filter_cons_of_neg (by simpa using hslot), List.filter_nil,
    List.append_nil]

/-- Bytes arrive for some slot. -/
theorem deliver (h : Served g i received sent m stage) (hgoing : stage ≠ .finished) {ctx : Context} {fd : Int}
    {offset length : Nat} {bufIndex : UInt16} (flags : UInt32)
    (howed : m.Owed (.receive ctx fd offset length bufIndex)) (hlength : data.length ≤ length)
    (hsmall : data.length < 0x80000000) :
    Served g i (received ++ if ctx.slot = i then [data] else []) sent
      { m with
        worker := { m.worker with pool := m.worker.pool.put offset data.toArray }
        kernel := m.kernel.inject ⟨ctx, Int32.ofNat data.length, flags⟩ } stage := by
  obtain ⟨rfl, rfl⟩ := h.grounded.receive_owed howed
  have houtcome := Completion.outcome_ofNat ctx flags hsmall
  have hm' := (h.grounded.answer _ flags howed (Completion.ofNat_ne_minValue hsmall)).put (g.start ctx.slot .receive)
    data.toArray
  split
  case isTrue hslot =>
    obtain ⟨s, p, -, hp, hon, -, hnone⟩ := h.grounded.owed howed rfl
    subst hslot
    exact ⟨hm', h.held, h.echoing.delivered hgoing hp hnone rfl hon houtcome hlength⟩
  case isFalse hslot =>
    rw [List.append_nil]
    refine h.elsewhere hslot hm' fun place hown => Pool.bytes_put fun ⟨hle, hlt⟩ => ?_
    obtain ⟨half, hplace⟩ := hown
    have hother : (g.half ctx.slot .receive).Holds place :=
      ⟨hle, Nat.lt_of_lt_of_le hlt (Nat.add_le_add_left hlength _)⟩
    exact hslot (Layout.apart hother hplace).1

/-- An operation of some slot is answered otherwise. -/
theorem answer (h : Served g i received sent m stage) (hgoing : stage ≠ .finished) {op : Op} {result : Int32}
    (flags : UInt32) (howed : m.Owed op) (hresult : result ≠ Int32.minValue) (hadmits : op.Admits result) :
    Served g i received (sent ++ (Traffic.answer op result flags).sent i m)
      { m with kernel := m.kernel.inject ⟨op.ctx, result, flags⟩ } stage := by
  have hm' := h.grounded.answer result flags howed hresult
  by_cases hslot : op.ctx.slot = i
  case neg =>
    have hnone : (Traffic.answer op result flags).sent i m = [] := by
      cases op with
      | send => exact if_neg fun hboth => hslot hboth.1
      | _ => rfl
    rw [hnone, List.append_nil]
    exact h.elsewhere hslot hm' fun _ _ => rfl
  subst hslot
  refine ⟨hm', h.held, ?_⟩
  cases op with
  | receive ctx fd offset length bufIndex =>
    obtain ⟨s, p, -, hp, hon, -, hnone⟩ := h.grounded.owed howed rfl
    show Echoing g _ _ received (sent ++ []) stage
    rw [List.append_nil]
    refine h.echoing.ended hgoing hp hnone rfl hon fun n hn => ?_
    have hle : result.toInt ≤ 0 := Int32.le_iff_toInt_le.1 hadmits
    obtain ⟨-, rfl⟩ := Completion.of_outcome_ok hn
    exact Int.toNat_of_nonpos hle
  | send ctx fd offset length bufIndex =>
    obtain ⟨s, p, -, hp, hon, -, hnone⟩ := h.grounded.owed howed rfl
    obtain ⟨rfl, rfl⟩ := h.grounded.send_owed howed
    by_cases hsign : 0 ≤ result
    · have hn : result.toInt.toNat ≤ (sendAsked ctx.slot m.trace).getD 0 := Int.toNat_le.2 hadmits
      rw [Traffic.sent, if_pos ⟨rfl, hsign⟩]
      exact h.echoing.went hgoing hp hnone rfl hon hn
    · rw [Traffic.sent, if_neg fun hboth => hsign hboth.2, List.append_nil]
      exact h.echoing.failed hgoing hp hnone rfl hon fun n hn => hsign (Completion.of_outcome_ok hn).1
  | close ctx fd =>
    obtain ⟨s, hcalm, -, hone, -⟩ := Resting.owed h.grounded.resting howed
    obtain ⟨p, hp, hoff⟩ := hcalm.off_of_outstanding hone rfl
    show Echoing g _ _ received (sent ++ []) stage
    rw [List.append_nil]
    exact h.echoing.passed hp hoff _

/-- Whatever happens around the calls of its handle leaves the connection served. -/
theorem traffic (h : Served g i received sent m stage) (hgoing : stage ≠ .finished) {t : Traffic}
    (hcalls : t.calls i = false) (hstep : t.Step m m') :
    Served g i (received ++ t.received i) (sent ++ t.sent i m) m' stage := by
  cases hstep with
  | @moved move _ hwhole hallowed hrun =>
    obtain ⟨s, -, -, hfree⟩ := h.grounded.slot_of_held h.held
    have hother : ∀ d, move ≠ .deed i d := by
      rintro d rfl
      exact Bool.false_ne_true (hcalls.symm.trans (decide_eq_true rfl))
    rw [show (Traffic.moved move).received i = [] from rfl, List.append_nil,
      show (Traffic.moved move).sent i m = [] from rfl, List.append_nil]
    exact h.unharmed (h.grounded.move hwhole hallowed hrun)
      (Move.unharmed h.grounded.ledger.laid hfree hwhole hother hrun)
  | @deliver _ _ _ _ _ data flags howed hlength hsmall =>
    rw [show (Traffic.deliver _ data flags).sent i m = [] from rfl, List.append_nil]
    exact h.deliver hgoing flags howed hlength hsmall
  | @answer op result flags howed hresult hadmits =>
    rw [show (Traffic.answer op result flags).received i = [] from rfl, List.append_nil]
    exact h.answer hgoing flags howed hresult hadmits
  | around kernel app hready =>
    rw [show (Traffic.around kernel app).received i = [] from rfl, List.append_nil,
      show (Traffic.around kernel app).sent i m = [] from rfl, List.append_nil]
    refine h.unharmed (h.grounded.around kernel app hready) (.of_same (fun _ _ => rfl) id rfl ?_)
    exact congrArg View.answers (m.view_kernel [] i kernel hready)

/-! ### Polls -/

/-- A program of the echo comes to an answer, after which the connection is served and the poll ends within so many
steps. -/
def Goes (g : Layout) (i : Nat) (received sent : List (List UInt8)) (waker : Waker) (n : Nat)
    (x : Run Application Handler.Progress) (m : Machine Application) : Prop :=
  ∃ progress m', x m = .ok progress m' ∧ Served g i received sent m' progress.stage ∧
    ∀ stage, progress = .goesOn stage → PollEnds waker i n stage m'

theorem Goes.pollEnds {waker : Waker} (h : Goes g i received sent waker n (Handler.step .echo waker i stage) m) :
    PollEnds waker i (n + 1) stage m := by
  obtain ⟨progress, m', hrun, -, hends⟩ := h
  cases progress with
  | waits stage' => exact .of_waits hrun
  | goesOn stage' => exact (hends stage' rfl).of_goesOn hrun

theorem Goes.ended {waker : Waker} {x : Run Application Handler.Progress} (hrun : x m = .ok (.goesOn .finished) m')
    (h : Served g i received sent m' .finished) : Goes g i received sent waker n x m := by
  refine ⟨_, m', hrun, h, ?_⟩
  rintro _ ⟨⟩
  exact .of_finished waker i n m'

theorem Goes.mono {waker : Waker} {k : Nat} {x : Run Application Handler.Progress}
    (h : Goes g i received sent waker n x m) (hle : n ≤ k) : Goes g i received sent waker k x m := by
  obtain ⟨progress, m', hrun, hserved, hends⟩ := h
  exact ⟨progress, m', hrun, hserved, fun stage hstage => (hends stage hstage).mono hle⟩

/-- A receive begins, or is refused. -/
theorem receive (h : Served g i received sent m .ready) (waker : Waker) :
    Goes g i received sent waker 1 (Handler.step .echo waker i .ready) m := by
  obtain ⟨s, hs, -⟩ := h.grounded.slot_of_held h.held
  cases h.echoing with
  | ready hdormant hrounds =>
    by_cases hstart : s.state ∈ Slot.startsFrom .receive
    · obtain ⟨m', hrun, hbegun⟩ := h.grounded.receives hs h.held hstart
      obtain ⟨m'', hpoll⟩ := hbegun.pends waker
      refine ⟨_, m', Run.bind_run hrun, ⟨hbegun.grounded, hbegun.held,
        .receiving (.begin hbegun.history hbegun.ready) .due hrounds⟩, ?_⟩
      rintro _ ⟨⟩
      exact .of_waits (Run.bind_run hpoll)
    · refine ⟨_, m, Run.bind_run (Connection.receive_refused hs hstart), ⟨h.grounded, h.held,
        .refused _ hdormant hrounds⟩, ?_⟩
      rintro _ ⟨⟩
      exact (PollEnds.of_finished waker i 0 m).of_goesOn rfl

/-- The bytes of a receive are put into the send half, as many as it holds. -/
theorem copyOver {s : Slot} (hm : m.Grounded g) (hs : m.worker.slots[i]? = some s) (hstate : s.state ≠ .sending)
    (hreceived : Connection.received i m = .ok data m) :
    Handler.copyOver i data.length m = .ok ()
      { m with
        worker := { m.worker with pool := m.worker.pool.put (g.start i .send) (data.take g.sendLength).toArray } } := by
  refine (Run.bind_run hreceived).trans ((Run.bind_run (hm.sendBuffer hs hstate)).trans ?_)
  have hlong : ¬ data.length < min data.length g.sendLength := Nat.not_lt.2 (Nat.min_le_left ..)
  have htake : data.take (min data.length g.sendLength) = data.take g.sendLength := by
    rw [List.take_eq_take_iff]
    omega
  dsimp only
  rw [Pool.length_bytesAt, if_neg hlong, htake]
  exact Run.bind_run (hm.fill hs hstate (List.length_take_le ..))

/-- What was received is sent, as much as the send half holds, or the send is refused. -/
theorem sendBack {s : Slot} (hm : m.Grounded g) (hheld : i ∈ m.held) (hs : m.worker.slots[i]? = some s)
    (hstate : s.state ≠ .sending) (hreceived : Connection.received i m = .ok data m)
    (hrounds : Rounds g.sendLength received sent (some data)) (waker : Waker) :
    Goes g i received sent waker 1 (Handler.answer .echo i data.length) m := by
  let m₁ : Machine Application :=
    { m with
      worker := { m.worker with pool := m.worker.pool.put (g.start i .send) (data.take g.sendLength).toArray } }
  have hm₁ : m₁.Grounded g := hm.put _ _
  have hgoes : ∀ progress m', Handler.startSend i (min data.length g.sendLength) m₁ = .ok progress m' →
      Handler.answer .echo i data.length m = .ok progress m' := fun progress m' hrun =>
    (Run.bind_run (copyOver hm hs hstate hreceived)).trans ((Run.bind_run (hm₁.sendCapacity hs)).trans hrun)
  by_cases hstart : s.state ∈ Slot.startsFrom .send
  · obtain ⟨m', hrun, hbegun, hasked, hbytes⟩ := hm₁.sends hs hheld hstart (Nat.min_le_right data.length g.sendLength)
    -- the bytes are in place before the send begins, and its beginning writes none
    have hwent : Went g i m'.worker.pool ((sendAsked i m'.trace).getD 0) none (some data) := by
      rw [hasked]
      refine .due ((Pool.bytesAt_congr fun place _ _ => hbytes place).trans ?_)
      have hlength : min data.length g.sendLength = (data.take g.sendLength).length := by
        rw [List.length_take, Nat.min_comm]
      rw [hlength]
      exact Pool.bytesAt_put ..
    obtain ⟨m'', hpoll⟩ := hbegun.pends waker
    refine ⟨_, m', hgoes _ m' (Run.bind_run hrun), ⟨hbegun.grounded, hbegun.held,
      .sending (.begin hbegun.history hbegun.ready) hwent hrounds⟩, ?_⟩
    rintro _ ⟨⟩
    exact .of_waits (Run.bind_run hpoll)
  · have hrefused : ∃ e, Connection.send i (min data.length g.sendLength) m₁ = .ok (.error e) m₁ :=
      Connection.send_refused hs fun hboth => hstart hboth.2
    obtain ⟨e, hrun⟩ := hrefused
    exact .ended (hgoes _ m₁ (Run.bind_run hrun)) ⟨hm₁, hheld, .finished hrounds⟩

/-- A poll that finds nothing leaves the echo where it is. -/
theorem waits (h : Served g i received sent m stage) {waker : Waker}
    (hrun : Connection.pollFuture waker (.awaiting ⟨i, half⟩) m = .ok (.pending, .awaiting ⟨i, half⟩) m') :
    Served g i received sent m' stage :=
  h.unharmed (h.grounded.deed (.poll half waker) h.held (Run.bind_run hrun))
    (Harmless.pollFuture waker _ [] m _ m' hrun)

/-- A receive that is awaited goes on, has failed or met the end, or its bytes are sent back. -/
theorem awaitReceive (h : Served g i received sent m (.receiving (.awaiting ⟨i, .receive⟩))) (waker : Waker) :
    Goes g i received sent waker 1 (Handler.step .echo waker i (.receiving (.awaiting ⟨i, .receive⟩))) m := by
  obtain ⟨s, hs, -⟩ := h.grounded.slot_of_held h.held
  obtain ⟨p, hp⟩ := h.phase
  cases h.echoing with
  | receiving hawaits hcame hrounds =>
    have hover : Served g i received sent m .finished := ⟨h.grounded, h.held, .finished hrounds⟩
    rcases h.grounded.polled hs hawaits waker with ⟨m', hrun⟩ | ⟨o, hrun, hended⟩
    · exact ⟨_, m', Run.bind_run hrun, h.waits hrun, nofun⟩
    cases o with
    | error e => exact .ended (Run.bind_run hrun) hover
    | ok n =>
      have hending := hended _ rfl
      obtain ⟨c, hc, houtcome⟩ := hawaits.told _ hending
      cases hcame with
      | due => cases hc
      | ended hzero =>
        cases hc
        obtain rfl := hzero _ houtcome
        exact .ended (Run.bind_run hrun) hover
      | @came c' data hdata hfits hbytes =>
        cases hc
        obtain rfl : data.length = n := Except.ok.inj (hdata.symm.trans houtcome)
        -- what the connection shows are the bytes that came with the answer: others have kept off them
        have hreceived := h.grounded.received hs (hawaits.receipt hp hending) hfits
        rw [hbytes] at hreceived
        have hoff : p.isOn .send = false := hawaits.off hp nofun
        have hstate : s.state ≠ .sending := (h.grounded.calm hs).1.not_working hp hoff
        obtain ⟨progress, m', hback, hserved⟩ := sendBack h.grounded h.held hs hstate hreceived hrounds waker
        generalize data.length = n at hrun hback
        cases n with
        | zero => exact .ended (Run.bind_run hrun) hover
        | succ n => exact ⟨progress, m', (Run.bind_run hrun).trans hback, hserved⟩

/-- A receive that was refused ends the echo. -/
theorem endRefused {error : Option Error} (h : Served g i received sent m (.receiving (.refused error)))
    (waker : Waker) : Goes g i received sent waker 0 (Handler.step .echo waker i (.receiving (.refused error))) m := by
  cases h.echoing with
  | refused _ _ hrounds => exact .ended (by cases error <;> rfl) ⟨h.grounded, h.held, .finished hrounds⟩

/-- A send that is awaited goes on, has failed, or is over, and then the next receive is due. -/
theorem awaitSend (h : Served g i received sent m (.sending (.awaiting ⟨i, .send⟩))) (waker : Waker) :
    Goes g i received sent waker 2 (Handler.step .echo waker i (.sending (.awaiting ⟨i, .send⟩))) m := by
  obtain ⟨s, hs, -⟩ := h.grounded.slot_of_held h.held
  obtain ⟨p, hp⟩ := h.phase
  cases h.echoing with
  | sending hawaits hwent hrounds =>
    rcases h.grounded.polled hs hawaits waker with ⟨m', hrun⟩ | ⟨o, hrun, hended⟩
    · exact ⟨_, m', Run.bind_run hrun, h.waits hrun, nofun⟩
    cases o with
    | error e => exact .ended (Run.bind_run hrun) ⟨h.grounded, h.held, .finished hrounds⟩
    | ok n =>
      have hending := hended _ rfl
      obtain ⟨c, hc, houtcome⟩ := hawaits.told _ hending
      cases hwent with
      | due => cases hc
      | failed hnone =>
        cases hc
        exact absurd houtcome (hnone _)
      | went =>
        -- the send has ended, and no receive has begun since it did
        have hdormant : Dormant (m.history i) := by
          intro q hq half
          obtain rfl : p = q := Option.some.inj (hp.symm.trans hq)
          cases half with
          | receive => exact hawaits.off hp nofun
          | send =>
            refine Bool.eq_false_iff.2 fun hon => ?_
            rw [hawaits.unended hp hon] at hending
            cases hending
        have hready : Served g i received sent m .ready := ⟨h.grounded, h.held, .ready hdormant hrounds⟩
        refine ⟨_, m, Run.bind_run hrun, hready, ?_⟩
        rintro _ ⟨⟩
        exact (hready.receive waker).pollEnds

/-- Each step of the echo comes to an answer. -/
theorem step (h : Served g i received sent m stage) (waker : Waker) :
    Goes g i received sent waker 2 (Handler.step .echo waker i stage) m := by
  cases h.echoing with
  | ready => exact (h.receive waker).mono (by decide)
  | refused => exact (h.endRefused waker).mono (by decide)
  | receiving => exact (h.awaitReceive waker).mono (by decide)
  | sending => exact h.awaitSend waker
  | finished => exact ⟨.waits .finished, m, rfl, h, nofun⟩

/-- So do the steps of a poll. -/
theorem steps (h : Served g i received sent m stage) (waker : Waker) (n : Nat) :
    ∃ stage' m', Handler.steps .echo waker i n stage m = .ok stage' m' ∧ Served g i received sent m' stage' := by
  induction n generalizing m stage with
  | zero => exact ⟨stage, m, rfl, h⟩
  | succ n ih =>
    obtain ⟨progress, m', hrun, hserved, -⟩ := h.step waker
    cases progress with
    | waits stage' => exact ⟨stage', m', Run.bind_run hrun, hserved⟩
    | goesOn stage' =>
      by_cases hfinished : stage' = .finished
      · subst hfinished
        exact ⟨.finished, m', Run.bind_run hrun, hserved⟩
      · obtain ⟨stage'', m'', hsteps, hserved'⟩ := ih hserved
        refine ⟨stage'', m'', (Run.bind_run hrun).trans (Eq.trans ?_ hsteps), hserved'⟩
        cases stage' <;> first | rfl | contradiction

/-- A poll comes to an answer. If the echo goes on, its connection is served. -/
theorem poll (h : Served g i received sent m stage) (waker : Waker) :
    ∃ stage' m', Handler.poll .echo waker i stage m = .ok stage' m' ∧
      (stage' ≠ .finished → Served g i received sent m' stage') := by
  obtain ⟨stage', m', hrun, hserved⟩ := h.steps waker Handler.stepsOfPoll
  have htry := Run.tryCatch_run (fun fault => Connection.drop i >>= fun _ => throw fault) hrun
  refine ⟨stage', ?_⟩
  by_cases hfinished : stage' = .finished
  · subst hfinished
    have hdropped := (wild Application.modest_serve).deeds .drop hserved.grounded.moored hserved.held
    obtain ⟨⟨⟩, m'', hdrop, -⟩ := hdropped.comes
    exact ⟨m'', (Run.bind_run htry).trans (Run.bind_run hdrop), absurd rfl⟩
  · refine ⟨m', (Run.bind_run htry).trans ?_, fun _ => hserved⟩
    dsimp only
    rw [if_neg hfinished]
    rfl

end Served

end Echoing

/-! ## Every run of an echo -/

/-- An echo serves the connection of a slot, from when the connection was accepted on. The worker was built from the
configuration, over any kernel that registers its region, and has no more slots than there are numbers of 32 bits. -/
def EchoRun (config : Config) (i : Nat) (x : Echo) : Prop :=
  ∃ cores m₀ before m cues,
    m₀.FreshFrom config cores ∧ m₀.worker.slots.length ≤ 0x100000000 ∧ Traffic.play? m₀ before = some m ∧
      i ∈ m.held ∧ (m.worker.slots[i]?.map (·.state)) = some .accepted ∧ Echo.play? i { machine := m } cues = some x

/-- An echo sends back, exchange by exchange, a first part of what it received. -/
structure Echo.Faithful (sendLength i : Nat) (x : Echo) : Prop where
  /-- `rest` is what arrived last, until the kernel tells how much of it was sent. All that arrived was sent back only
  if the kernel took all of each exchange. -/
  rounds : ∃ whole rest, x.received = whole ++ rest ∧ rest.length ≤ 1 ∧
    List.Forall₂ (fun r s => s <+: r.take sendLength) whole x.sent ∧
      (x.sent.flatten ++ rest.flatten = x.received.flatten ↔ x.sent = whole)
  /-- Of what arrived last, the kernel is asked to send as much as the send half holds. -/
  sends : x.stage ≠ .finished → ∀ ctx fd offset length bufIndex,
    x.machine.Owed (.send ctx fd offset length bufIndex) → ctx.slot = i →
      ∃ data, x.received.getLast? = some data ∧ length = min data.length sendLength ∧
        x.machine.worker.pool.bytesAt offset length = data.take sendLength
  /-- An echo that has not come to its end is never at fault, and a poll has steps enough. -/
  polls : x.stage ≠ .finished → ∀ waker, PollEnds waker i Handler.stepsOfPoll x.stage x.machine ∧
    ∃ stage m', Handler.echo.poll waker i x.stage x.machine = .ok stage m'

/-- An echo in a run. Its connection is served as long as it has not come to its end. -/
structure Echo.Sound (g : Layout) (i : Nat) (x : Echo) : Prop where
  rounds : ∃ last?, Rounds g.sendLength x.received x.sent last?
  served : x.stage ≠ .finished → Served g i x.received x.sent x.machine x.stage

section Echo

variable {g : Layout} {m m' : Machine Application} {x x' : Echo}

theorem Traffic.grounded_of_play {ts : List Traffic} (h : m.Grounded g) (hplay : play? m ts = some m') :
    m'.Grounded g := by
  induction ts generalizing m with
  | nil =>
    cases hplay
    exact h
  | cons t ts ih =>
    obtain ⟨m₁, hnext, hrest⟩ := Option.bind_eq_some_iff.1 hplay
    exact ih ((step_of_next hnext).grounded h) hrest

namespace Echo.Sound

/-- A connection that was just accepted. -/
theorem start {s : Slot} (hm : m.Grounded g) (hheld : i ∈ m.held) (hs : m.worker.slots[i]? = some s)
    (haccepted : s.state = .accepted) : Sound g i { machine := m } := by
  have hrounds : Rounds g.sendLength [] [] none := ⟨[], rfl, .nil⟩
  refine ⟨⟨none, hrounds⟩, fun _ => ⟨hm, hheld, .ready (fun p hp half => ?_) hrounds⟩⟩
  obtain ⟨-, last, hidle, -⟩ := (hm.calm hs).1.of_idle (by rw [haccepted]; rfl)
  obtain rfl : _ = p := Option.some.inj (hidle.symm.trans hp)
  rfl

theorem next {cue : Cue} (h : x.Sound g i) (hnext : x.next? i cue = some x') : x'.Sound g i := by
  unfold next? at hnext
  split at hnext
  case isTrue => cases hnext
  rename_i hgoing
  cases cue with
  | traffic t =>
    dsimp only at hnext
    split at hnext
    case isTrue => cases hnext
    rename_i hcalls
    obtain ⟨m', hstep, rfl⟩ := Option.map_eq_some_iff.1 hnext
    have hserved := (h.served hgoing).traffic hgoing (Bool.eq_false_iff.2 hcalls) (Traffic.step_of_next hstep)
    exact ⟨hserved.echoing.rounds, fun _ => hserved⟩
  | poll waker =>
    obtain ⟨stage, m', hrun, hserved⟩ := (h.served hgoing).poll waker
    dsimp only at hnext
    rw [hrun] at hnext
    cases hnext
    exact ⟨h.rounds, hserved⟩

theorem play {cues : List Cue} (h : x.Sound g i) (hplay : x.play? i cues = some x') : x'.Sound g i := by
  induction cues generalizing x with
  | nil =>
    cases hplay
    exact h
  | cons cue cues ih =>
    obtain ⟨x₁, hnext, hrest⟩ := Option.bind_eq_some_iff.1 hplay
    exact ih (h.next hnext) hrest

theorem faithful (h : x.Sound g i) : x.Faithful g.sendLength i where
  rounds := by
    obtain ⟨last?, whole, hreceived, hall⟩ := h.rounds
    refine ⟨whole, last?.toList, hreceived, ?_, hall, ?_⟩
    · cases last? <;> simp
    · rw [hreceived, List.flatten_append, List.append_left_inj]
      exact (flatten_eq_iff (hall.imp fun _ _ hpart => hpart.trans (List.take_prefix ..))).2
  sends hgoing ctx fd offset length bufIndex howed hslot := by
    subst hslot
    obtain ⟨hm, -, hechoing⟩ := h.served hgoing
    obtain ⟨s, p, -, hp, hon, -, hnone⟩ := hm.owed howed rfl
    obtain ⟨rfl, rfl⟩ := hm.send_owed howed
    obtain ⟨-, data, ⟨whole, hreceived, -⟩, hbytes, -⟩ := hechoing.due_send hgoing hp hnone hon
    refine ⟨data, by rw [hreceived]; exact List.getLast?_concat .., ?_, hbytes⟩
    have hlength := congrArg List.length hbytes
    rwa [Pool.length_bytesAt, List.length_take, Nat.min_comm] at hlength
  polls hgoing waker := by
    have hserved := h.served hgoing
    obtain ⟨stage, m', hrun, -⟩ := hserved.poll waker
    exact ⟨(hserved.step waker).pollEnds.mono (by decide), stage, m', hrun⟩

end Echo.Sound

namespace EchoRun

variable {config : Config}

/-- **What an echo sends back**, whatever the kernel answers and whatever other connections do meanwhile. -/
theorem sends_back (h : EchoRun config i x) : x.Faithful config.sendLength i := by
  obtain ⟨cores, m₀, before, m, cues, hfresh, hsize, hbefore, hheld, haccepted, hplay⟩ := h
  obtain ⟨s, hs, hstate⟩ := Option.map_eq_some_iff.1 haccepted
  have hm := Traffic.grounded_of_play (Machine.Grounded.of_freshFrom hfresh hsize) hbefore
  exact ((Echo.Sound.start hm hheld hs hstate).play hplay).faithful

/-- An echo serves the first connection of a worker that was just built. -/
def of? (config : Config) (before : List Traffic) (cues : List Echo.Cue) : Option Echo :=
  (Machine.built? config 1 { service := .handler .echo }).bind fun m₀ =>
    (Traffic.play? m₀ before).bind fun m =>
      if m₀.worker.slots.length ≤ 0x100000000 ∧ 0 ∈ m.held ∧ (m.worker.slots[0]?.map (·.state)) = some .accepted then
        Echo.play? 0 { machine := m } cues
      else none

theorem of_of? {before : List Traffic} {cues : List Echo.Cue} (h : of? config before cues = some x) :
    EchoRun config 0 x := by
  obtain ⟨m₀, hbuilt, hserved⟩ := Option.bind_eq_some_iff.1 h
  obtain ⟨m, hbefore, hplay⟩ := Option.bind_eq_some_iff.1 hserved
  split at hplay
  case isFalse => cases hplay
  rename_i hready
  exact ⟨1, m₀, before, m, cues, Machine.freshFrom_of_built? hbuilt, hready.1, hbefore, hready.2.1, hready.2.2, hplay⟩

/-- The socket of the first connection is given to the worker, and a turn takes it over. -/
def accepted : List Traffic := [.moved (.assign 5 none), .moved (.turn false)]

/-- An exchange over the first connection: bytes arrive, and of those that the kernel is asked to send it sends some. -/
def exchange (receiveLength : Nat) (data : List UInt8) (asked : Nat) (count : Int32) : List Echo.Cue :=
  [.poll (.task 0), .traffic (.moved (.turn false)),
    .traffic (.deliver (.receive (.ofSlot 0) 5 0 receiveLength 0) data 0), .traffic (.moved (.turn false)),
    .poll (.task 0), .traffic (.moved (.turn false)),
    .traffic (.answer (.send (.ofSlot 0) 5 receiveLength asked 0) count 0), .traffic (.moved (.turn false))]

/-- First more arrives than the send half holds, then the kernel sends less than it was asked to. -/
theorem sends_back_cut : ∃ x, of? { backlog := 1, receiveLength := 3, sendLength := 2, useNagle := true } accepted
      (exchange 3 [97, 98, 99] 2 2 ++ exchange 3 [100, 101] 2 1) = some x ∧
    x.received = [[97, 98, 99], [100, 101]] ∧ x.sent = [[97, 98], [100]] ∧ x.stage ≠ .finished ∧ x.Faithful 2 0 := by
  have hany : (of? { backlog := 1, receiveLength := 3, sendLength := 2, useNagle := true } accepted
      (exchange 3 [97, 98, 99] 2 2 ++ exchange 3 [100, 101] 2 1)).any (fun x =>
        x.received = [[97, 98, 99], [100, 101]] ∧ x.sent = [[97, 98], [100]] ∧ x.stage ≠ .finished) = true := by
    decide +kernel
  obtain ⟨x, hx, hsame⟩ := (Option.any_eq_true ..).1 hany
  obtain ⟨hreceived, hsent, hgoing⟩ := of_decide_eq_true hsame
  exact ⟨x, hx, hreceived, hsent, hgoing, sends_back (of_of? hx)⟩

/-- The kernel sends one byte of three, and the echo goes on to receive: the other two bytes are never sent. -/
theorem tail_lost : ∃ x, of? { backlog := 1, receiveLength := 16, sendLength := 16, useNagle := true } accepted
      (exchange 16 [97, 98, 99] 3 1 ++ [.poll (.task 0)]) = some x ∧
    x.stage = .receiving (.awaiting ⟨0, .receive⟩) ∧
      ∀ rest, rest <:+ x.received → x.sent.flatten ++ rest.flatten ≠ x.received.flatten := by
  have hany : (of? { backlog := 1, receiveLength := 16, sendLength := 16, useNagle := true } accepted
      (exchange 16 [97, 98, 99] 3 1 ++ [.poll (.task 0)])).any (fun x =>
        x.stage = .receiving (.awaiting ⟨0, .receive⟩) ∧ x.received = [[97, 98, 99]] ∧ x.sent = [[97]]) = true := by
    decide +kernel
  obtain ⟨x, hx, hsame⟩ := (Option.any_eq_true ..).1 hany
  obtain ⟨hstage, hreceived, hsent⟩ := of_decide_eq_true hsame
  refine ⟨x, hx, hstage, fun rest hsuffix => ?_⟩
  rw [hreceived] at hsuffix ⊢
  rw [hsent]
  rcases List.suffix_cons_iff.1 hsuffix with rfl | hnil
  · decide
  · obtain rfl := List.suffix_nil.1 hnil
    decide

end EchoRun

end Echo

end SlotServer
