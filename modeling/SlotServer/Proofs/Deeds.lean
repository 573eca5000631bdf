import SlotServer.Handler.Application
import SlotServer.Proofs.Calls

/-!
# What a holder of a connection does

Whoever holds the handle of a connection works on that connection alone, through the calls that the handle has.

- `Deed`: one call of a handle;
- `Deeds`: a row of calls, with things in between that are about no slot;
- `Modest`: a dispatch loop's handlers act on their own connection only (`modest_serve`: those of an application do);
- `Leads.serve`: what every call keeps, the start of a handler keeps.
-/

namespace SlotServer

variable {α β : Type}

/-- A call of a connection's handle. -/
inductive Deed
  /-- Start to receive. -/
  | receive
  /-- Start to send so many bytes. -/
  | send (length : Nat)
  /-- Ask the future of a half's operation for its outcome. -/
  | poll (half : Half) (waker : Waker)
  /-- Look at the bytes that were received. -/
  | readReceived
  /-- Look at the bytes of the send half. -/
  | readSend
  /-- Put bytes into the send half. -/
  | fill (data : Array UInt8)
  /-- Let the handle go. -/
  | drop

/-- A call of the handle of a slot's connection. -/
def Deed.run (i : Nat) : Deed → Run α Unit
  | receive => do
    let _ ← Connection.receive i
    return ()
  | send length => do
    let _ ← Connection.send i length
    return ()
  | poll half waker => do
    let _ ← Connection.pollFuture waker (.awaiting ⟨i, half⟩)
    return ()
  | readReceived => do
    let _ ← Connection.received i
    return ()
  | readSend => do
    let _ ← Connection.sendBuffer i
    return ()
  | fill data => do
    let _ ← Connection.fill i data
    return ()
  | drop => Connection.drop i

/-- A row of calls of the handles of a slot, each while one is alive. -/
inductive Deeds (i : Nat) : Machine α → Machine α → Prop
  | done (m : Machine α) : Deeds i m m
  | deed {m m' m'' : Machine α} (d : Deed) (hheld : i ∈ m.held) (hrun : d.run i m = .ok () m') (rest : Deeds i m' m'') :
    Deeds i m m''
  /-- Something that is about no slot. -/
  | aside {m m'' : Machine α} (kernel : Kernel) (app : α) (events : List Event) (hready : kernel.ready = m.kernel.ready)
    (hevents : ∀ e ∈ events, e.Aside) (rest : Deeds i { m with kernel, app, trace := events ++ m.trace } m'') :
    Deeds i m m''

/-- What came of a machine by a row of calls, the last of which may have been at fault. -/
def Acted (i : Nat) (m : Machine α) : EStateM.Result Fault (Machine α) β → Prop
  | .ok _ m' => Deeds i m m'
  | .error fault m' => ∃ m₁ d, Deeds i m m₁ ∧ i ∈ m₁.held ∧ Deed.run i d m₁ = .error fault m'

/-- What is given a connection acts on that connection only, and is at fault only through one of its calls. -/
def Modest (serve : Run.Serve α) : Prop := ∀ i m, i ∈ m.held → Acted i m (serve i m)

theorem Acted.aside {i : Nat} {m : Machine α} {r : EStateM.Result Fault (Machine α) β} (kernel : Kernel) (app : α)
    (events : List Event) (hready : kernel.ready = m.kernel.ready) (hevents : ∀ e ∈ events, e.Aside)
    (h : Acted i { m with kernel, app, trace := events ++ m.trace } r) : Acted i m r := by
  cases r with
  | ok b m' => exact Deeds.aside kernel app events hready hevents h
  | error fault m' =>
    obtain ⟨m₁, d, hdeeds, hlast⟩ := h
    exact ⟨m₁, d, Deeds.aside kernel app events hready hevents hdeeds, hlast⟩

theorem Acted.drop {i : Nat} {m : Machine α} (hheld : i ∈ m.held) (b : β) :
    Acted i m ((Connection.drop i >>= fun _ => (pure b : Run α β)) m) := by
  show Acted i m (EStateM.bind (Connection.drop i) _ m)
  unfold EStateM.bind
  cases hrun : Connection.drop i m with
  | ok u m' => exact .deed .drop hheld hrun (.done _)
  | error fault m' => exact ⟨m, .drop, .done m, hheld, hrun⟩

/-- Things that are about no slot leave every view as it is. -/
theorem Machine.view_aside (m : Machine α) (pending : List Completion) (j : Nat) {kernel : Kernel} (app : α)
    {events : List Event} (hready : kernel.ready = m.kernel.ready) (hevents : ∀ e ∈ events, e.Aside) :
    ({ m with kernel, app, trace := events ++ m.trace } : Machine α).view pending j = m.view pending j := by
  have hnone : events.filter (·.concerns j) = [] :=
    List.filter_eq_nil_iff.2 fun e he h => Bool.false_ne_true ((hevents e he j).symm.trans h)
  simp [view, history, hready, hnone]

section Keeping

variable {R : Rely} {i : Nat} {P : View → Prop}

/-- What every call keeps, a row of calls keeps. The other slots show what they showed. -/
theorem Deeds.keeps (hdeed : ∀ d v, P v → 0 < v.handles → Leads R i (Deed.run i d : Run α Unit) v fun _ => P)
    {m m' : Machine α} (h : Deeds i m m') (pending : List Completion)
    (hothers : ∀ j, j ≠ i → R.others j (m.view pending j)) (hp : P (m.view pending i)) :
    P (m'.view pending i) ∧ ∀ j, j ≠ i → m'.view pending j = m.view pending j := by
  induction h with
  | done m => exact ⟨hp, fun _ _ => rfl⟩
  | deed d hheld hrun rest ih =>
    have hone := hdeed d _ hp (List.count_pos_iff.2 hheld) _ pending hothers rfl
    rw [hrun] at hone
    obtain ⟨hp', hframe⟩ := hone
    obtain ⟨hp'', hframe'⟩ := ih (fun j hj => by rw [hframe j hj]; exact hothers j hj) hp'
    exact ⟨hp'', fun j hj => (hframe' j hj).trans (hframe j hj)⟩
  | aside kernel app events hready hevents rest ih =>
    have hview := fun j => Machine.view_aside _ pending j app hready hevents
    obtain ⟨hp', hframe⟩ := ih (fun j hj => by rw [hview]; exact hothers j hj) (by rw [hview]; exact hp)
    exact ⟨hp', fun j hj => (hframe j hj).trans (hview j)⟩

/-- What every call keeps, the start of a handler keeps. -/
theorem Leads.serve {serve : Run.Serve α} (hserve : Modest serve) {v : View}
    (hdeed : ∀ d v, P v → 0 < v.handles → Leads R i (Deed.run i d : Run α Unit) v fun _ => P)
    (hp : P v) (hhandles : 0 < v.handles) {Q : Except Error Unit → View → Prop} (h : ∀ b v', P v' → Q b v') :
    Leads R i (serve i) v Q := by
  rintro m pending hothers rfl
  have hmodest := hserve i m (List.count_pos_iff.1 hhandles)
  cases hrun : serve i m with
  | ok b m' =>
    rw [hrun] at hmodest
    obtain ⟨hp', hframe⟩ := Deeds.keeps hdeed hmodest pending hothers hp
    exact ⟨h b _ hp', hframe⟩
  | error fault m' =>
    rw [hrun] at hmodest
    obtain ⟨m₁, d, hdeeds, hheld, hfault⟩ := hmodest
    obtain ⟨hp', hframe⟩ := Deeds.keeps hdeed hdeeds pending hothers hp
    have hlast := hdeed d _ hp' (List.count_pos_iff.2 hheld) m₁ pending
      (fun j hj => by rw [hframe j hj]; exact hothers j hj) rfl
    rw [hfault] at hlast
    exact hlast

end Keeping

/-- The dispatch loop takes a new socket over and gives it to the application. -/
def Run.takeOver (serve : Serve α) (i : Nat) (peer : Option Net.SocketAddress) : Run α Unit := do
  match ← stepSlot i Slot.finishAccept with
  | .error e => violation i e
  | .ok _ =>
    bump .accepts 1
    say .trace s!"slot {i} accepted from {peerText peer}"
    Connection.attach i
    record (.served i)
    if let .error e ← serve i then
      say .warn s!"handler spawn failed for slot {i}: {e.message}"
      bump .errors 1

namespace Application

/-- Start a task for a connection. One that is not started drops the handle, unless the application has kept it. -/
def spawn (service : Service) (i : Nat) : Act (Except Error Unit) := do
  match ← Run.kernel (·.ask .spawn) with
  | .ok _ =>
    Run.record .started
    Run.modifyApp fun r => { r with tasks := r.tasks ++ [{ slot := i }] }
    return .ok ()
  | .error e =>
    if service ≠ .keep then Connection.drop i
    return .error e

theorem serve_eq (i : Nat) : serve i = (do
    let service := (← get).app.service
    if service = .keep then keep i
    spawn service i) := rfl

/-- An application keeps a connection, starts a task for it, or lets its handle go. -/
theorem modest_serve : Modest serve := by
  intro i m hheld
  -- whether or not the application has kept the connection
  have hspawn : ∀ app, Acted i m (spawn m.app.service i { m with app }) := by
    intro app
    unfold spawn
    show Acted i m (EStateM.bind (Run.kernel _) _ { m with app })
    unfold EStateM.bind
    have hkernel : (Run.kernel (·.ask .spawn) : Act (Except Error Unit)) { m with app } =
      .ok (m.kernel.ask .spawn).1 { m with kernel := (m.kernel.ask .spawn).2, app } := rfl
    rw [hkernel]
    dsimp only
    cases (m.kernel.ask .spawn).1 with
    | ok _ =>
      exact .aside (m.kernel.ask .spawn).2 { app with tasks := app.tasks ++ [{ slot := i }] } [.started] rfl
        (by simp [Event.Aside, Event.concerns]) (Deeds.done _)
    | error e =>
      refine .aside (m.kernel.ask .spawn).2 app [] rfl (fun _ he => by cases he) ?_
      dsimp only
      split
      · exact Acted.drop (m := { m with kernel := (m.kernel.ask .spawn).2, app }) hheld _
      · exact Deeds.done _
  rw [serve_eq]
  show Acted i m ((if m.app.service = .keep then _ else _ : Act (Except Error Unit)) m)
  by_cases hkeep : m.app.service = .keep
  · rw [if_pos hkeep]
    exact hspawn { m.app with handles := m.app.handles ++ [{ slot := i }] }
  · rw [if_neg hkeep]
    exact hspawn m.app

end Application

end SlotServer
