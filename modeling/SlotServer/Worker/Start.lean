import SlotServer.Ring.Queues
import SlotServer.Worker.Machine

/-!
# Starting a worker

A worker that is on its own has a ring, whose memory is kept by the kernel, and a region registered with it.

- `Worker.start`: the ring, then the worker over it.
-/

namespace SlotServer

/-- A worker that was started, its kernel, and the machine's memory after it. -/
structure Started where
  worker : Worker
  kernel : Kernel
  trace : List Event
  memory : Memory

namespace Worker

/-- The kernel behind a ring, on a machine of such memory: the one region of the configuration is registered if there is
room for it. -/
def kernelOf (config : Config) (cores : Nat) (ring : Ring) (memory : Memory) : Kernel × Memory :=
  let kernel : Kernel := { capacity := ring.capacity, answersCloses := true, memory }
  match memory.lockRegion ((config.receiveLength + config.sendLength) * config.slotsPerWorker cores) with
  | .ok memory => (kernel, memory)
  | .error e => (kernel.failNext .register (.bufferRegister e) 1 0, memory)

/-- A worker on a ring of its own. -/
def start (id : Nat) (config : Config) (cores : Nat) (memory : Memory) : Except Fault (Except Error Started) :=
  match Ring.setup config.ringEntries none with
  | .error fault => .error fault
  | .ok (.error e) => .ok (.error e)
  | .ok (.ok ring) =>
    match ring.lock memory with
    | .error e => .ok (.error (.ringSetup e))
    | .ok memory =>
      let (kernel, memory) := kernelOf config cores ring memory
      match build id config cores kernel with
      | (.error fault, _) => .error fault
      | (.ok (.error e), _) => .ok (.error e)
      | (.ok (.ok worker), kernel, trace) => .ok (.ok { worker, kernel, trace, memory })

end Worker

end SlotServer
