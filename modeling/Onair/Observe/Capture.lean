import Onair.Lib.Checked
import Onair.Lib.Guarded

/-!
# The capture of a stream

What is recorded of a stream goes through a bounded channel to a writer, which writes a line for
each event. `finish` tells the writer to stop, waits until it has, and returns what it has counted.

* `Capture`, `Capture.step`: handles, channel, writer and owner, and each thing that one of them can
  do next; the threads take steps in any order;
* `CaptureInv`, `captureInv_step`: every event is written, counted as dropped, on its way, or gone;
* `CompleteOrTold`: the file has all that was recorded or `truncated` is set, and the numbers add
  up;
* `completeOrTold_iff`: so it is exactly where as many events are gone uncounted as came in after
  `finish` was called;
* **`capture_complete`**: so it is in every run in which nothing comes in after `finish` was called
  and the channel is empty when the writer stops.
-/

namespace Onair

/-! ### Events and timings -/

/-- One event of a stream. -/
inductive StreamEvent where
  | header (name value : String)
  | bodyChunk (bytes : ℕ) (data : String)
  | sse (event : Option String) (data : String)
  | usage (promptTokens completionTokens totalTokens : UInt64)
  | done
  | error (message : String) (code : Option String) (status : Option UInt16)
  deriving DecidableEq, Repr

/-- The summary of a capture. -/
structure StreamTimings where
  side : String
  startedAtUnixUs : ℕ
  firstEventAtUnixUs : Option ℕ := none
  completedAtUnixUs : Option ℕ := none
  totalDurationUs : ℕ := 0
  eventCount : ℕ := 0
  droppedEvents : UInt64 := 0
  truncated : Bool := false
  deriving DecidableEq, Repr

/-- How many events the channel has room for. -/
def channelCapacity : ℕ := 256

/-- What is in the file: the line of an event, or a piece of one that could not be written. -/
inductive FileEntry where
  | line (tsUs : ℕ) (event : StreamEvent)
  | torn
  deriving DecidableEq, Repr

/-- The event of a line. -/
def FileEntry.event : FileEntry → Option StreamEvent
  | line _ event => some event
  | torn => none

/-! ### The parties -/

/-- The state of the writer's loop. -/
inductive LoopState where
  | running
  | draining
  deriving DecidableEq, Repr

/-- Where the writer is. -/
inductive WriterPhase where
  /-- The file is to be opened. -/
  | opening
  /-- At the top of the loop. -/
  | top (state : LoopState)
  /-- In `recv_timeout`, not told to stop when it last looked. -/
  | waiting
  /-- With an event that it received. -/
  | writing (state : LoopState) (tsUs : ℕ) (event : StreamEvent)
  /-- Past the loop. -/
  | closing
  /-- Done with the summary; the receiver is still there. -/
  | closed
  /-- The file could not be opened, and all that comes is thrown away. -/
  | discarding
  /-- Gone, and with it the receiver. -/
  | exited
  deriving DecidableEq, Repr

/-- What became of the owner of the capture. -/
inductive CaptureOwner where
  | held
  | finishing
  | finished
  | dropped
  deriving DecidableEq, Repr

/-- A capture with its handles, its channel and its writer. -/
structure Capture where
  owner : CaptureOwner := .held
  handles : ℕ := 0
  shutdown : Bool := false
  queue : List StreamEvent := []
  /-- The events of senders that found the channel full and have not counted them yet. -/
  refused : List StreamEvent := []
  phase : WriterPhase := .opening
  file : List FileEntry := []
  drained : ℕ := 0
  lost : ℕ := 0
  timings : StreamTimings
  -- the rest is read by no one: what was recorded before `finish` was called and after, what is
  -- gone with neither a line nor a count, and how often the count could not grow
  recorded : List StreamEvent := []
  late : List StreamEvent := []
  gone : List StreamEvent := []
  uncounted : ℕ := 0
  deriving DecidableEq, Repr

/-- A new capture. -/
def Capture.new (side : String) (startedAtUnixUs : ℕ) : Capture where
  timings := { side, startedAtUnixUs }

/-! ### What can happen -/

/-- What one of the threads can do next. -/
inductive CaptureAction where
  | handle
  | dropHandle
  | send (event : StreamEvent)
  | countRefused (event : StreamEvent)
  | openFile (ok : Bool)
  | check
  | receive (tsUs : ℕ)
  | timeout
  | expire
  | disconnect
  | write
  | failWrite (torn : Bool)
  | discard
  | summarise (nowUs : ℕ)
  | exit
  | finish
  | drop
  | join
  deriving DecidableEq, Repr

namespace Capture

/-- An event is recorded, before `finish` is called or after. -/
def note (s : Capture) (event : StreamEvent) : Capture :=
  { s with
    recorded := s.recorded ++ if s.owner = .held then [event] else []
    late := s.late ++ if s.owner = .held then [] else [event] }

/-- One more dropped event is counted. -/
def countDropped (s : Capture) : Capture :=
  { s with
    timings := { s.timings with
      droppedEvents := saturatingSucc s.timings.droppedEvents
      truncated := true }
    uncounted := s.uncounted + if Addition.Fits (s.timings.droppedEvents, 1) then 0 else 1 }

/-- `try_send`: the channel takes the event, is full, or has no receiver any more. -/
def send (s : Capture) (event : StreamEvent) : Capture :=
  if s.phase = .exited then { s.note event with gone := s.gone ++ [event] }
  else if s.queue.length < channelCapacity then
    { s.note event with queue := s.queue ++ [event] }
  else { s with refused := s.refused ++ [event] }

/-- The writer gets an event. -/
def take (s : Capture) (state : LoopState) (tsUs : ℕ) (event : StreamEvent)
    (queue : List StreamEvent) : Capture :=
  { s with
    phase := .writing state tsUs event
    queue := queue
    timings := { s.timings with
      firstEventAtUnixUs := s.timings.firstEventAtUnixUs.or (some tsUs) } }

/-- No sender is left, and nothing in the channel. -/
def Disconnected (s : Capture) : Prop :=
  (s.owner = .finished ∨ s.owner = .dropped) ∧ s.handles = 0 ∧ s.queue = []

instance (s : Capture) : Decidable s.Disconnected := inferInstanceAs (Decidable (_ ∧ _ ∧ _))

/-- What the writer counted goes into the timings. -/
def summarised (s : Capture) (nowUs : ℕ) : Capture :=
  { s with
    phase := .closed
    timings := { s.timings with
      completedAtUnixUs := some nowUs
      totalDurationUs := nowUs - s.timings.startedAtUnixUs
      eventCount := s.drained
      truncated := s.timings.truncated || decide (0 < s.lost) } }

/-- The step of a thread, if it can take it. -/
def step (s : Capture) : CaptureAction → Option Capture
  | .handle =>
    if s.owner = .held ∨ 0 < s.handles then some { s with handles := s.handles + 1 } else none
  | .dropHandle => if 0 < s.handles then some { s with handles := s.handles - 1 } else none
  | .send event => if 0 < s.handles then some (s.send event) else none
  | .countRefused event =>
    if event ∈ s.refused then
      some { (s.note event).countDropped with refused := s.refused.erase event }
    else none
  | .openFile ok =>
    if s.phase = .opening then
      some { s with phase := if ok then .top .running else .discarding }
    else none
  | .check =>
    if s.phase = .top .running then
      some { s with phase := if s.shutdown then .top .draining else .waiting }
    else none
  | .receive tsUs =>
    match s.phase, s.queue with
    | .waiting, event :: queue => some (s.take .running tsUs event queue)
    | .top .draining, event :: queue => some (s.take .draining tsUs event queue)
    | _, _ => none
  | .timeout =>
    if s.phase = .waiting ∧ s.queue = [] then some { s with phase := .top .running } else none
  | .expire => if s.phase = .top .draining then some { s with phase := .closing } else none
  | .disconnect =>
    if s.Disconnected then
      match s.phase with
      | .waiting => some { s with phase := .closing }
      | .top .draining => some { s with phase := .closing }
      | .discarding => some { s with phase := .exited }
      | _ => none
    else none
  | .write =>
    match s.phase with
    | .writing state tsUs event =>
      some { s with
        phase := .top state
        file := s.file ++ [.line tsUs event]
        drained := s.drained + 1 }
    | _ => none
  | .failWrite torn =>
    match s.phase with
    | .writing state _ _ =>
      some { s.countDropped with
        phase := .top state
        file := s.file ++ if torn then [.torn] else []
        lost := s.lost + 1 }
    | _ => none
  | .discard =>
    match s.phase, s.queue with
    | .discarding, event :: queue => some { s with queue := queue, gone := s.gone ++ [event] }
    | _, _ => none
  | .summarise nowUs => if s.phase = .closing then some (s.summarised nowUs) else none
  | .exit =>
    if s.phase = .closed then
      some { s with phase := .exited, queue := [], gone := s.gone ++ s.queue }
    else none
  | .finish =>
    if s.owner = .held then some { s with owner := .finishing, shutdown := true } else none
  | .drop => if s.owner = .held then some { s with owner := .dropped, shutdown := true } else none
  | .join =>
    if s.owner = .finishing ∧ s.phase = .exited then some { s with owner := .finished } else none

end Capture

/-! ### Every event is accounted for -/

/-- The event in the writer's hand. -/
def WriterPhase.hand : WriterPhase → List StreamEvent
  | writing _ _ event => [event]
  | _ => []

/-- The writer has seen that it is to stop, or that no one is left. -/
def WriterPhase.stopping : WriterPhase → Bool
  | top .draining => true
  | writing .draining _ _ => true
  | closing => true
  | closed => true
  | exited => true
  | _ => false

/-- The timings have the writer's count. -/
def WriterPhase.settled : WriterPhase → Bool
  | opening => true
  | discarding => true
  | closed => true
  | exited => true
  | _ => false

/-- The events that were recorded, before `finish` was called and after. -/
def Capture.sent (s : Capture) : List StreamEvent := s.recorded ++ s.late

/-- The events that are on their way, or gone. -/
def Capture.pending (s : Capture) : List StreamEvent := s.phase.hand ++ s.gone ++ s.queue

/-- Every event that was recorded is written, dropped, on its way or gone. As long as nothing is
dropped, the lines are of the first events, and the rest is on its way. -/
structure CaptureLedger (sent pending : List StreamEvent) (file : List FileEntry)
    (drained dropped uncounted : ℕ) (truncated : Bool) : Prop where
  account : sent.length = drained + (dropped + uncounted) + pending.length
  order : truncated = false → file.map FileEntry.event ++ pending.map some = sent.map some
  counted : truncated = false → uncounted = 0

namespace CaptureLedger

variable {sent pending : List StreamEvent} {file : List FileEntry}
  {drained dropped uncounted : ℕ} {truncated : Bool}
  (ledger : CaptureLedger sent pending file drained dropped uncounted truncated)

include ledger

theorem push (event : StreamEvent) : CaptureLedger (sent ++ [event]) (pending ++ [event]) file
    drained dropped uncounted truncated where
  account := by
    have := ledger.account
    simp only [List.length_append, List.length_singleton]
    omega
  order := fun ht => by rw [List.map_append, List.map_append, ← List.append_assoc, ledger.order ht]
  counted := ledger.counted

theorem written {event : StreamEvent} {rest : List StreamEvent} (h : pending = event :: rest)
    (tsUs : ℕ) : CaptureLedger sent rest (file ++ [.line tsUs event]) (drained + 1) dropped
      uncounted truncated where
  account := by
    have := ledger.account
    rw [h, List.length_cons] at this
    omega
  order := fun ht => by
    rw [← ledger.order ht, h, List.map_append, List.append_assoc]
    rfl
  counted := ledger.counted

theorem lost {event : StreamEvent} {rest : List StreamEvent} (h : pending = event :: rest)
    {dropped' uncounted' : ℕ} (hcount : dropped' + uncounted' = dropped + uncounted + 1)
    (file' : List FileEntry) :
    CaptureLedger sent rest file' drained dropped' uncounted' true where
  account := by
    have := ledger.account
    rw [h, List.length_cons] at this
    omega
  order := fun ht => by cases ht
  counted := fun ht => by cases ht

theorem refused (event : StreamEvent) {dropped' uncounted' : ℕ}
    (hcount : dropped' + uncounted' = dropped + uncounted + 1) :
    CaptureLedger (sent ++ [event]) pending file drained dropped' uncounted' true where
  account := by
    have := ledger.account
    rw [List.length_append, List.length_singleton]
    omega
  order := fun ht => by cases ht
  counted := fun ht => by cases ht

/-- That a capture is truncated may be said without need. -/
theorem told {truncated' : Bool} (h : truncated' = false → truncated = false) :
    CaptureLedger sent pending file drained dropped uncounted truncated' where
  account := ledger.account
  order := fun ht => ledger.order (h ht)
  counted := fun ht => ledger.counted (h ht)

end CaptureLedger

/-- What holds of a capture at any time. -/
structure CaptureInv (s : Capture) : Prop where
  ledger : CaptureLedger s.sent s.pending s.file s.drained s.timings.droppedEvents.toNat s.uncounted
    s.timings.truncated
  late : s.owner = .held → s.late = []
  gone : s.phase ≠ .exited → s.phase ≠ .discarding → s.gone = []
  queue : s.phase = .exited → s.queue = []
  count : s.phase.settled = true → s.timings.eventCount = s.drained
  shutdown : s.shutdown = true → s.owner ≠ .held
  stopping : s.phase.stopping = true → s.owner ≠ .held

theorem captureInv_new (side : String) (startedAtUnixUs : ℕ) :
    CaptureInv (Capture.new side startedAtUnixUs) where
  ledger := ⟨rfl, fun _ => rfl, fun _ => rfl⟩
  late := fun _ => rfl
  gone := fun _ _ => rfl
  queue := fun _ => rfl
  count := fun _ => rfl
  shutdown := fun h => by cases h
  stopping := fun h => by cases h

theorem Capture.count_countDropped (s : Capture) :
    s.countDropped.timings.droppedEvents.toNat + s.countDropped.uncounted =
      s.timings.droppedEvents.toNat + s.uncounted + 1 := by
  have hcount := toNat_saturatingSucc s.timings.droppedEvents
  rw [Capture.countDropped]
  dsimp only
  omega

namespace CaptureInv

variable {s : Capture} (inv : CaptureInv s)

include inv

theorem sent_note (event : StreamEvent) : (s.note event).sent = s.sent ++ [event] := by
  unfold Capture.sent Capture.note
  by_cases h : s.owner = .held
  · simp [h, inv.late h]
  · simp [h]

theorem late_note (event : StreamEvent) : s.owner = .held → (s.note event).late = [] := by
  intro h
  simp [Capture.note, h, inv.late h]

theorem moved {phase : WriterPhase} (hand : phase.hand = s.phase.hand)
    (gone : phase ≠ .exited → phase ≠ .discarding → s.gone = [])
    (queue : phase = .exited → s.queue = [])
    (count : phase.settled = true → s.timings.eventCount = s.drained)
    (stopping : phase.stopping = true → s.owner ≠ .held) :
    CaptureInv { s with phase := phase } :=
  have hpending : Capture.pending { s with phase := phase } = s.pending :=
    congrArg (· ++ s.gone ++ s.queue) hand
  { ledger := hpending.symm ▸ inv.ledger
    late := inv.late
    gone
    queue
    count
    shutdown := inv.shutdown
    stopping }

/-- A sender finds the receiver gone, room in the channel, or none. -/
theorem send (event : StreamEvent) : CaptureInv (s.send event) := by
  unfold Capture.send
  split_ifs with hexited hroom
  · have hpending : s.phase.hand ++ (s.gone ++ [event]) ++ s.queue = s.pending ++ [event] := by
      rw [Capture.pending, inv.queue hexited]
      simp
    have hledger := inv.ledger.push event
    rw [← inv.sent_note, ← hpending] at hledger
    exact
      { ledger := hledger
        late := inv.late_note event
        gone := fun h => absurd hexited h
        queue := inv.queue
        count := inv.count
        shutdown := inv.shutdown
        stopping := inv.stopping }
  · have hledger := inv.ledger.push event
    rw [← inv.sent_note, Capture.pending, List.append_assoc] at hledger
    exact
      { ledger := hledger
        late := inv.late_note event
        gone := inv.gone
        queue := fun h => absurd h hexited
        count := inv.count
        shutdown := inv.shutdown
        stopping := inv.stopping }
  · exact { inv with }

theorem countRefused (event : StreamEvent) (refused : List StreamEvent) :
    CaptureInv { (s.note event).countDropped with refused := refused } := by
  have hledger := inv.ledger.refused event s.count_countDropped
  rw [← inv.sent_note] at hledger
  exact
    { ledger := hledger
      late := inv.late_note event
      gone := inv.gone
      queue := inv.queue
      count := inv.count
      shutdown := inv.shutdown
      stopping := inv.stopping }

theorem take {state : LoopState} {event : StreamEvent} {queue : List StreamEvent}
    (hand : s.phase.hand = []) (gone : s.gone = []) (hq : s.queue = event :: queue)
    (stopping : state = .draining → s.owner ≠ .held) (tsUs : ℕ) :
    CaptureInv (s.take state tsUs event queue) := by
  have hpending : (s.take state tsUs event queue).pending = s.pending := by
    rw [Capture.pending, Capture.pending, hand, hq, gone, Capture.take]
    simp [WriterPhase.hand, gone]
  exact
    { ledger := hpending.symm ▸ inv.ledger
      late := inv.late
      gone := fun _ _ => gone
      queue := fun h => by cases h
      count := fun h => by cases h
      shutdown := inv.shutdown
      stopping := fun h => by
        cases state with
        | running => cases h
        | draining => exact stopping rfl }

section Writing

variable {state : LoopState} {tsUs : ℕ} {event : StreamEvent}
  (hp : s.phase = .writing state tsUs event)

include hp

theorem gone_of_writing : s.gone = [] := inv.gone (by simp [hp]) (by simp [hp])

theorem pending_of_writing : s.pending = event :: s.queue := by
  rw [Capture.pending, inv.gone_of_writing hp, hp]
  rfl

theorem owner_of_writing : (WriterPhase.top state).stopping = true → s.owner ≠ .held := by
  intro h
  refine inv.stopping ?_
  cases state with
  | running => cases h
  | draining => rw [hp, WriterPhase.stopping]

theorem queue_of_writing : s.queue = (WriterPhase.top state).hand ++ s.gone ++ s.queue := by
  rw [inv.gone_of_writing hp]
  rfl

theorem write : CaptureInv { s with
    phase := .top state
    file := s.file ++ [.line tsUs event]
    drained := s.drained + 1 } := by
  have hledger := inv.ledger.written (inv.pending_of_writing hp) tsUs
  rw [inv.queue_of_writing hp] at hledger
  exact
    { ledger := hledger
      late := inv.late
      gone := fun _ _ => inv.gone_of_writing hp
      queue := fun h => by cases h
      count := fun h => by cases h
      shutdown := inv.shutdown
      stopping := inv.owner_of_writing hp }

theorem failWrite (file : List FileEntry) : CaptureInv { s.countDropped with
    phase := .top state
    file := file
    lost := s.lost + 1 } := by
  have hledger := inv.ledger.lost (inv.pending_of_writing hp) s.count_countDropped file
  rw [inv.queue_of_writing hp] at hledger
  exact
    { ledger := hledger
      late := inv.late
      gone := fun _ _ => inv.gone_of_writing hp
      queue := fun h => by cases h
      count := fun h => by cases h
      shutdown := inv.shutdown
      stopping := inv.owner_of_writing hp }

end Writing

theorem discard {event : StreamEvent} {queue : List StreamEvent} (hp : s.phase = .discarding)
    (hq : s.queue = event :: queue) :
    CaptureInv { s with queue := queue, gone := s.gone ++ [event] } := by
  have hpending : s.phase.hand ++ (s.gone ++ [event]) ++ queue = s.pending := by
    rw [Capture.pending, hq]
    simp
  have hledger := inv.ledger
  rw [← hpending] at hledger
  exact
    { inv with
      ledger := hledger
      gone := fun _ h => absurd hp h
      queue := fun h => by rw [hp] at h; cases h }

theorem exit (hp : s.phase = .closed) :
    CaptureInv { s with phase := .exited, queue := [], gone := s.gone ++ s.queue } := by
  have hpending : s.phase.hand ++ (s.gone ++ s.queue) ++ [] = s.pending := by
    rw [Capture.pending, List.append_nil, List.append_assoc]
  have hledger := inv.ledger
  rw [← hpending, hp] at hledger
  exact
    { ledger := hledger
      late := inv.late
      gone := fun h => absurd rfl h
      queue := fun _ => rfl
      count := fun _ => inv.count (by rw [hp, WriterPhase.settled])
      shutdown := inv.shutdown
      stopping := fun _ => inv.stopping (by rw [hp, WriterPhase.stopping]) }

theorem summarised (hp : s.phase = .closing) (nowUs : ℕ) : CaptureInv (s.summarised nowUs) := by
  have htold : (s.timings.truncated || decide (0 < s.lost)) = false → s.timings.truncated = false :=
    fun h => (Bool.or_eq_false_iff.mp h).1
  have hledger := inv.ledger.told htold
  have hpending : s.pending = (s.summarised nowUs).pending := by
    rw [Capture.pending, hp]
    rfl
  rw [hpending] at hledger
  exact
    { ledger := hledger
      late := inv.late
      gone := fun _ _ => inv.gone (by simp [hp]) (by simp [hp])
      queue := fun h => by cases h
      count := fun _ => rfl
      shutdown := inv.shutdown
      stopping := fun _ => inv.stopping (by rw [hp, WriterPhase.stopping]) }

theorem owned {owner : CaptureOwner} (ho : owner ≠ .held) (shutdown : Bool) :
    CaptureInv { s with owner := owner, shutdown := shutdown } where
  ledger := inv.ledger
  late := fun h => absurd h ho
  gone := inv.gone
  queue := inv.queue
  count := inv.count
  shutdown := fun _ => ho
  stopping := fun _ => ho

theorem closing (hp : s.phase = .waiting ∨ s.phase = .top .draining)
    (ho : s.owner ≠ .held) : CaptureInv { s with phase := .closing } := by
  refine inv.moved ?_ (fun _ _ => inv.gone ?_ ?_) (fun h => by cases h) (fun h => by cases h)
    fun _ => ho
  all_goals rcases hp with hp | hp <;> simp [hp, WriterPhase.hand]

end CaptureInv

/-- **Every step keeps the books**, whichever thread takes it. -/
theorem captureInv_step {s s' : Capture} (inv : CaptureInv s) {a : CaptureAction}
    (h : s.step a = some s') : CaptureInv s' := by
  cases a with
  | handle =>
    obtain ⟨-, rfl⟩ := Guarded.of_guard h
    exact { inv with }
  | dropHandle =>
    obtain ⟨-, rfl⟩ := Guarded.of_guard h
    exact { inv with }
  | send event =>
    obtain ⟨-, rfl⟩ := Guarded.of_guard h
    exact inv.send event
  | countRefused event =>
    obtain ⟨-, rfl⟩ := Guarded.of_guard h
    exact inv.countRefused event _
  | openFile ok =>
    obtain ⟨hp, rfl⟩ := Guarded.of_guard h
    have hgone := inv.gone (by simp [hp]) (by simp [hp])
    have hcount := inv.count (by rw [hp, WriterPhase.settled])
    refine inv.moved ?_ (fun _ _ => hgone) ?_ (fun _ => hcount) ?_
    all_goals cases ok <;> simp [hp, WriterPhase.hand, WriterPhase.stopping]
  | check =>
    obtain ⟨hp, rfl⟩ := Guarded.of_guard h
    have hgone := inv.gone (by simp [hp]) (by simp [hp])
    have hheld := inv.shutdown
    refine inv.moved ?_ (fun _ _ => hgone) ?_ ?_ ?_
    all_goals cases hs : s.shutdown
    all_goals simp_all [WriterPhase.hand, WriterPhase.stopping, WriterPhase.settled]
  | receive tsUs =>
    simp only [Capture.step] at h
    split at h
    · next hp hq =>
      obtain rfl := Option.some.inj h
      exact inv.take (by rw [hp]; rfl) (inv.gone (by simp [hp]) (by simp [hp])) hq
        (fun h => by cases h) tsUs
    · next hp hq =>
      obtain rfl := Option.some.inj h
      exact inv.take (by rw [hp]; rfl) (inv.gone (by simp [hp]) (by simp [hp])) hq
        (fun _ => inv.stopping (by rw [hp, WriterPhase.stopping])) tsUs
    · cases h
  | timeout =>
    obtain ⟨⟨hp, -⟩, rfl⟩ := Guarded.of_guard h
    exact inv.moved (by rw [hp]; rfl) (fun _ _ => inv.gone (by simp [hp]) (by simp [hp]))
      (fun h => by cases h) (fun h => by cases h) fun h => by cases h
  | expire =>
    obtain ⟨hp, rfl⟩ := Guarded.of_guard h
    exact inv.closing (Or.inr hp) (inv.stopping (by rw [hp, WriterPhase.stopping]))
  | disconnect =>
    obtain ⟨hd, h⟩ := Option.ite_none_right_eq_some.mp h
    have ho : s.owner ≠ .held := by
      rcases hd.1 with ho | ho <;> simp [ho]
    split at h
    · next hp =>
      obtain rfl := Option.some.inj h
      exact inv.closing (Or.inl hp) ho
    · next hp =>
      obtain rfl := Option.some.inj h
      exact inv.closing (Or.inr hp) ho
    · next hp =>
      obtain rfl := Option.some.inj h
      exact inv.moved (by rw [hp]; rfl) (fun h => absurd rfl h) (fun _ => hd.2.2)
        (fun _ => inv.count (by rw [hp, WriterPhase.settled])) fun _ => ho
    · cases h
  | write =>
    simp only [Capture.step] at h
    split at h
    · next hp =>
      obtain rfl := Option.some.inj h
      exact inv.write hp
    · cases h
  | failWrite torn =>
    simp only [Capture.step] at h
    split at h
    · next hp =>
      obtain rfl := Option.some.inj h
      exact inv.failWrite hp _
    · cases h
  | discard =>
    simp only [Capture.step] at h
    split at h
    · next hp hq =>
      obtain rfl := Option.some.inj h
      exact inv.discard hp hq
    · cases h
  | summarise nowUs =>
    obtain ⟨hp, rfl⟩ := Guarded.of_guard h
    exact inv.summarised hp nowUs
  | exit =>
    obtain ⟨hp, rfl⟩ := Guarded.of_guard h
    exact inv.exit hp
  | finish =>
    obtain ⟨-, rfl⟩ := Guarded.of_guard h
    exact inv.owned (by simp) true
  | drop =>
    obtain ⟨-, rfl⟩ := Guarded.of_guard h
    exact inv.owned (by simp) true
  | join =>
    obtain ⟨-, rfl⟩ := Guarded.of_guard h
    exact inv.owned (by simp) s.shutdown

/-! ### What `finish` returns -/

/-- `finish` has joined the writer: what it returns are the timings. -/
def Capture.Returns (s : Capture) : Prop := s.owner = .finishing ∧ s.phase = .exited

/-- The file has the events that were recorded, in their order, unless `truncated` is set, and their
number is that of the events that are written or counted as dropped. -/
def CompleteOrTold (s : Capture) : Prop :=
  (s.timings.truncated = false → s.file.map FileEntry.event = s.recorded.map some) ∧
    s.recorded.length = s.timings.eventCount + s.timings.droppedEvents.toNat

/-- **What is returned is right** exactly where as many events are gone uncounted as came in after
`finish` was called. -/
theorem completeOrTold_iff {s : Capture} (inv : CaptureInv s) (h : s.Returns) :
    CompleteOrTold s ↔ s.gone.length + s.uncounted = s.late.length := by
  have hpending : s.pending = s.gone := by
    rw [Capture.pending, h.2, inv.queue h.2]
    simp [WriterPhase.hand]
  have hcount := inv.count (by rw [h.2, WriterPhase.settled])
  have hledger := inv.ledger
  rw [hpending, Capture.sent] at hledger
  have haccount := hledger.account
  rw [List.length_append] at haccount
  constructor
  · intro hc
    have hnumber := hc.2
    omega
  · intro he
    refine ⟨fun ht => ?_, by omega⟩
    -- nothing was dropped, so the lines are of the first events; those gone are the late ones
    have hlength : (s.gone.map some).length = (s.late.map some).length := by
      rw [List.length_map, List.length_map]
      have := hledger.counted ht
      omega
    have horder := hledger.order ht
    rw [List.map_append] at horder
    exact (List.append_inj' horder hlength).1

/-- The step neither puts an event into the channel after `finish` was called nor counts one that
was refused before, the count of dropped events can grow if it is to, and the channel is empty when
the writer goes. -/
def CaptureAction.Orderly (s : Capture) : CaptureAction → Prop
  | .send _ => s.owner ≠ .finishing
  | .countRefused _ => s.owner ≠ .finishing ∧ Addition.Fits (s.timings.droppedEvents, 1)
  | .failWrite _ => Addition.Fits (s.timings.droppedEvents, 1)
  | .exit => s.queue = []
  | _ => True

instance (s : Capture) : ∀ a : CaptureAction, Decidable (a.Orderly s)
  | .send _ => inferInstanceAs (Decidable (s.owner ≠ _))
  | .countRefused _ => inferInstanceAs (Decidable (s.owner ≠ _ ∧ _))
  | .failWrite _ => inferInstanceAs (Decidable (Addition.Fits _))
  | .exit => inferInstanceAs (Decidable (s.queue = []))
  | .handle | .dropHandle | .openFile _ | .check | .receive _ | .timeout | .expire | .disconnect
  | .write | .discard | .summarise _ | .finish | .drop | .join => .isTrue trivial

/-- Nothing is gone, and nothing came in late. -/
structure CaptureTidy (s : Capture) : Prop where
  inv : CaptureInv s
  late : s.owner = .finishing → s.late = []
  gone : s.owner = .held ∨ s.owner = .finishing → s.phase ≠ .discarding → s.gone = []
  uncounted : s.uncounted = 0

/-- A step that leaves alone what is gone and what came in late. -/
theorem CaptureTidy.same {s s' : Capture} (tidy : CaptureTidy s) (inv : CaptureInv s')
    (owner : s'.owner = s.owner) (late : s'.late = s.late) (gone : s'.gone = s.gone)
    (uncounted : s'.uncounted = s.uncounted)
    (phase : s'.phase ≠ .discarding → s.phase ≠ .discarding) : CaptureTidy s' where
  inv := inv
  late := fun ho => late.trans (tidy.late (owner ▸ ho))
  gone := fun ho hp => gone.trans (tidy.gone (owner ▸ ho) (phase hp))
  uncounted := uncounted.trans tidy.uncounted

/-- **An orderly step** leaves nothing behind. -/
theorem captureTidy_step {s s' : Capture} {a : CaptureAction} (ha : a.Orderly s)
    (tidy : CaptureTidy s) (h : s.step a = some s') : CaptureTidy s' := by
  have inv := captureInv_step tidy.inv h
  cases a with
  | handle =>
    obtain ⟨-, rfl⟩ := Guarded.of_guard h
    exact tidy.same inv rfl rfl rfl rfl id
  | dropHandle =>
    obtain ⟨-, rfl⟩ := Guarded.of_guard h
    exact tidy.same inv rfl rfl rfl rfl id
  | send event =>
    obtain ⟨-, rfl⟩ := Guarded.of_guard h
    have hlate : (s.send event).owner = .finishing → (s.send event).late = [] := by
      unfold Capture.send
      split_ifs
      · exact fun ho => absurd ho ha
      · exact fun ho => absurd ho ha
      · exact tidy.late
    refine ⟨inv, hlate, ?_, ?_⟩
    · unfold Capture.send
      split_ifs with hexited
      · -- without a receiver the capture is no longer held, and `finish` has not been called
        rintro (ho | ho) _
        · exact absurd ho (tidy.inv.stopping (by rw [hexited, WriterPhase.stopping]))
        · exact absurd ho ha
      · exact tidy.gone
      · exact tidy.gone
    · unfold Capture.send
      split_ifs <;> exact tidy.uncounted
  | countRefused event =>
    obtain ⟨-, rfl⟩ := Guarded.of_guard h
    refine ⟨inv, fun ho => absurd ho ha.1, tidy.gone, ?_⟩
    show s.uncounted + (if Addition.Fits (s.timings.droppedEvents, 1) then 0 else 1) = 0
    rw [tidy.uncounted, if_pos ha.2]
  | openFile ok =>
    obtain ⟨hp, rfl⟩ := Guarded.of_guard h
    exact tidy.same inv rfl rfl rfl rfl fun _ => by simp [hp]
  | check =>
    obtain ⟨hp, rfl⟩ := Guarded.of_guard h
    exact tidy.same inv rfl rfl rfl rfl fun _ => by simp [hp]
  | receive tsUs =>
    simp only [Capture.step] at h
    split at h
    · next hp _ =>
      obtain rfl := Option.some.inj h
      exact tidy.same inv rfl rfl rfl rfl fun _ => by simp [hp]
    · next hp _ =>
      obtain rfl := Option.some.inj h
      exact tidy.same inv rfl rfl rfl rfl fun _ => by simp [hp]
    · cases h
  | timeout =>
    obtain ⟨hp, rfl⟩ := Guarded.of_guard h
    exact tidy.same inv rfl rfl rfl rfl fun _ => by simp [hp.1]
  | expire =>
    obtain ⟨hp, rfl⟩ := Guarded.of_guard h
    exact tidy.same inv rfl rfl rfl rfl fun _ => by simp [hp]
  | disconnect =>
    obtain ⟨hd, h⟩ := Option.ite_none_right_eq_some.mp h
    have hgone : ¬ (s.owner = .held ∨ s.owner = .finishing) := by
      rcases hd.1 with ho | ho <;> simp [ho]
    have hlate : s.owner ≠ .finishing := fun ho => hgone (Or.inr ho)
    split at h
    · obtain rfl := Option.some.inj h
      exact ⟨inv, fun ho => absurd ho hlate, fun ho => absurd ho hgone, tidy.uncounted⟩
    · obtain rfl := Option.some.inj h
      exact ⟨inv, fun ho => absurd ho hlate, fun ho => absurd ho hgone, tidy.uncounted⟩
    · obtain rfl := Option.some.inj h
      exact ⟨inv, fun ho => absurd ho hlate, fun ho => absurd ho hgone, tidy.uncounted⟩
    · cases h
  | write =>
    simp only [Capture.step] at h
    split at h
    · next hp =>
      obtain rfl := Option.some.inj h
      exact tidy.same inv rfl rfl rfl rfl fun _ => by simp [hp]
    · cases h
  | failWrite torn =>
    simp only [Capture.step] at h
    split at h
    · next hp =>
      obtain rfl := Option.some.inj h
      have hfits : Addition.Fits (s.timings.droppedEvents, 1) := ha
      have huncounted : s.countDropped.uncounted = s.uncounted := by
        simp [Capture.countDropped, hfits]
      exact tidy.same inv rfl rfl rfl huncounted fun _ => by simp [hp]
    · cases h
  | discard =>
    simp only [Capture.step] at h
    split at h
    · next hp _ =>
      obtain rfl := Option.some.inj h
      exact ⟨inv, tidy.late, fun _ h => absurd hp h, tidy.uncounted⟩
    · cases h
  | summarise nowUs =>
    obtain ⟨hp, rfl⟩ := Guarded.of_guard h
    exact tidy.same inv rfl rfl rfl rfl fun _ => by simp [hp]
  | exit =>
    obtain ⟨hp, rfl⟩ := Guarded.of_guard h
    have hgone : s.gone ++ s.queue = s.gone := by
      rw [show s.queue = [] from ha, List.append_nil]
    exact tidy.same inv rfl rfl hgone rfl fun _ => by simp [hp]
  | finish =>
    obtain ⟨ho, rfl⟩ := Guarded.of_guard h
    exact ⟨inv, fun _ => tidy.inv.late ho, fun _ => tidy.gone (Or.inl ho), tidy.uncounted⟩
  | drop =>
    obtain ⟨-, rfl⟩ := Guarded.of_guard h
    exact ⟨inv, by simp, by simp, tidy.uncounted⟩
  | join =>
    obtain ⟨-, rfl⟩ := Guarded.of_guard h
    exact ⟨inv, by simp, by simp, tidy.uncounted⟩

/-- A run of a capture. -/
def CaptureRun (side : String) (startedAtUnixUs : ℕ) (as : List CaptureAction) (s : Capture) :
    Prop :=
  Guarded.run Capture.step (Capture.new side startedAtUnixUs) as = some s

/-- Every step of a run is orderly. -/
def CaptureOrderly (side : String) (startedAtUnixUs : ℕ) (as : List CaptureAction) : Prop :=
  Guarded.Along Capture.step (fun s a => a.Orderly s) (Capture.new side startedAtUnixUs) as

/-- **What `finish` returns is right in every run whose steps are orderly**, and in any run exactly
where as many events are gone uncounted as came in after `finish` was called. -/
theorem capture_complete (side : String) (startedAtUnixUs : ℕ) (as : List CaptureAction)
    (s : Capture) (hrun : CaptureRun side startedAtUnixUs as s) (h : s.Returns) :
    (CaptureOrderly side startedAtUnixUs as → CompleteOrTold s) ∧
      (CompleteOrTold s ↔ s.gone.length + s.uncounted = s.late.length) := by
  have inv := captureInv_new side startedAtUnixUs
  have hiff := completeOrTold_iff
    (Guarded.run_inv (fun _ _ _ inv h => captureInv_step inv h) inv hrun) h
  refine ⟨fun ho => hiff.mpr ?_, hiff⟩
  have tidy : CaptureTidy (Capture.new side startedAtUnixUs) :=
    ⟨inv, fun _ => rfl, fun _ _ => rfl, rfl⟩
  have htidy := Guarded.run_inv_along (fun _ _ _ ha tidy h => captureTidy_step ha tidy h) tidy ho
    hrun
  rw [htidy.gone (Or.inr h.1) (by simp [h.2]), htidy.late h.1, htidy.uncounted]
  rfl

/-! ### Two runs -/

/-- Two events are recorded, and `finish` is called; the writer gets the first of them. -/
def twoEvents : List CaptureAction :=
  [.handle, .openFile true, .send (.header ":status" "200"), .send .done, .finish, .check,
    .receive 1, .write]

/-- The state in which `finish` returns, with the given lines of the two events. -/
def twoEventsFinished (file : List FileEntry) (gone : List StreamEvent) : Capture where
  owner := .finishing
  handles := 1
  shutdown := true
  phase := .exited
  file := file
  drained := file.length
  timings :=
    { side := "client_response"
      startedAtUnixUs := 0
      firstEventAtUnixUs := some 1
      completedAtUnixUs := some 3
      totalDurationUs := 3
      eventCount := file.length }
  recorded := [.header ":status" "200", .done]
  gone := gone

/-- The writer gets the second event in time. -/
def twoEventsInTime : List CaptureAction :=
  twoEvents ++ [.receive 2, .write, .expire, .summarise 3, .exit]

/-- The first line takes the writer longer than it has. -/
def twoEventsTooLate : List CaptureAction := twoEvents ++ [.expire, .summarise 3, .exit]

/-- What is returned then is right. -/
theorem capture_complete_in_time :
    CompleteOrTold (twoEventsFinished [.line 1 (.header ":status" "200"), .line 2 .done] []) := by
  refine (capture_complete "client_response" 0 twoEventsInTime _ rfl ⟨rfl, rfl⟩).1 ?_
  show Guarded.Along Capture.step (fun s a => a.Orderly s) _ _
  decide

/-- Where the writer does not get the second event in time, no count has it. -/
theorem not_capture_complete :
    ¬ ∀ (side : String) (startedAtUnixUs : ℕ) (as : List CaptureAction) (s : Capture),
      CaptureRun side startedAtUnixUs as s → s.Returns → CompleteOrTold s := by
  intro h
  have hlate := h "client_response" 0 twoEventsTooLate
    (twoEventsFinished [.line 1 (.header ":status" "200")] [.done]) rfl ⟨rfl, rfl⟩
  exact absurd hlate.2 (by decide)

end Onair
