import RtosLwip.Rtos.Lists

/-!
# The Scheduler

`tasks.c`: the lists that tasks are in, the clock, and what moves a task from one list to
another. A task is in one of the ready lists, in one of two lists of tasks that wait for a
tick, or in the suspended list. If it waits for an event it is in the list of the event as
well, ordered by priority. The two lists of waiting tasks change places as the tick count
wraps around.

While the scheduler is suspended the ready lists are not touched by interrupts: a task that
an event wakes goes to a list of its own, and ticks are counted, until the scheduler is
resumed.

The functions stop at a failed assertion and at a list item or a task that is not there.

## Main definitions

* `Kernel`: The variables of the scheduler.
* `xTaskIncrementTick`, `vTaskSwitchContext`: What the interrupts do.
* `prvAddCurrentTaskToDelayedList`, `vTaskPlaceOnEventList`: How a task blocks.
* `xTaskRemoveFromEventList`, `xTaskResumeAll`, `vTaskSuspend`, `vTaskResume`: The rest.
* `Call`: What interrupts and the running task may do, and when.
-/

namespace RtosLwip

namespace Rtos

/-- `configMAX_PRIORITIES` -/
def configMaxPriorities : Nat := 5

/-- `uxPriority` of a task. -/
abbrev Priority := Fin configMaxPriorities

/-- The lists of the scheduler, and one for each event. -/
inductive ListId (ε : Type) where
  | ready (p : Priority)
  | delayed (second : Bool)
  | suspended
  | pendingReady
  | terminating
  | event (e : ε)
  deriving DecidableEq

/-- The two list items of a task: `xStateListItem` and `xEventListItem`. -/
inductive Item (τ : Type) where
  | state (t : τ)
  | event (t : τ)
  deriving DecidableEq

namespace Item

/-- `pvOwner` -/
def owner {τ : Type} : Item τ → τ
  | state t => t
  | event t => t

end Item

/-- The variables of `tasks.c`, and the bit by which a context switch is asked for. -/
structure Kernel (τ ε : Type) where
  lists : Lists (ListId ε) (Item τ)
  uxPriority : τ → Priority
  pxCurrentTCB : τ
  pxDelayedTaskList : ListId ε
  pxOverflowDelayedTaskList : ListId ε
  xTickCount : UInt32
  xNumOfOverflows : UInt32
  xNextTaskUnblockTime : UInt32
  uxTopReadyPriority : UInt32
  uxSchedulerSuspended : UInt32
  uxPendedTicks : UInt32
  uxDeletedTasksWaitingCleanUp : UInt32
  xYieldPending : Bool
  pendSV : Bool

/-- `portRECORD_READY_PRIORITY` -/
def portRecordReadyPriority (p : Priority) (bits : UInt32) : UInt32 :=
  bits ||| 1 <<< UInt32.ofNat p.val

/-- `portRESET_READY_PRIORITY` -/
def portResetReadyPriority (p : Priority) (bits : UInt32) : UInt32 :=
  bits &&& ~~~(1 <<< UInt32.ofNat p.val)

/-- `ucPortCountLeadingZeros` -/
def ucPortCountLeadingZeros (bits : UInt32) : UInt32 :=
  if bits = 0 then 32 else UInt32.ofNat (31 - bits.toNat.log2)

/-- `portGET_HIGHEST_PRIORITY` -/
def portGetHighestPriority (bits : UInt32) : UInt32 := 31 - ucPortCountLeadingZeros bits

section Functions

variable {τ ε : Type} [DecidableEq τ] [DecidableEq ε]

namespace Kernel

/-- `portYIELD`, `portYIELD_WITHIN_API` and `portYIELD_FROM_ISR` -/
def portYield (k : Kernel τ ε) : Kernel τ ε := { k with pendSV := true }

/-- `listCURRENT_LIST_LENGTH` -/
def length (k : Kernel τ ε) (l : ListId ε) : Nat := k.lists.uxNumberOfItems l

/-- The task at the head of a list. -/
def headTask (k : Kernel τ ε) (l : ListId ε) : Option τ :=
  (k.lists.getOwnerOfHeadEntry l).map Item.owner

/-- `uxListRemove`, for an item of a task. -/
def removeItem (k : Kernel τ ε) (i : Item τ) : Option (Nat × Kernel τ ε) :=
  (k.lists.uxListRemove i).map fun r => (r.1, { k with lists := r.2 })

/-- `prvAddTaskToReadyList` -/
def prvAddTaskToReadyList (k : Kernel τ ε) (t : τ) : Kernel τ ε :=
  { k with
    uxTopReadyPriority := portRecordReadyPriority (k.uxPriority t) k.uxTopReadyPriority
    lists := k.lists.vListInsertEnd (.ready (k.uxPriority t)) (.state t) }

/-- `taskRESET_READY_PRIORITY` -/
def taskResetReadyPriority (k : Kernel τ ε) (p : Priority) : Kernel τ ε :=
  if k.length (.ready p) = 0 then
    { k with uxTopReadyPriority := portResetReadyPriority p k.uxTopReadyPriority }
  else
    k

/-- `prvResetNextTaskUnblockTime` -/
def prvResetNextTaskUnblockTime (k : Kernel τ ε) : Option (Kernel τ ε) :=
  if k.length k.pxDelayedTaskList = 0 then
    some { k with xNextTaskUnblockTime := portMaxDelay }
  else
    (k.headTask k.pxDelayedTaskList).map fun t =>
      { k with xNextTaskUnblockTime := k.lists.xItemValue (.item (.state t)) }

/-- `taskSWITCH_DELAYED_LISTS` -/
def taskSwitchDelayedLists (k : Kernel τ ε) : Option (Kernel τ ε) :=
  if k.length k.pxDelayedTaskList = 0 then
    prvResetNextTaskUnblockTime { k with
      pxDelayedTaskList := k.pxOverflowDelayedTaskList
      pxOverflowDelayedTaskList := k.pxDelayedTaskList
      xNumOfOverflows := k.xNumOfOverflows + 1 }
  else
    none

/-- A task leaves the list of the event that it waits for, if it waits for one. -/
def removeEvent (k : Kernel τ ε) (t : τ) : Option (Kernel τ ε) :=
  if k.lists.pvContainer (.event t) = none then
    some k
  else
    (k.removeItem (.event t)).map Prod.snd

/-- The loop of `xTaskIncrementTick`: is a context switch required? -/
def unblockTasks : Nat → Bool → Kernel τ ε → Option (Bool × Kernel τ ε)
  | 0, _, _ => none
  | fuel + 1, xSwitchRequired, k =>
    if k.length k.pxDelayedTaskList = 0 then
      some (xSwitchRequired, { k with xNextTaskUnblockTime := portMaxDelay })
    else do
      let t ← k.headTask k.pxDelayedTaskList
      let xItemValue := k.lists.xItemValue (.item (.state t))
      if k.xTickCount < xItemValue then
        some (xSwitchRequired, { k with xNextTaskUnblockTime := xItemValue })
      else do
        let r ← k.removeItem (.state t)
        let k ← r.2.removeEvent t
        unblockTasks fuel (xSwitchRequired || k.uxPriority k.pxCurrentTCB ≤ k.uxPriority t)
          (k.prvAddTaskToReadyList t)

/-- `xTaskIncrementTick` while the scheduler is not suspended. -/
def advanceTick (k : Kernel τ ε) : Option (Bool × Kernel τ ε) := do
  let k := { k with xTickCount := k.xTickCount + 1 }
  let k ← (if k.xTickCount = 0 then k.taskSwitchDelayedLists else some k)
  let r ←
    (if k.xNextTaskUnblockTime ≤ k.xTickCount then
      unblockTasks (k.length k.pxDelayedTaskList + 1) false k
    else
      some (false, k))
  -- tasks of the priority of the running task share the time
  return (r.1 || 1 < r.2.length (.ready (r.2.uxPriority r.2.pxCurrentTCB)), r.2)

/-- `xTaskIncrementTick` -/
def xTaskIncrementTick (k : Kernel τ ε) : Option (Bool × Kernel τ ε) := do
  let r ←
    (if k.uxSchedulerSuspended = 0 then
      k.advanceTick
    else
      some (false, { k with uxPendedTicks := k.uxPendedTicks + 1 }))
  return (r.1 || r.2.xYieldPending, r.2)

/-- `xPortSysTickHandler` -/
def xPortSysTickHandler (k : Kernel τ ε) : Option (Kernel τ ε) := do
  let r ← k.xTaskIncrementTick
  return if r.1 then r.2.portYield else r.2

/-- `taskSELECT_HIGHEST_PRIORITY_TASK` -/
def taskSelectHighestPriorityTask (k : Kernel τ ε) : Option (Kernel τ ε) :=
  let uxTopPriority := (portGetHighestPriority k.uxTopReadyPriority).toNat
  if h : uxTopPriority < configMaxPriorities then
    if 0 < k.length (.ready ⟨uxTopPriority, h⟩) then
      (k.lists.getOwnerOfNextEntry (.ready ⟨uxTopPriority, h⟩)).map fun r =>
        { k with pxCurrentTCB := r.1.owner, lists := r.2 }
    else
      none
  else
    none

/-- `vTaskSwitchContext` -/
def vTaskSwitchContext (k : Kernel τ ε) : Option (Kernel τ ε) :=
  if k.uxSchedulerSuspended ≠ 0 then
    some { k with xYieldPending := true }
  else
    taskSelectHighestPriorityTask { k with xYieldPending := false }

/-- `xPortPendSVHandler` -/
def xPortPendSVHandler (k : Kernel τ ε) : Option (Kernel τ ε) :=
  vTaskSwitchContext { k with pendSV := false }

/-- The current task goes to the list of its wake time. -/
def insertDelayed (k : Kernel τ ε) (xTimeToWake : UInt32) : Option (Kernel τ ε) :=
  let lists := k.lists.setListItemValue (.state k.pxCurrentTCB) xTimeToWake
  if xTimeToWake < k.xTickCount then
    (lists.vListInsert k.pxOverflowDelayedTaskList (.state k.pxCurrentTCB)).map fun lists =>
      { k with lists := lists }
  else
    (lists.vListInsert k.pxDelayedTaskList (.state k.pxCurrentTCB)).map fun lists =>
      { k with
        lists := lists
        xNextTaskUnblockTime :=
          if xTimeToWake < k.xNextTaskUnblockTime then xTimeToWake else k.xNextTaskUnblockTime }

/-- `prvAddCurrentTaskToDelayedList` -/
def prvAddCurrentTaskToDelayedList (k : Kernel τ ε) (xTicksToWait : UInt32)
    (xCanBlockIndefinitely : Bool) : Option (Kernel τ ε) := do
  let r ← k.removeItem (.state k.pxCurrentTCB)
  let k :=
    if r.1 = 0 then
      { r.2 with
        uxTopReadyPriority :=
          portResetReadyPriority (k.uxPriority k.pxCurrentTCB) r.2.uxTopReadyPriority }
    else
      r.2
  if xTicksToWait = portMaxDelay ∧ xCanBlockIndefinitely then
    return { k with lists := k.lists.vListInsertEnd .suspended (.state k.pxCurrentTCB) }
  else
    k.insertDelayed (k.xTickCount + xTicksToWait)

/-- `vTaskSuspendAll` -/
def vTaskSuspendAll (k : Kernel τ ε) : Kernel τ ε :=
  { k with uxSchedulerSuspended := k.uxSchedulerSuspended + 1 }

/-- The loop of `xTaskResumeAll` over the tasks that were woken. -/
def movePendingReady : Nat → Kernel τ ε → Option (Kernel τ ε)
  | 0, _ => none
  | fuel + 1, k =>
    if k.length .pendingReady = 0 then
      some k
    else do
      let t ← k.headTask .pendingReady
      let r ← k.removeItem (.event t)
      let r ← r.2.removeItem (.state t)
      let k := r.2.prvAddTaskToReadyList t
      movePendingReady fuel
        (if k.uxPriority k.pxCurrentTCB ≤ k.uxPriority t then { k with xYieldPending := true }
          else k)

/-- The loop of `xTaskResumeAll` over the ticks that were counted. -/
def catchUpTicks : Nat → Kernel τ ε → Option (Kernel τ ε)
  | 0, k => some k
  | uxPendedCounts + 1, k => do
    let r ← k.xTaskIncrementTick
    catchUpTicks uxPendedCounts (if r.1 then { r.2 with xYieldPending := true } else r.2)

/-- `xTaskResumeAll` as the scheduler is not suspended any more. -/
def resumeScheduler (k : Kernel τ ε) : Option (Bool × Kernel τ ε) := do
  let pending := k.length .pendingReady
  let k ← movePendingReady (pending + 1) k
  let k ← (if pending ≠ 0 then k.prvResetNextTaskUnblockTime else some k)
  let k ← catchUpTicks k.uxPendedTicks.toNat k
  let k := { k with uxPendedTicks := 0 }
  return if k.xYieldPending then (true, k.portYield) else (false, k)

/-- `xTaskResumeAll` -/
def xTaskResumeAll (k : Kernel τ ε) : Option (Bool × Kernel τ ε) :=
  if k.uxSchedulerSuspended = 0 then
    none
  else if k.uxSchedulerSuspended - 1 = 0 then
    resumeScheduler { k with uxSchedulerSuspended := k.uxSchedulerSuspended - 1 }
  else
    some (false, { k with uxSchedulerSuspended := k.uxSchedulerSuspended - 1 })

/-- `vTaskPlaceOnEventList` -/
def vTaskPlaceOnEventList (k : Kernel τ ε) (pxEventList : ε) (xTicksToWait : UInt32) :
    Option (Kernel τ ε) := do
  let lists ← k.lists.vListInsert (.event pxEventList) (.event k.pxCurrentTCB)
  prvAddCurrentTaskToDelayedList { k with lists := lists } xTicksToWait true

/-- `xTaskRemoveFromEventList` -/
def xTaskRemoveFromEventList (k : Kernel τ ε) (pxEventList : ε) :
    Option (Bool × Kernel τ ε) := do
  let t ← k.headTask (.event pxEventList)
  let r ← k.removeItem (.event t)
  let k := r.2
  let k ←
    (if k.uxSchedulerSuspended = 0 then
      (k.removeItem (.state t)).map fun r => r.2.prvAddTaskToReadyList t
    else
      some { k with lists := k.lists.vListInsertEnd .pendingReady (.event t) })
  if k.uxPriority k.pxCurrentTCB < k.uxPriority t then
    return (true, { k with xYieldPending := true })
  else
    return (false, k)

/-- How `vTaskSuspend` and `vTaskDelete` begin: the task leaves its lists. -/
def takeOut (k : Kernel τ ε) (t : τ) : Option (Kernel τ ε) := do
  let r ← k.removeItem (.state t)
  let k := if r.1 = 0 then r.2.taskResetReadyPriority (k.uxPriority t) else r.2
  k.removeEvent t

/-- `vTaskSuspend` -/
def vTaskSuspend (k : Kernel τ ε) (t : τ) : Option (Kernel τ ε) := do
  let k ← k.takeOut t
  let k := { k with lists := k.lists.vListInsertEnd .suspended (.state t) }
  let k ← k.prvResetNextTaskUnblockTime
  if t = k.pxCurrentTCB then
    if k.uxSchedulerSuspended = 0 then return k.portYield else none
  else
    return k

/-- `prvTaskIsTaskSuspended` -/
def prvTaskIsTaskSuspended (k : Kernel τ ε) (t : τ) : Bool :=
  k.lists.pvContainer (.state t) = some .suspended &&
    k.lists.pvContainer (.event t) ≠ some .pendingReady && k.lists.pvContainer (.event t) = none

/-- `vTaskResume` -/
def vTaskResume (k : Kernel τ ε) (t : τ) : Option (Kernel τ ε) :=
  if t ≠ k.pxCurrentTCB then
    if k.prvTaskIsTaskSuspended t then do
      let r ← k.removeItem (.state t)
      let k := r.2.prvAddTaskToReadyList t
      return if k.uxPriority k.pxCurrentTCB ≤ k.uxPriority t then k.portYield else k
    else
      some k
  else
    some k

/-- `xTaskResumeFromISR` -/
def xTaskResumeFromISR (k : Kernel τ ε) (t : τ) : Option (Bool × Kernel τ ε) :=
  if k.prvTaskIsTaskSuspended t then
    if k.uxSchedulerSuspended = 0 then do
      let r ← k.removeItem (.state t)
      return (k.uxPriority k.pxCurrentTCB ≤ k.uxPriority t, r.2.prvAddTaskToReadyList t)
    else
      some (false, { k with lists := k.lists.vListInsertEnd .pendingReady (.event t) })
  else
    some (false, k)

/-- `vTaskDelayUntil`: is the wake time still to come? -/
def xShouldDelay (xConstTickCount pxPreviousWakeTime xTimeToWake : UInt32) : Bool :=
  if xConstTickCount < pxPreviousWakeTime then
    xTimeToWake < pxPreviousWakeTime && xConstTickCount < xTimeToWake
  else
    xTimeToWake < pxPreviousWakeTime || xConstTickCount < xTimeToWake

/-- `vTaskDelayUntil` up to `xTaskResumeAll`, with what it leaves in the variable that
    `pxPreviousWakeTime` points to. -/
def delayUntil (k : Kernel τ ε) (pxPreviousWakeTime xTimeIncrement : UInt32) :
    Option (UInt32 × Kernel τ ε) :=
  let xTimeToWake := pxPreviousWakeTime + xTimeIncrement
  if 0 < xTimeIncrement ∧ k.uxSchedulerSuspended = 0 then
    if xShouldDelay k.xTickCount pxPreviousWakeTime xTimeToWake then
      (k.vTaskSuspendAll.prvAddCurrentTaskToDelayedList (xTimeToWake - k.xTickCount) false).map
        fun k => (xTimeToWake, k)
    else
      some (xTimeToWake, k.vTaskSuspendAll)
  else
    none

/-- `vTaskDelay` up to `xTaskResumeAll`. A delay of no ticks only yields. -/
def delay (k : Kernel τ ε) (xTicksToDelay : UInt32) : Option (Kernel τ ε) :=
  if k.uxSchedulerSuspended = 0 then
    k.vTaskSuspendAll.prvAddCurrentTaskToDelayedList xTicksToDelay false
  else
    none

/-- A queue that is empty or full is waited for, up to `xTaskResumeAll`. -/
def wait (k : Kernel τ ε) (pxEventList : ε) (xTicksToWait : UInt32) : Option (Kernel τ ε) :=
  if k.uxSchedulerSuspended = 0 then
    k.vTaskSuspendAll.vTaskPlaceOnEventList pxEventList xTicksToWait
  else
    none

/-- The functions that block end with `xTaskResumeAll`, and a yield if it did not yield. -/
def leave (k : Kernel τ ε) : Option (Kernel τ ε) := do
  let r ← k.xTaskResumeAll
  return if r.1 then r.2 else r.2.portYield

/-- `vTaskDelete`. The memory of the task is not modelled. -/
def vTaskDelete (k : Kernel τ ε) (t : τ) : Option (Kernel τ ε) := do
  let k ← k.takeOut t
  if t = k.pxCurrentTCB then
    if k.uxSchedulerSuspended = 0 then
      return portYield { k with
        lists := k.lists.vListInsertEnd .terminating (.state t)
        uxDeletedTasksWaitingCleanUp := k.uxDeletedTasksWaitingCleanUp + 1 }
    else
      none
  else
    k.prvResetNextTaskUnblockTime

/-- The loop of `prvCheckTasksWaitingTermination`, once around. -/
def checkTermination (k : Kernel τ ε) : Option (Kernel τ ε) :=
  if 0 < k.uxDeletedTasksWaitingCleanUp then do
    let t ← k.headTask .terminating
    let r ← k.removeItem (.state t)
    return { r.2 with uxDeletedTasksWaitingCleanUp := r.2.uxDeletedTasksWaitingCleanUp - 1 }
  else
    some k

/-- `prvAddNewTaskToReadyList` while the scheduler is running. -/
def prvAddNewTaskToReadyList (k : Kernel τ ε) (t : τ) : Kernel τ ε :=
  let k := k.prvAddTaskToReadyList t
  if k.uxPriority k.pxCurrentTCB < k.uxPriority t then k.portYield else k

/-- `prvAddNewTaskToReadyList` before the scheduler runs, for a task behind the first one. -/
def addTaskAtBoot (k : Kernel τ ε) (t : τ) : Kernel τ ε :=
  let k := if k.uxPriority k.pxCurrentTCB ≤ k.uxPriority t then { k with pxCurrentTCB := t } else k
  k.prvAddTaskToReadyList t

/-- `prvInitialiseNewTask`: the values of the list items of a task. That of the first one is set
    when it is needed. -/
def initialItemValue (uxPriority : τ → Priority) : Item τ → UInt32
  | .state _ => 0
  | .event t => UInt32.ofNat (configMaxPriorities - (uxPriority t).val)

/-- `prvInitialiseTaskLists` -/
def initialise (uxPriority : τ → Priority) (t : τ) : Kernel τ ε where
  lists := Lists.initialise (initialItemValue uxPriority)
  uxPriority := uxPriority
  pxCurrentTCB := t
  pxDelayedTaskList := .delayed false
  pxOverflowDelayedTaskList := .delayed true
  xTickCount := 0
  xNumOfOverflows := 0
  xNextTaskUnblockTime := portMaxDelay
  uxTopReadyPriority := 0
  uxSchedulerSuspended := 0
  uxPendedTicks := 0
  uxDeletedTasksWaitingCleanUp := 0
  xYieldPending := false
  pendSV := false

/-- `prvAddNewTaskToReadyList` for the first task. -/
def firstTask (uxPriority : τ → Priority) (t : τ) : Kernel τ ε :=
  (initialise uxPriority t).prvAddTaskToReadyList t

/-- `vTaskStartScheduler`: the tasks that were created before, in their order. -/
def boot (uxPriority : τ → Priority) (first : τ) (rest : List τ) : Kernel τ ε :=
  rest.foldl addTaskAtBoot (firstTask uxPriority first)

/-- What `eTaskGetState` returns. -/
inductive TaskState where
  | running
  | ready
  | blocked
  | suspended
  | deleted
  deriving DecidableEq

/-- `eTaskGetState` -/
def eTaskGetState (k : Kernel τ ε) (t : τ) : TaskState :=
  let pxStateList := k.lists.pvContainer (.state t)
  if t = k.pxCurrentTCB then
    .running
  else if pxStateList = some k.pxDelayedTaskList ∨
      pxStateList = some k.pxOverflowDelayedTaskList then
    .blocked
  else if pxStateList = some .suspended then
    if k.lists.pvContainer (.event t) = none then .suspended else .blocked
  else if pxStateList = some .terminating ∨ pxStateList = none then
    .deleted
  else
    .ready

end Kernel

/-! ### Calls -/

/-- What happens to the scheduler: interrupts, and functions that the running task calls. A
    function that blocks is in two parts, since interrupts come in between. -/
inductive Call (τ ε : Type) where
  | tick
  | switch
  | wake (e : ε)
  | resumeFromISR (t : τ)
  | yield
  | suspendAll
  | resumeAll
  | delay (xTicksToDelay : UInt32)
  | delayUntil (pxPreviousWakeTime xTimeIncrement : UInt32)
  | wait (e : ε) (xTicksToWait : UInt32)
  | leave
  | suspend (t : τ)
  | resume (t : τ)
  | create (t : τ)
  | delete (t : τ)
  | cleanUp
  deriving DecidableEq

/-- The scheduler, and whether the running task is within a function that blocks. -/
structure System (τ ε : Type) where
  kernel : Kernel τ ε
  blocking : Bool

namespace Call

/-- The function of the scheduler. An interrupt that resumes a task asks for a context switch if
    it is told to. -/
def run (k : Kernel τ ε) : Call τ ε → Option (Kernel τ ε)
  | tick => k.xPortSysTickHandler
  | switch => k.xPortPendSVHandler
  | wake e => (k.xTaskRemoveFromEventList e).map Prod.snd
  | resumeFromISR t => (k.xTaskResumeFromISR t).map fun r => if r.1 then r.2.portYield else r.2
  | yield => some k.portYield
  | suspendAll => some k.vTaskSuspendAll
  | resumeAll => k.xTaskResumeAll.map Prod.snd
  | delay xTicksToDelay => k.delay xTicksToDelay
  | delayUntil pxPreviousWakeTime xTimeIncrement =>
    (k.delayUntil pxPreviousWakeTime xTimeIncrement).map Prod.snd
  | wait e xTicksToWait => k.wait e xTicksToWait
  | leave => k.leave
  | suspend t => k.vTaskSuspend t
  | resume t => k.vTaskResume t
  | create t => some (k.prvAddNewTaskToReadyList t)
  | delete t => k.vTaskDelete t
  | cleanUp => k.checkTermination

/-- Where the running task is behind a call. -/
def blocks (blocking : Bool) : Call τ ε → Bool
  | delay _ => true
  | delayUntil _ _ => true
  | wait _ _ => true
  | leave => false
  | _ => blocking

/-- One call. -/
def step (s : System τ ε) (c : Call τ ε) : Option (System τ ε) :=
  (c.run s.kernel).map fun k => ⟨k, c.blocks s.blocking⟩

/-- The calls one after the other. -/
def runs (s : System τ ε) : List (Call τ ε) → Option (System τ ε)
  | [] => some s
  | c :: calls => (c.step s).bind fun s => runs s calls

end Call

namespace System

/-- The running task is in its own code. A context switch that was asked for comes first. -/
def InTask (s : System τ ε) : Prop := s.blocking = false ∧ s.kernel.pendSV = false

/-- The task has been created, and has not been deleted. -/
def Alive (s : System τ ε) (t : τ) : Prop :=
  s.kernel.lists.pvContainer (.state t) ≠ none ∧
    s.kernel.lists.pvContainer (.state t) ≠ some .terminating

/-- When a call can come. The idle task is not blocked, suspended or deleted, a task waits for one
    tick at least, and does not block itself while it has suspended the scheduler. The counters of
    what is to be made up for do not wrap around. -/
def Allows (s : System τ ε) (idle : τ) : Call τ ε → Prop
  | .tick => s.kernel.uxSchedulerSuspended ≠ 0 → s.kernel.uxPendedTicks + 1 ≠ 0
  | .switch => s.kernel.pendSV = true
  | .wake e => 0 < s.kernel.length (.event e)
  | .resumeFromISR _ => True
  | .yield => True
  | .suspendAll => s.InTask ∧ s.kernel.uxSchedulerSuspended + 1 ≠ 0
  | .resumeAll => s.InTask ∧ 0 < s.kernel.uxSchedulerSuspended
  | .delay xTicksToDelay => s.InTask ∧ s.kernel.uxSchedulerSuspended = 0 ∧
      s.kernel.pxCurrentTCB ≠ idle ∧ 0 < xTicksToDelay
  | .delayUntil _ xTimeIncrement => s.InTask ∧ s.kernel.uxSchedulerSuspended = 0 ∧
      s.kernel.pxCurrentTCB ≠ idle ∧ 0 < xTimeIncrement
  | .wait _ xTicksToWait => s.InTask ∧ s.kernel.uxSchedulerSuspended = 0 ∧
      s.kernel.pxCurrentTCB ≠ idle ∧ 0 < xTicksToWait
  | .leave => s.blocking = true ∧ s.kernel.pendSV = false
  | .suspend t => s.InTask ∧ t ≠ idle ∧ s.Alive t ∧
      (t = s.kernel.pxCurrentTCB → s.kernel.uxSchedulerSuspended = 0)
  | .resume _ => s.InTask
  | .create t => s.InTask ∧ s.kernel.lists.pvContainer (.state t) = none
  | .delete t => s.InTask ∧ t ≠ idle ∧ s.Alive t ∧
      (t = s.kernel.pxCurrentTCB → s.kernel.uxSchedulerSuspended = 0) ∧
      s.kernel.uxDeletedTasksWaitingCleanUp + 1 ≠ 0
  | .cleanUp => s.InTask

instance (s : System τ ε) : Decidable s.InTask :=
  inferInstanceAs (Decidable (s.blocking = false ∧ s.kernel.pendSV = false))

instance (s : System τ ε) (t : τ) : Decidable (s.Alive t) :=
  inferInstanceAs (Decidable (s.kernel.lists.pvContainer (.state t) ≠ none ∧
    s.kernel.lists.pvContainer (.state t) ≠ some .terminating))

instance (s : System τ ε) (idle : τ) : ∀ c, Decidable (s.Allows idle c)
  | .tick => inferInstanceAs (Decidable (s.kernel.uxSchedulerSuspended ≠ 0 →
      s.kernel.uxPendedTicks + 1 ≠ 0))
  | .switch => inferInstanceAs (Decidable (s.kernel.pendSV = true))
  | .wake e => inferInstanceAs (Decidable (0 < s.kernel.length (.event e)))
  | .resumeFromISR _ => .isTrue trivial
  | .yield => .isTrue trivial
  | .suspendAll => inferInstanceAs (Decidable (s.InTask ∧
      s.kernel.uxSchedulerSuspended + 1 ≠ 0))
  | .resumeAll => inferInstanceAs (Decidable (s.InTask ∧ 0 < s.kernel.uxSchedulerSuspended))
  | .delay n => inferInstanceAs (Decidable (s.InTask ∧ s.kernel.uxSchedulerSuspended = 0 ∧
      s.kernel.pxCurrentTCB ≠ idle ∧ 0 < n))
  | .delayUntil _ n => inferInstanceAs (Decidable (s.InTask ∧ s.kernel.uxSchedulerSuspended = 0 ∧
      s.kernel.pxCurrentTCB ≠ idle ∧ 0 < n))
  | .wait _ n => inferInstanceAs (Decidable (s.InTask ∧ s.kernel.uxSchedulerSuspended = 0 ∧
      s.kernel.pxCurrentTCB ≠ idle ∧ 0 < n))
  | .leave => inferInstanceAs (Decidable (s.blocking = true ∧ s.kernel.pendSV = false))
  | .suspend t => inferInstanceAs (Decidable (s.InTask ∧ t ≠ idle ∧ s.Alive t ∧
      (t = s.kernel.pxCurrentTCB → s.kernel.uxSchedulerSuspended = 0)))
  | .resume _ => inferInstanceAs (Decidable s.InTask)
  | .create t => inferInstanceAs (Decidable (s.InTask ∧
      s.kernel.lists.pvContainer (.state t) = none))
  | .delete t => inferInstanceAs (Decidable (s.InTask ∧ t ≠ idle ∧ s.Alive t ∧
      (t = s.kernel.pxCurrentTCB → s.kernel.uxSchedulerSuspended = 0) ∧
      s.kernel.uxDeletedTasksWaitingCleanUp + 1 ≠ 0))
  | .cleanUp => inferInstanceAs (Decidable s.InTask)

/-- Every call comes when it can. -/
def Allowed (idle : τ) : System τ ε → List (Call τ ε) → Prop
  | _, [] => True
  | s, c :: calls => s.Allows idle c ∧ ∀ s' ∈ c.step s, Allowed idle s' calls

instance decidableAllowed (idle : τ) :
    ∀ (s : System τ ε) (calls : List (Call τ ε)), Decidable (Allowed idle s calls)
  | _, [] => .isTrue trivial
  | s, c :: calls =>
    have := fun s' => decidableAllowed idle s' calls
    inferInstanceAs (Decidable (s.Allows idle c ∧ ∀ s' ∈ c.step s, Allowed idle s' calls))

end System

end Functions

end Rtos

end RtosLwip
