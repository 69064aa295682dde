import ChipEight.Machine.History
import ChipEight.Proofs.Instruction.Changes
import ChipEight.Proofs.Machine.Safety

/-!
# Machines with a list of calls

A second machine, which has no slots and no depth: it lists the return addresses
of the calls that have not returned.  A call adds its address to the end of the
list, a return takes the last one away, and sixteen are the most that the list
can hold.  All else is as in a machine with a call stack.

The list of a call stack are the slots in use, so that every machine can be seen
as one with a list.  Seen so, it does what the machine with a list does, and
answers and reports the same.
-/

namespace ChipEight

/-- Return addresses of calls that have not returned, the latest last. -/
@[ext]
structure CallList where
  addresses : List Word
  length_le : addresses.length ≤ stackCapacity

namespace CallList

def empty : CallList :=
  { addresses := [], length_le := Nat.zero_le _ }

def latest? (calls : CallList) : Option Word :=
  calls.addresses.getLast?

def pop (calls : CallList) : CallList :=
  { addresses := calls.addresses.dropLast,
    length_le := by
      have bound := calls.length_le
      rw [List.length_dropLast]
      omega }

def push (calls : CallList) (address : Word)
    (room : calls.addresses.length < stackCapacity) : CallList :=
  { addresses := calls.addresses ++ [address],
    length_le := by
      rw [List.length_append, List.length_singleton]
      exact room }

end CallList

def Instruction.usesStack : Instruction → Bool
  | leave | call _ => true
  | _ => false

/-- A state whose calls are listed; its own call stack is empty and stays so. -/
@[ext]
structure ListedState where
  base : State
  calls : CallList
  stack_eq : base.stack = CallStack.empty

namespace ListedState

def initial : ListedState :=
  { base := State.initial, calls := CallList.empty, stack_eq := rfl }

/-- A state with some calls instead of its own. -/
def ofBase (base : State) (calls : CallList) : ListedState :=
  { base := { base with stack := CallStack.empty },
    calls := calls,
    stack_eq := rfl }

/-- Goes on at a counter with other calls. -/
def goOn (state : ListedState) (counter : Word) (calls : CallList) :
    ListedState :=
  ofBase { state.base with counter := counter } calls

/-- The values that a dump shows, with the number of calls for the depth. -/
def dump (state : ListedState) : RegisterDump :=
  { state.base.dump with
    depth := UInt8.ofNat state.calls.addresses.length }

/-- Executes an instruction.  Only calls and returns concern the list. -/
def execute (state : ListedState) (random : UInt8) :
    Instruction → Except Stop ListedState
  | .leave =>
    match state.calls.latest? with
    | none => .error (.fault (.stackUnderflow state.base.counter))
    | some address =>
      match address.advance 2 with
      | .ok counter => .ok (state.goOn counter state.calls.pop)
      | .error cause => .error (.crash cause)
  | .call target =>
    if room : state.calls.addresses.length < stackCapacity then
      .ok (state.goOn target (state.calls.push state.base.counter room))
    else
      .error (.fault (.stackOverflow state.base.counter))
  | instruction =>
    (instruction.execute random state.base).map fun after =>
      ofBase after state.calls

theorem execute_of_stackless {instruction : Instruction}
    (stackless : instruction.usesStack = false) (state : ListedState)
    (random : UInt8) :
    state.execute random instruction =
      (instruction.execute random state.base).map fun after =>
        ofBase after state.calls := by
  cases instruction <;> first | rfl | cases stackless

end ListedState

structure ListedMachine where
  state : ListedState
  random : RandomSource
  lastFault : Option Fault

namespace ListedMachine

open Machine (Answer Operation Outcome Record)

structure Response (Answer : Type) where
  machine : ListedMachine
  answer : Answer
  records : List Record

def new (random : RandomSource) : ListedMachine :=
  { state := ListedState.initial, random := random, lastFault := none }

def recover (machine : ListedMachine) (counter : Word) (fault : Fault)
    (records : List Record) : Response Outcome :=
  let state := machine.state.goOn counter machine.state.calls
  { machine := { machine with state := state, lastFault := some fault },
    answer := .faulted fault,
    records :=
      records ++
        [.recovered fault (machine.lastFault == some fault) state.dump] }

def crash (machine : ListedMachine) (cause : Crash) (records : List Record) :
    Response Outcome :=
  { machine := machine, answer := .crashed cause, records := records }

def recoverPast (machine : ListedMachine) (fault : Fault)
    (records : List Record) : Response Outcome :=
  match machine.state.base.counter.advance 2 with
  | .ok counter => machine.recover counter fault records
  | .error cause => machine.crash cause records

def stepDecoded (machine : ListedMachine) (word : Word)
    (instruction : Instruction) : Response Outcome :=
  let records := [.decoded word instruction machine.state.dump]
  let random := instruction.sourceAfter machine.random
  match machine.state.execute (instruction.byteFrom machine.random)
    instruction with
  | .ok state =>
    { machine := { state := state, random := random, lastFault := none },
      answer :=
        Machine.outcomeOf instruction machine.state.base state.base,
      records := records }
  | .error (.fault fault) =>
    { machine with random := random }.recoverPast fault records
  | .error (.crash cause) =>
    { machine with random := random }.crash cause records

def step (machine : ListedMachine) : Response Outcome :=
  match machine.state.base.fetch with
  | .error fault => machine.recover machine.state.base.counter fault []
  | .ok word =>
    match Instruction.decode word with
    | some instruction => machine.stepDecoded word instruction
    | none =>
      machine.recoverPast (.unknownOpcode word machine.state.base.counter) []

/-- The machine without its calls. -/
def base (machine : ListedMachine) : Machine :=
  { state := machine.state.base,
    random := machine.random,
    lastFault := machine.lastFault }

/-- A response of a machine without calls as one of a machine with calls. -/
def Response.ofBase {Answer : Type} (calls : CallList)
    (response : Machine.Response Answer) : Response Answer :=
  { machine :=
      { state := .ofBase response.machine.state calls,
        random := response.machine.random,
        lastFault := response.machine.lastFault },
    answer := response.answer,
    records := response.records }

/-- Does an operation.  Only steps and resets concern the calls. -/
def perform (machine : ListedMachine) : Operation → Response Answer
  | .step =>
    let response := machine.step
    { machine := response.machine,
      answer := .step response.answer,
      records := response.records }
  | .reset => .ofBase CallList.empty (machine.base.perform .reset)
  | operation =>
    .ofBase machine.state.calls (machine.base.perform operation)

def responses (machine : ListedMachine) :
    List Operation → List (Response Answer)
  | [] => []
  | operation :: rest =>
    let response := machine.perform operation
    response :: response.machine.responses rest

end ListedMachine

/-! ### Seeing a call stack as a list -/

namespace CallStack

/-- The addresses in use, of which there are no more than slots. -/
def calls (stack : CallStack) : CallList :=
  { addresses := stack.addresses,
    length_le := by
      simp only [addresses, List.length_take, Vector.length_toList]
      exact Nat.min_le_right _ _ }

variable {stack : CallStack}

theorem length_addresses (shallow : stack.depth.toNat ≤ stackCapacity) :
    stack.addresses.length = stack.depth.toNat := by
  simp only [addresses, List.length_take, Vector.length_toList]
  exact Nat.min_eq_left shallow

theorem getElem?_addresses {place : Nat} (used : place < stack.depth.toNat) :
    stack.addresses[place]? = stack.slot? place := by
  rw [addresses, List.getElem?_take_of_lt used, slot?,
    Vector.getElem?_toList]

theorem latest?_calls (shallow : stack.depth.toNat ≤ stackCapacity)
    (called : stack.depth.toNat ≠ 0) :
    stack.calls.latest? = stack.slot? stack.top := by
  have used : stack.depth.toNat - 1 < stack.depth.toNat := by omega
  rw [CallList.latest?, List.getLast?_eq_getElem?]
  change stack.addresses[stack.addresses.length - 1]? = _
  rw [length_addresses shallow, getElem?_addresses used, top]

theorem latest?_calls_of_empty (empty : stack.depth.toNat = 0) :
    stack.calls.latest? = none := by
  simp [CallList.latest?, calls, addresses, empty]

theorem calls_pop (shallow : stack.depth.toNat ≤ stackCapacity)
    (called : stack.depth.toNat ≠ 0) :
    stack.pop.calls = stack.calls.pop := by
  have shallower : stack.pop.depth.toNat = stack.depth.toNat - 1 := by
    have deeper := toNat_depth_pop called
    omega
  ext1
  change stack.slots.toList.take stack.pop.depth.toNat =
    stack.addresses.dropLast
  rw [List.dropLast_eq_take, length_addresses shallow, addresses,
    List.take_take, shallower, Nat.min_eq_left (Nat.sub_le _ _)]

/-- A new address goes into the first slot that is not in use, so of the slots
up to there only the last one is written. -/
theorem calls_push (room : stack.depth.toNat < stackCapacity)
    (listed : stack.calls.addresses.length < stackCapacity) (address : Word) :
    (stack.push address).calls = stack.calls.push address listed := by
  have inside : stack.depth.toNat < stack.slots.toList.length := by
    rw [Vector.length_toList]
    exact room
  ext1
  change (stack.slots.setIfInBounds _ address).toList.take
      (stack.push address).depth.toNat = stack.addresses ++ [address]
  rw [toNat_depth_push room, List.take_add_one, Vector.toList_setIfInBounds,
    List.take_set_of_le (Nat.le_refl _), List.getElem?_set_self inside]
  rfl

end CallStack

namespace Instruction

theorem missingRegister?_withStack (instruction : Instruction) (state : State)
    (stack : CallStack) :
    instruction.missingRegister? { state with stack := stack } =
      instruction.missingRegister? state := by
  cases instruction <;> rfl

section Stackless

variable {instruction : Instruction} (stackless : instruction.usesStack = false)
  (random : UInt8) (state : State) (stack : CallStack)
include stackless

theorem fault?_withStack :
    instruction.fault? { state with stack := stack } =
      instruction.fault? state := by
  cases instruction <;> first | rfl | cases stackless

theorem continuation_withStack :
    instruction.continuation { state with stack := stack } =
      instruction.continuation state := by
  cases instruction <;> first | rfl | cases stackless

theorem effect_withStack :
    instruction.effect random { state with stack := stack } =
      { instruction.effect random state with stack := stack } := by
  cases instruction with
  | leave => cases stackless
  | call target => cases stackless
  | awaitKey x =>
      simp only [effect, keyTaken]
      cases state.keypad.lowest? <;> rfl
  | _ => rfl

/-- An instruction that has nothing to do with the call stack runs on another
one just as well. -/
theorem execute_withStack :
    instruction.execute random { state with stack := stack } =
      (instruction.execute random state).map fun after =>
        { after with stack := stack } := by
  rw [execute, execute, fault?_withStack stackless,
    missingRegister?_withStack, continuation_withStack stackless,
    effect_withStack stackless]
  cases instruction.fault? state with
  | some fault => rfl
  | none =>
      cases instruction.missingRegister? state with
      | some name => rfl
      | none => cases instruction.continuation state <;> rfl

end Stackless

theorem execute_leave (random : UInt8) (state : State) :
    leave.execute random state =
      if state.stack.depth = 0 then
        .error (.fault (.stackUnderflow state.counter))
      else
        match returnTarget state.stack with
        | .ok counter =>
          .ok { state with counter := counter, stack := state.stack.pop }
        | .error cause => .error (.crash cause) := by
  by_cases empty : state.stack.depth = 0
  · rw [execute, fault?, if_pos empty, if_pos empty]
  · rw [execute, fault?, if_neg empty, if_neg empty, continuation_leave]
    cases returnTarget state.stack <;> rfl

theorem execute_call (target : Word) (random : UInt8) (state : State) :
    (call target).execute random state =
      if stackCapacity ≤ state.stack.depth.toNat then
        .error (.fault (.stackOverflow state.counter))
      else
        .ok { state with
          counter := target
          stack := state.stack.push state.counter } := by
  by_cases full : stackCapacity ≤ state.stack.depth.toNat
  · rw [execute, fault?, if_pos full, if_pos full]
  · rw [execute, fault?, if_neg full, if_neg full]
    rfl

theorem stack_of_execute {instruction : Instruction} {random : UInt8}
    {before after : State} (stackless : instruction.usesStack = false)
    (executed : instruction.execute random before = .ok after) :
    after.stack = before.stack := by
  obtain ⟨_, _, counter, _, rfl⟩ := success_of_execute executed
  change (instruction.effect random before).stack = _
  rw [stack_effect]
  cases instruction with
  | leave => cases stackless
  | call target => cases stackless
  | _ => rfl

end Instruction

namespace State

/-- A state with its call stack seen as a list. -/
def listed (state : State) : ListedState :=
  .ofBase state state.stack.calls

variable {state : State}

theorem dump_listed (shallow : state.stack.depth.toNat ≤ stackCapacity) :
    state.listed.dump = state.dump := by
  have depth :
      UInt8.ofNat state.stack.addresses.length = state.stack.depth := by
    rw [CallStack.length_addresses shallow, UInt8.ofNat_toNat]
  simp only [ListedState.dump, listed, ListedState.ofBase, CallStack.calls,
    depth]
  rfl

theorem execute_listed_leave
    (shallow : state.stack.depth.toNat ≤ stackCapacity) (random : UInt8) :
    state.listed.execute random .leave =
      (Instruction.leave.execute random state).map listed := by
  rw [Instruction.execute_leave, ListedState.execute]
  by_cases empty : state.stack.depth = 0
  · have none := CallStack.latest?_calls_of_empty (congrArg UInt8.toNat empty)
    simp only [listed, ListedState.ofBase, none, if_pos empty]
    rfl
  · have called : state.stack.depth.toNat ≠ 0 :=
      fun zero => empty (UInt8.toNat_inj.mp zero)
    have latest := CallStack.latest?_calls shallow called
    obtain ⟨address, found⟩ := state.stack.exists_slot?
      (show state.stack.top < stackCapacity by rw [CallStack.top]; omega)
    rw [found] at latest
    simp only [listed, ListedState.ofBase, latest, if_neg empty,
      Instruction.returnTarget, found]
    cases address.advance 2 with
    | error cause => rfl
    | ok counter =>
        change Except.ok (ListedState.ofBase _ state.stack.calls.pop) = _
        rw [← CallStack.calls_pop shallow called]
        rfl

theorem execute_listed_call
    (shallow : state.stack.depth.toNat ≤ stackCapacity) (target : Word)
    (random : UInt8) :
    state.listed.execute random (.call target) =
      ((Instruction.call target).execute random state).map listed := by
  have length : state.listed.calls.addresses.length =
      state.stack.depth.toNat := CallStack.length_addresses shallow
  rw [Instruction.execute_call, ListedState.execute]
  by_cases full : stackCapacity ≤ state.stack.depth.toNat
  · rw [dif_neg (by omega), if_pos full]
    rfl
  · have room : state.listed.calls.addresses.length < stackCapacity := by omega
    rw [dif_pos room, if_neg full]
    change Except.ok
      (ListedState.ofBase _ (state.stack.calls.push state.counter room)) = _
    rw [← CallStack.calls_push (by omega) room]
    rfl

/-- An instruction runs on a list of calls as on the call stack that the list
was taken from. -/
theorem execute_listed (shallow : state.stack.depth.toNat ≤ stackCapacity)
    (random : UInt8) (instruction : Instruction) :
    state.listed.execute random instruction =
      (instruction.execute random state).map listed := by
  cases stack : instruction.usesStack with
  | true =>
      cases instruction with
      | leave => exact execute_listed_leave shallow random
      | call target => exact execute_listed_call shallow target random
      | _ => cases stack
  | false =>
      rw [ListedState.execute_of_stackless stack]
      change (instruction.execute random
          { state with stack := CallStack.empty }).map _ = _
      rw [Instruction.execute_withStack stack]
      cases executed : instruction.execute random state with
      | error stop => rfl
      | ok after =>
          have kept := Instruction.stack_of_execute stack executed
          simp only [Except.map, listed, kept]
          rfl

end State

namespace Machine

/-- A machine with its call stack seen as a list. -/
def listed (machine : Machine) : ListedMachine :=
  { state := machine.state.listed,
    random := machine.random,
    lastFault := machine.lastFault }

def Response.listed {Answer : Type} (response : Response Answer) :
    ListedMachine.Response Answer :=
  { machine := response.machine.listed,
    answer := response.answer,
    records := response.records }

section Steps

variable {machine : Machine}
  (shallow : machine.state.stack.depth.toNat ≤ stackCapacity)
include shallow

theorem recover_listed (counter : Word) (fault : Fault)
    (records : List Record) :
    machine.listed.recover counter fault records =
      (machine.recover counter fault records).listed := by
  let stopped : State := { machine.state with counter := counter }
  have shallowStopped : stopped.stack.depth.toNat ≤ stackCapacity := shallow
  have dump := State.dump_listed shallowStopped
  rw [ListedMachine.recover, recover, Response.listed, ← dump]
  rfl

theorem recoverPast_listed (fault : Fault) (records : List Record) :
    machine.listed.recoverPast fault records =
      (machine.recoverPast fault records).listed := by
  rw [ListedMachine.recoverPast, recoverPast]
  change (match machine.state.counter.advance 2 with
    | .ok counter => machine.listed.recover counter fault records
    | .error cause => machine.listed.crash cause records) = _
  cases machine.state.counter.advance 2 with
  | ok counter => exact recover_listed shallow counter fault records
  | error cause => rfl

theorem stepDecoded_listed (word : Word) (instruction : Instruction) :
    machine.listed.stepDecoded word instruction =
      (machine.stepDecoded word instruction).listed := by
  have runs := State.execute_listed shallow
    (instruction.byteFrom machine.random) instruction
  have dump := State.dump_listed shallow
  simp only [ListedMachine.stepDecoded, stepDecoded, listed, runs, dump,
    Instruction.executeDrawing_eq]
  cases instruction.execute (instruction.byteFrom machine.random)
      machine.state with
  | ok state => rfl
  | error stop =>
      cases stop with
      | fault fault =>
        let drawn : Machine :=
          { machine with random := instruction.sourceAfter machine.random }
        have shallowDrawn : drawn.state.stack.depth.toNat ≤ stackCapacity :=
          shallow
        exact recoverPast_listed shallowDrawn fault _
      | crash cause => rfl

theorem step_listed : machine.listed.step = machine.step.listed := by
  have fetched : machine.listed.state.base.fetch = machine.state.fetch := rfl
  rw [ListedMachine.step, step, fetched]
  cases machine.state.fetch with
  | error fault => exact recover_listed shallow _ fault []
  | ok word =>
      cases decoded : Instruction.decode word with
      | some instruction =>
          simp only [decoded]
          exact stepDecoded_listed shallow word instruction
      | none =>
          simp only [decoded]
          exact recoverPast_listed shallow _ []

end Steps

/-- Apart from steps and resets no operation has to do with the call stack. -/
theorem perform_base_listed (machine : Machine) {operation : Operation}
    (unstepped : operation ≠ .step) (unreset : operation ≠ .reset) :
    .ofBase machine.state.stack.calls
        (machine.listed.base.perform operation) =
      (machine.perform operation).listed := by
  cases operation with
  | step => exact absurd rfl unstepped
  | reset => exact absurd rfl unreset
  | load program =>
      simp only [perform, load]
      split <;> rfl
  | loadFrom reader =>
      simp only [perform, loadFrom, load]
      split
      · split <;> rfl
      · rfl
  | setKey key down =>
      simp only [perform, setKey]
      split <;> rfl
  | _ => rfl

/-- An operation does to a machine with a list of calls what it does to the
machine with a call stack. -/
theorem perform_listed {machine : Machine}
    (shallow : machine.state.stack.depth.toNat ≤ stackCapacity)
    (operation : Operation) :
    machine.listed.perform operation =
      (machine.perform operation).listed := by
  cases operation with
  | step =>
      rw [ListedMachine.perform, step_listed shallow]
      rfl
  | reset => rfl
  | _ => exact machine.perform_base_listed (by simp) (by simp)

/-- Operations do to a machine with a list of calls what they do to the machine
with a call stack. -/
theorem responses_listed {machine : Machine}
    (shallow : machine.state.stack.depth.toNat ≤ stackCapacity)
    (operations : List Operation) :
    machine.listed.responses operations =
      (machine.responses operations).map Response.listed := by
  induction operations generalizing machine with
  | nil => rfl
  | cons operation rest ih =>
      have later := ih (depth_perform_le shallow operation)
      simp only [ListedMachine.responses, responses, List.map_cons,
        perform_listed shallow]
      exact congrArg _ later

end Machine

end ChipEight
