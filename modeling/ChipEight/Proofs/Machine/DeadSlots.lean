import ChipEight.Proofs.Machine.ListedCalls
import ChipEight.Proofs.Machine.Reachability

/-!
# Slots that are not in use

A slot of the call stack keeps what a call put there after the call has
returned.  Nobody ever sees it again: two machines that differ in such slots
only are the same machine with a list of calls, so that no operations tell them
apart, and they still differ in such slots only.
-/

namespace ChipEight

namespace CallStack

/-- A call stack with arbitrary words in the slots that are not in use. -/
def withUnused (stack : CallStack) (word : Nat → Word) : CallStack :=
  { stack with
    slots := Vector.ofFn fun place : Fin 16 =>
      if place.val < stack.depth.toNat then stack.slots.get place
      else word place.val }

theorem depth_withUnused (stack : CallStack) (word : Nat → Word) :
    (stack.withUnused word).depth = stack.depth := by
  rw [withUnused]

theorem slot?_withUnused {stack : CallStack} (word : Nat → Word) {place : Nat}
    (used : place < stack.depth.toNat) :
    (stack.withUnused word).slot? place = stack.slot? place := by
  by_cases inside : place < 16
  · simp [withUnused, slot?, inside, used, Vector.get]
  · simp [slot?, inside]

end CallStack

namespace State

/-- Two states differ at most in slots of their call stacks that are not in
use. -/
structure AgreesInUse (first second : State) : Prop where
  rest_eq : second = { first with stack := second.stack }
  depth_eq : second.stack.depth = first.stack.depth
  slot?_eq : ∀ place < first.stack.depth.toNat,
    second.stack.slot? place = first.stack.slot? place

variable {first second : State}

/-- States that agree in use have the same calls: both lists end at the depth,
and below it the slots agree. -/
theorem AgreesInUse.listed_eq (agrees : first.AgreesInUse second)
    (shallow : first.stack.depth.toNat ≤ stackCapacity) :
    second.listed = first.listed := by
  obtain ⟨rest, depth, slots⟩ := agrees
  ext1
  · change { second with stack := CallStack.empty } = _
    rw [rest]
    rfl
  · ext1
    apply List.ext_getElem?
    intro place
    change second.stack.addresses[place]? = first.stack.addresses[place]?
    by_cases used : place < first.stack.depth.toNat
    · rw [CallStack.getElem?_addresses (by rw [depth]; exact used),
        CallStack.getElem?_addresses used, slots place used]
    · rw [List.getElem?_eq_none, List.getElem?_eq_none]
      · rw [CallStack.length_addresses shallow]
        exact Nat.not_lt.mp used
      · rw [CallStack.length_addresses (by rw [depth]; exact shallow), depth]
        exact Nat.not_lt.mp used

theorem agreesInUse_of_listed_eq (same : second.listed = first.listed)
    (firstShallow : first.stack.depth.toNat ≤ stackCapacity)
    (secondShallow : second.stack.depth.toNat ≤ stackCapacity) :
    first.AgreesInUse second := by
  have bases : { second with stack := CallStack.empty } =
      { first with stack := CallStack.empty } :=
    congrArg ListedState.base same
  have addresses : second.stack.addresses = first.stack.addresses :=
    congrArg (fun state => state.calls.addresses) same
  have depths : second.stack.depth = first.stack.depth := by
    have lengths := congrArg List.length addresses
    rw [CallStack.length_addresses firstShallow,
      CallStack.length_addresses secondShallow] at lengths
    exact UInt8.toNat_inj.mp lengths
  refine ⟨?_, depths, ?_⟩
  · exact congrArg (fun state => { state with stack := second.stack }) bases
  · intro place used
    rw [← CallStack.getElem?_addresses used,
      ← CallStack.getElem?_addresses (by rw [depths]; exact used), addresses]

end State

namespace Machine

/-- What the owner of a machine is told of an operation. -/
def Response.told (response : Response Answer) : Answer × List Record :=
  (response.answer, response.records)

/-- Two machines differ at most in slots of their call stacks that are not in
use. -/
structure AgreesInUse (first second : Machine) : Prop where
  state : first.state.AgreesInUse second.state
  random_eq : second.random = first.random
  lastFault_eq : second.lastFault = first.lastFault

/-- A machine with arbitrary words in the slots that are not in use. -/
def withUnused (machine : Machine) (word : Nat → Word) : Machine :=
  { machine with
    state :=
      { machine.state with stack := machine.state.stack.withUnused word } }

variable {first second : Machine}

theorem agreesInUse_withUnused (machine : Machine) (word : Nat → Word) :
    machine.AgreesInUse (machine.withUnused word) := by
  rw [withUnused]
  refine ⟨⟨rfl, ?_, ?_⟩, rfl, rfl⟩
  · exact machine.state.stack.depth_withUnused word
  · exact fun _ => CallStack.slot?_withUnused word

theorem AgreesInUse.listed_eq (agrees : first.AgreesInUse second)
    (shallow : first.state.stack.depth.toNat ≤ stackCapacity) :
    second.listed = first.listed := by
  simp only [listed, agrees.state.listed_eq shallow, agrees.random_eq,
    agrees.lastFault_eq]

theorem agreesInUse_of_listed_eq (same : second.listed = first.listed)
    (firstShallow : first.state.stack.depth.toNat ≤ stackCapacity)
    (secondShallow : second.state.stack.depth.toNat ≤ stackCapacity) :
    first.AgreesInUse second where
  state := State.agreesInUse_of_listed_eq
    (congrArg ListedMachine.state same) firstShallow secondShallow
  random_eq := congrArg ListedMachine.random same
  lastFault_eq := congrArg ListedMachine.lastFault same

/-- Machines that differ in unused slots only do the same, and afterwards they
still differ in such slots only.  Seen with a list of calls, they are one
machine. -/
theorem AgreesInUse.perform (agrees : first.AgreesInUse second)
    (shallow : first.state.stack.depth.toNat ≤ stackCapacity)
    (operation : Operation) :
    (first.perform operation).machine.AgreesInUse
        (second.perform operation).machine ∧
      (second.perform operation).told = (first.perform operation).told := by
  have secondShallow : second.state.stack.depth.toNat ≤ stackCapacity := by
    rw [agrees.state.depth_eq]
    exact shallow
  have same : (second.perform operation).listed =
      (first.perform operation).listed := by
    rw [← perform_listed shallow, ← perform_listed secondShallow,
      agrees.listed_eq shallow]
  constructor
  · exact agreesInUse_of_listed_eq
      (congrArg ListedMachine.Response.machine same)
      (depth_perform_le shallow operation)
      (depth_perform_le secondShallow operation)
  · exact congrArg (fun response => (response.answer, response.records)) same

theorem AgreesInUse.run (agrees : first.AgreesInUse second)
    (shallow : first.state.stack.depth.toNat ≤ stackCapacity)
    (operations : List Operation) :
    (first.run operations).AgreesInUse (second.run operations) ∧
      (second.responses operations).map Response.told =
        (first.responses operations).map Response.told := by
  induction operations generalizing first second with
  | nil => exact ⟨agrees, rfl⟩
  | cons operation rest ih =>
      obtain ⟨still, told⟩ := agrees.perform shallow operation
      obtain ⟨last, later⟩ := ih still (depth_perform_le shallow operation)
      refine ⟨last, ?_⟩
      simp only [responses, List.map_cons, told]
      rw [later]

/-- Slots that are not in use are never seen.  Whatever a machine went through,
with arbitrary words in the slots past its depth it is told apart by no
operations: they have the same answers and the same records, and after them the
machines differ again in such slots at most.  For a machine does what the
machine does that lists its calls, adds to the list with every call and takes
from it with every return. -/
theorem unused_slots_unobservable (random : RandomSource) :
    (∀ (before after : List Operation) (word : Nat → Word),
      let machine := (new random).run before
      let other := machine.withUnused word
      (other.responses after).map Response.told =
          (machine.responses after).map Response.told ∧
        (machine.run after).AgreesInUse (other.run after)) ∧
    ∀ operations,
      ((new random).responses operations).map Response.listed =
        (ListedMachine.new random).responses operations := by
  refine ⟨?unobservable, ?refinement⟩
  case unobservable =>
    intro before after word machine other
    have reachable : machine.Reachable := ⟨random, before, rfl⟩
    have agrees := machine.agreesInUse_withUnused word
    obtain ⟨still, told⟩ := agrees.run reachable.wellFormed.depth_le after
    exact ⟨told, still⟩
  case refinement =>
    intro operations
    have fresh : (new random).listed = ListedMachine.new random := rfl
    rw [← fresh, responses_listed State.wellFormed_initial.depth_le]

end Machine

end ChipEight
