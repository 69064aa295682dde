import ChipEight.Machine.Loading
import ChipEight.Proofs.Instruction.Form
import ChipEight.Proofs.Memory.Access
import ChipEight.Proofs.Memory.Contents

/-!
# Programs as bytes

A program is assembled by writing down the words of its instructions one after
another.  Once it is loaded, each word can be fetched from its place and
decodes to its instruction again.
-/

namespace ChipEight

namespace Word

/-- The bytes that a word is stored as. -/
def bytes (word : Word) : List UInt8 :=
  [word.high, word.low]

end Word

namespace Instruction

/-- The bytes of a program.  Each instruction comes with the digit that is put
where a shift ignores one. -/
def assemble (program : List (Instruction × UInt8)) : List UInt8 :=
  program.flatMap fun (instruction, spare) =>
    Word.bytes (instruction.encodeWith spare)

theorem length_assemble (program : List (Instruction × UInt8)) :
    (assemble program).length = 2 * program.length := by
  induction program with
  | nil => rfl
  | cons entry rest ih =>
      have length : (assemble (entry :: rest)).length =
          2 + (assemble rest).length :=
        List.length_append
      rw [length, ih, List.length_cons]
      omega

/-- Every instruction takes two bytes, and the rest of a program stands two
bytes further on. -/
theorem getElem?_assemble {program : List (Instruction × UInt8)}
    {place : Nat} {instruction : Instruction} {spare : UInt8}
    (found : program[place]? = some (instruction, spare)) :
    (assemble program)[2 * place]? = some (instruction.encodeWith spare).high ∧
      (assemble program)[2 * place + 1]? =
        some (instruction.encodeWith spare).low := by
  induction program generalizing place with
  | nil => cases found
  | cons entry rest ih =>
      cases place with
      | zero =>
          cases found
          exact ⟨rfl, rfl⟩
      | succ before => exact ih found

end Instruction

namespace State

/-- A word that was stored at the counter is fetched from there. -/
theorem fetch_store {state : State} {memory : Memory} {start offset : Nat}
    {content : List UInt8} {word : Word}
    (stored : state.memory = memory.store start content)
    (fits : start + content.length ≤ memorySize)
    (there : state.counter.toNat = start + offset)
    (first : content[offset]? = some word.high)
    (second : content[offset + 1]? = some word.low) :
    state.fetch = .ok word := by
  have inside := (List.getElem?_eq_some_iff.mp second).1
  rw [fetch_eq_ok_iff, stored, there]
  constructor
  · simp only [memorySize] at fits
    omega
  · rw [memory.byte_store_of_getElem? fits first, Nat.add_assoc,
      memory.byte_store_of_getElem? fits second, Word.ofBytes_high_low]

end State

namespace Machine

/-- The word of every instruction of a loaded program is fetched from its
place. -/
theorem fetch_of_load_assemble {machine : Machine}
    {program : List (Instruction × UInt8)} (short : program.length ≤ 1792)
    {place : Nat} {instruction : Instruction} {spare : UInt8}
    (found : program[place]? = some (instruction, spare)) :
    State.fetch
        { (machine.load (Instruction.assemble program)).machine.state with
          counter := programStart + UInt16.ofNat (2 * place) } =
      .ok (instruction.encodeWith spare) := by
  have below : place < program.length :=
    (List.getElem?_eq_some_iff.mp found).1
  have length := Instruction.length_assemble program
  have fits : ¬ programCapacity < (Instruction.assemble program).length := by
    rw [length, programCapacity]
    omega
  obtain ⟨first, second⟩ := Instruction.getElem?_assemble found
  rw [load, if_neg fits]
  apply State.fetch_store rfl _ _ first second
  · rw [programCapacity] at fits
    simp only [programStart, memorySize, UInt16.reduceToNat]
    omega
  · simp only [programStart, UInt16.toNat_add, UInt16.toNat_ofNat',
      UInt16.reduceToNat]
    omega

/-- Programs of up to 1792 instructions whose operands fit load, and every
instruction is fetched and decoded from its place again.  Conversely a word
decodes to an instruction exactly if it has the form of its kind and of no
other, the operands fit, and it is a word of that instruction; it decodes to
none exactly if it has no form. -/
theorem programs_decode_back :
    (∀ (machine : Machine) (program : List (Instruction × UInt8)),
      program.length ≤ 1792 →
        (∀ entry ∈ program, entry.1.Encodable ∧ entry.2.toNat < 0x10) →
          (machine.load (Instruction.assemble program)).answer = .ok () ∧
            ∀ place instruction spare,
              program[place]? = some (instruction, spare) →
                ∃ word,
                  State.fetch
                      { (machine.load
                          (Instruction.assemble program)).machine.state with
                        counter :=
                          programStart + UInt16.ofNat (2 * place) } =
                    .ok word ∧
                    Instruction.decode word = some instruction) ∧
      (∀ (word : Word) (instruction : Instruction),
        Instruction.decode word = some instruction ↔
          instruction.form.Matches word ∧
            (∀ other : Instruction, other.form.Matches word →
              other.SameKind instruction) ∧
            instruction.Encodable ∧
            ∃ spare : UInt8, spare.toNat < 0x10 ∧
              instruction.encodeWith spare = word) ∧
      ∀ word : Word, Instruction.decode word = none ↔
        ∀ instruction : Instruction, ¬ instruction.form.Matches word := by
  refine ⟨?loaded, ?decoded, ?undecoded⟩
  case loaded =>
    intro machine program short operandsFit
    constructor
    · have fits :
          ¬ programCapacity < (Instruction.assemble program).length := by
        rw [Instruction.length_assemble, programCapacity]
        omega
      rw [load, if_neg fits]
    · intro place instruction spare found
      obtain ⟨encodable, fitsSpare⟩ :=
        operandsFit _ (List.mem_of_getElem? found)
      exact ⟨_, fetch_of_load_assemble short found,
        Instruction.decode_encodeWith encodable fitsSpare⟩
  case decoded =>
    intro word instruction
    constructor
    · intro decoded
      have fixed := Instruction.matches_of_decode decoded
      exact ⟨fixed, fun _ alike => Instruction.sameKind_of_matches fixed alike,
        Instruction.decode_eq_some_iff.mp decoded⟩
    · rintro ⟨_, _, encoded⟩
      exact Instruction.decode_eq_some_iff.mpr encoded
  case undecoded => exact fun _ => Instruction.decode_eq_none_iff

end Machine

end ChipEight
