import Mathlib.Data.Set.Card
import ChipEight.Proofs.Machine.LogLines
import ChipEight.Proofs.Session.Moves
import ChipEight.Session.Opening

/-!
# Waits are announced once

A *wait* is a stretch of steps that all wait for a key and that is not part of a
longer one.  The processor remembers only whether its latest step waited, and
says something when a step waits and the one before it did not.  So it has
announced as many waits as the results so far contain, each at its first step,
whatever the results are and whatever the frame loop does between two steps.
-/

namespace ChipEight

/-! ### Waits in a sequence of results -/

/-- The results from `first` up to `stop` all wait for a key, and no longer
stretch around them does. -/
structure IsWait (outcomes : List Machine.Outcome) (first stop : Nat) :
    Prop where
  filled : first < stop
  awaits : ∀ place, first ≤ place → place < stop →
    outcomes[place]? = some .awaiting
  begins : first = 0 ∨ outcomes[first - 1]? ≠ some .awaiting
  ends : outcomes[stop]? ≠ some .awaiting

/-- A result waits for a key and the one before it, if there is one, does
not. -/
def BeginsWait (outcomes : List Machine.Outcome) (place : Nat) : Prop :=
  outcomes[place]? = some .awaiting ∧
    (place = 0 ∨ outcomes[place - 1]? ≠ some .awaiting)

instance (outcomes : List Machine.Outcome) :
    DecidablePred (BeginsWait outcomes) :=
  fun _ => inferInstanceAs (Decidable (_ ∧ _))

/-- The places where waits begin. -/
def beginnings (outcomes : List Machine.Outcome) : Finset Nat :=
  (Finset.range outcomes.length).filter (BeginsWait outcomes)

section Waits

variable {outcomes : List Machine.Outcome}

theorem BeginsWait.lt_length {place : Nat} (begins : BeginsWait outcomes place) :
    place < outcomes.length :=
  (List.getElem?_eq_some_iff.mp begins.1).1

theorem mem_beginnings_iff {place : Nat} :
    place ∈ beginnings outcomes ↔ BeginsWait outcomes place := by
  rw [beginnings, Finset.mem_filter, Finset.mem_range]
  exact ⟨And.right, fun begins => ⟨begins.lt_length, begins⟩⟩

/-- What begins somewhere goes on until the first result that does not wait. -/
theorem exists_isWait_iff {place : Nat} :
    (∃ stop, IsWait outcomes place stop) ↔ BeginsWait outcomes place := by
  constructor
  case mp =>
    rintro ⟨stop, wait⟩
    exact ⟨wait.awaits place le_rfl wait.filled, wait.begins⟩
  case mpr =>
    intro begins
    have stops : ∃ stop, place ≤ stop ∧ outcomes[stop]? ≠ some .awaiting := by
      have past : outcomes[outcomes.length]? = none :=
        List.getElem?_eq_none le_rfl
      refine ⟨outcomes.length, begins.lt_length.le, ?_⟩
      rw [past]
      exact Option.some_ne_none _ ∘ Eq.symm
    obtain ⟨least, ends⟩ := Nat.find_spec stops
    refine ⟨Nat.find stops, ⟨?filled, ?awaits, begins.2, ends⟩⟩
    case filled =>
      refine lt_of_le_of_ne least ?_
      intro same
      rw [← same] at ends
      exact ends begins.1
    case awaits =>
      intro between reached before
      by_contra silent
      exact Nat.find_min stops before ⟨reached, silent⟩

theorem IsWait.stop_le {first stop other : Nat}
    (wait : IsWait outcomes first stop) (second : IsWait outcomes first other) :
    stop ≤ other := by
  by_contra longer
  exact second.ends
    (wait.awaits other second.filled.le (Nat.lt_of_not_le longer))

/-- A sequence has as many waits as places where one begins. -/
theorem ncard_isWait (outcomes : List Machine.Outcome) :
    {span : Nat × Nat | IsWait outcomes span.1 span.2}.ncard =
      (beginnings outcomes).card := by
  have firsts : Prod.fst '' {span : Nat × Nat | IsWait outcomes span.1 span.2} =
      beginnings outcomes := by
    ext place
    rw [Finset.mem_coe, mem_beginnings_iff, ← exists_isWait_iff]
    simp
  have apart :
      Set.InjOn Prod.fst {span : Nat × Nat | IsWait outcomes span.1 span.2} := by
    rintro ⟨first, stop⟩ wait ⟨_, other⟩ second rfl
    exact Prod.ext rfl (le_antisymm (wait.stop_le second) (second.stop_le wait))
  rw [← apart.ncard_image, firsts, Set.ncard_coe_finset]

theorem beginsWait_append_iff {place : Nat} (within : place < outcomes.length)
    (more : List Machine.Outcome) :
    BeginsWait (outcomes ++ more) place ↔ BeginsWait outcomes place := by
  rw [BeginsWait, BeginsWait, List.getElem?_append_left within,
    List.getElem?_append_left (by omega)]

/-- A wait begins with the last result if that one waits and the one before it
did not. -/
theorem beginsWait_length_iff (outcomes : List Machine.Outcome)
    (outcome : Machine.Outcome) :
    BeginsWait (outcomes ++ [outcome]) outcomes.length ↔
      outcome = .awaiting ∧ outcomes.getLast? ≠ some .awaiting := by
  rw [BeginsWait, List.getElem?_concat_length, Option.some.injEq]
  refine and_congr_right fun _ => ?_
  cases outcomes using List.reverseRecOn with
  | nil => simp
  | append_singleton earlier last =>
      rw [List.getLast?_concat, List.length_append, List.length_singleton,
        Nat.add_sub_cancel, List.append_assoc,
        List.getElem?_append_right le_rfl]
      simp

theorem card_beginnings_concat (outcomes : List Machine.Outcome)
    (outcome : Machine.Outcome) :
    (beginnings (outcomes ++ [outcome])).card =
      (beginnings outcomes).card +
        if outcome = .awaiting ∧ outcomes.getLast? ≠ some .awaiting then 1
        else 0 := by
  have earlier : (Finset.range outcomes.length).filter
      (BeginsWait (outcomes ++ [outcome])) = beginnings outcomes := by
    apply Finset.filter_congr
    intro place within
    exact beginsWait_append_iff (Finset.mem_range.mp within) _
  have outside : outcomes.length ∉ beginnings outcomes := by
    simp [beginnings]
  rw [beginnings, List.length_append, List.length_singleton,
    Finset.range_add_one, Finset.filter_insert, earlier]
  simp only [beginsWait_length_iff]
  split
  · exact Finset.card_insert_of_notMem outside
  · rfl

end Waits

/-! ### What the processor says -/

/-- Every record has a character that the announcement of a wait does not
have. -/
theorem Machine.Record.exists_foreign (record : Record) :
    ∃ character ∈ record.characters,
      character ∉ "waiting for a key".toList := by
  cases record with
  | decoded word instruction dump =>
      refine ⟨':', ?_, by simp⟩
      change ':' ∈ decodedCharacters word instruction dump
      simp [decodedCharacters]
  | recovered fault repeated dump =>
      refine ⟨'(', ?_, by simp⟩
      change '(' ∈ recoveredCharacters fault dump
      simp [recoveredCharacters]
  | reset =>
      refine ⟨'m', ?_, by simp⟩
      change 'm' ∈ "machine reset".toList
      simp
  | loaded size =>
      refine ⟨'d', ?_, by simp⟩
      change 'd' ∈ "loaded ".toList ++ Numeral.decimal size ++
        " byte program".toList
      simp
  | keyIgnored key =>
      refine ⟨'0', ?_, by simp⟩
      change '0' ∈ "ignoring key 0x".toList ++
        Numeral.hexadecimal 2 key.toNat
      simp

namespace Notice

theorem text_eq_iff (notice : Notice) :
    notice.text = "waiting for a key" ↔ notice = waitingForKey := by
  constructor
  case mpr =>
    rintro rfl
    rfl
  case mp =>
    intro same
    cases notice with
    | machine record =>
        obtain ⟨character, member, foreign⟩ := record.exists_foreign
        have whole : (machine record).text.toList = record.characters :=
          String.toList_ofList
        rw [same] at whole
        rw [← whole] at member
        exact absurd member foreign
    | opened name size =>
        change "loaded " ++ name ++ " (" ++
          String.ofList (Numeral.decimal size) ++ " bytes)" = _ at same
        have letters := congrArg (List.head? ∘ String.toList) same
        simp at letters
    | restarted =>
        change "restarted" = _ at same
        simp at same
    | beep =>
        change "beep" = _ at same
        simp at same
    | waitingForKey => rfl

end Notice

namespace Session

/-- How many times the processor has said that it waits for a key. -/
def waitsAnnounced (session : Session) : Nat :=
  session.processorNotices.toList.countP fun notice =>
    notice.text = "waiting for a key"

/-- The session after the processor learned what a step came to. -/
def hear (session : Session)
    (response : Machine.Response Machine.Outcome) : Session :=
  { session with
    machine := response.machine,
    waiting := waits response.answer }.noteProcessor
      (response.records.map Notice.machine ++
        announcement session.waiting response.answer)

theorem move_processor (session : Session) :
    session.move .processor = session.hear session.machine.step := rfl

theorem waits_iff (outcome : Machine.Outcome) :
    waits outcome = true ↔ outcome = .awaiting := by
  cases outcome <;> simp [waits]

theorem waitsAnnounced_noteProcessor (session : Session)
    (notices : List Notice) :
    (session.noteProcessor notices).waitsAnnounced =
      session.waitsAnnounced +
        if Severity.info.heardAt session.threshold then
          notices.count .waitingForKey
        else 0 := by
  have said : (session.noteProcessor notices).waitsAnnounced =
      session.waitsAnnounced +
        (Notice.heard session.threshold notices).count .waitingForKey := by
    simp [waitsAnnounced, noteProcessor, Notice.text_eq_iff, List.count,
      beq_eq_decide]
  rw [said, Notice.heard]
  split
  case isTrue listens =>
    have kept := List.count_filter (l := notices)
      (p := fun notice : Notice => notice.severity.heardAt session.threshold)
      (a := .waitingForKey) listens
    rw [kept]
  case isFalse deaf =>
    rw [List.count_eq_zero_of_not_mem]
    intro member
    exact deaf (List.mem_filter.mp member).2

theorem waitsAnnounced_hear (session : Session)
    (response : Machine.Response Machine.Outcome) :
    (session.hear response).waitsAnnounced =
      session.waitsAnnounced +
        if Severity.info.heardAt session.threshold ∧
            response.answer = .awaiting ∧ session.waiting = false then 1
        else 0 := by
  have silent :
      (response.records.map Notice.machine).count .waitingForKey = 0 := by
    rw [List.count_eq_zero]
    simp
  have announced :
      (announcement session.waiting response.answer).count .waitingForKey =
        if response.answer = .awaiting ∧ session.waiting = false then 1
        else 0 := by
    simp only [announcement, Bool.and_eq_true, waits_iff, Bool.not_eq_true']
    split <;> rfl
  have said := waitsAnnounced_noteProcessor
    { session with
      machine := response.machine,
      waiting := waits response.answer }
    (response.records.map Notice.machine ++
      announcement session.waiting response.answer)
  rw [List.count_append, silent, announced, Nat.zero_add] at said
  rw [ite_and]
  exact said

/-- The processor of a session has seen some results: it remembers whether the
last of them waited, and if the listener hears announcements, it has announced
the waits among them. -/
structure HasSeen (session : Session) (listens : Bool)
    (outcomes : List Machine.Outcome) : Prop where
  heard : Severity.info.heardAt session.threshold = listens
  waiting : session.waiting = true ↔ outcomes.getLast? = some .awaiting
  announced : session.waitsAnnounced =
    if listens then (beginnings outcomes).card else 0

section HasSeen

variable {session : Session} {listens : Bool} {outcomes : List Machine.Outcome}

theorem HasSeen.not_waiting_iff (seen : session.HasSeen listens outcomes) :
    session.waiting = false ↔ outcomes.getLast? ≠ some .awaiting := by
  rw [← Bool.not_eq_true, seen.waiting]

/-- One more result is announced if it waits and the one before it did not. -/
theorem HasSeen.hear (seen : session.HasSeen listens outcomes)
    (response : Machine.Response Machine.Outcome) :
    (session.hear response).HasSeen listens (outcomes ++ [response.answer]) := by
  constructor
  case heard => exact seen.heard
  case waiting =>
    rw [List.getLast?_concat, Option.some.injEq]
    exact waits_iff response.answer
  case announced =>
    rw [waitsAnnounced_hear, seen.announced, seen.heard,
      card_beginnings_concat]
    simp only [seen.not_waiting_iff]
    cases listens <;> simp

open scoped Classical in
/-- Whatever comes later, the next result is announced if a wait begins with
it. -/
theorem HasSeen.waitsAnnounced_hear (seen : session.HasSeen listens outcomes)
    (response : Machine.Response Machine.Outcome)
    (later : List Machine.Outcome) :
    (session.hear response).waitsAnnounced =
      session.waitsAnnounced +
        if listens ∧ ∃ stop, IsWait (outcomes ++ response.answer :: later)
            outcomes.length stop then 1
        else 0 := by
  have begins : BeginsWait (outcomes ++ response.answer :: later)
      outcomes.length ↔ response.answer = .awaiting ∧
        session.waiting = false := by
    rw [List.append_cons, beginsWait_append_iff (by simp),
      beginsWait_length_iff, seen.not_waiting_iff]
  rw [Session.waitsAnnounced_hear, seen.heard]
  simp only [exists_isWait_iff, begins]

theorem HasSeen.of_same {after : Session}
    (seen : session.HasSeen listens outcomes)
    (notices : after.processorNotices = session.processorNotices)
    (waiting : after.waiting = session.waiting)
    (threshold : after.threshold = session.threshold) :
    after.HasSeen listens outcomes := by
  constructor
  case heard =>
    rw [threshold]
    exact seen.heard
  case waiting =>
    rw [waiting]
    exact seen.waiting
  case announced =>
    rw [waitsAnnounced, notices]
    exact seen.announced

theorem HasSeen.hearAll (seen : session.HasSeen listens outcomes)
    (responses : List (Machine.Response Machine.Outcome)) :
    (responses.foldl Session.hear session).HasSeen listens
      (outcomes ++ responses.map Machine.Response.answer) := by
  induction responses generalizing session outcomes with
  | nil => simpa using seen
  | cons response rest ih =>
      rw [List.foldl_cons, List.map_cons, List.append_cons]
      exact ih (seen.hear response)

end HasSeen

/-! ### In the life of a session -/

/-- What the frame loop does is nothing to the processor. -/
theorem processor_kept (session : Session) {move : Move}
    (other : move ≠ .processor) :
    (session.move move).processorNotices = session.processorNotices ∧
      (session.move move).waiting = session.waiting ∧
      (session.move move).threshold = session.threshold := by
  have rule := session.moveRule move
  generalize session.move move = after at rule ⊢
  cases rule with
  | processor => exact absurd rfl other
  | event event polling =>
      cases event.action with
      | restart =>
          rw [act, restart]
          split <;> exact ⟨rfl, rfl, rfl⟩
      | _ => exact ⟨rfl, rfl, rfl⟩
  | refresh polling => exact ⟨rfl, rfl, rfl⟩
  | @present taken drawing => cases taken <;> exact ⟨rfl, rfl, rfl⟩
  | ignored move untimely => exact ⟨rfl, rfl, rfl⟩

/-- The results of the steps that the processor makes during some moves. -/
def outcomes (session : Session) : List Move → List Machine.Outcome
  | [] => []
  | .processor :: rest =>
    session.machine.step.answer :: (session.move .processor).outcomes rest
  | move :: rest => (session.move move).outcomes rest

theorem outcomes_cons_of_ne {session : Session} {move : Move}
    (other : move ≠ .processor) (rest : List Move) :
    session.outcomes (move :: rest) = (session.move move).outcomes rest := by
  cases move with
  | processor => exact absurd rfl other
  | _ => rfl

theorem outcomes_append (session : Session) (first second : List Move) :
    session.outcomes (first ++ second) =
      session.outcomes first ++ (session.moveAll first).outcomes second := by
  induction first generalizing session with
  | nil => rfl
  | cons move rest ih =>
      rw [List.cons_append, moveAll_cons]
      by_cases steps : move = .processor
      · rw [steps, outcomes, outcomes, ih, List.cons_append]
      · rw [outcomes_cons_of_ne steps, outcomes_cons_of_ne steps, ih]

theorem HasSeen.moveAll {session : Session} {listens : Bool}
    {earlier : List Machine.Outcome}
    (seen : session.HasSeen listens earlier) (moves : List Move) :
    (session.moveAll moves).HasSeen listens
      (earlier ++ session.outcomes moves) := by
  induction moves generalizing session earlier with
  | nil => simpa [outcomes] using seen
  | cons move rest ih =>
      rw [moveAll_cons]
      by_cases steps : move = .processor
      · rw [steps, outcomes, List.append_cons]
        exact ih (seen.hear session.machine.step)
      · obtain ⟨notices, waiting, threshold⟩ := session.processor_kept steps
        rw [outcomes_cons_of_ne steps]
        exact ih (seen.of_same notices waiting threshold)

open scoped Classical in
theorem HasSeen.waitsAnnounced_move {session : Session} {listens : Bool}
    {earlier : List Machine.Outcome}
    (seen : session.HasSeen listens earlier) (move : Move)
    (rest : List Move) :
    (session.move move).waitsAnnounced =
      session.waitsAnnounced +
        if listens ∧ move = .processor ∧
            ∃ stop, IsWait (earlier ++ session.outcomes (move :: rest))
              earlier.length stop then 1
        else 0 := by
  by_cases steps : move = .processor
  · subst steps
    have next := seen.waitsAnnounced_hear session.machine.step
      ((session.move .processor).outcomes rest)
    rw [move_processor, next]
    congr 1
    exact if_congr (and_congr_right fun _ => (and_iff_right rfl).symm) rfl rfl
  · have kept := (session.processor_kept steps).1
    simp [steps, waitsAnnounced, kept]

theorem hasSeen_of_openProgram {name : String} {program : List UInt8}
    {scale : Nat} {threshold : Severity} {random : RandomSource}
    {session : Session}
    (opened : openProgram name program scale threshold random = .ok session) :
    session.HasSeen (Severity.info.heardAt threshold) [] := by
  obtain ⟨_, window, _, rfl⟩ := openProgram_eq_ok_iff.mp opened
  constructor
  case heard => rfl
  case waiting => simp [noteFrame, ready]
  case announced =>
    simp [waitsAnnounced, noteFrame, ready, beginnings]

open scoped Classical in
/-- The processor announces each wait once, at its first step.  This holds for
any results that it could hear of, and for those that it does hear of while the
frame loop does anything in between, such as starting the program over: the
number of announcements is the number of waits among the results, and with each
result it grows by one if a wait begins there, and else not at all. -/
theorem waits_announced_once {name : String} {program : List UInt8}
    {scale : Nat} {threshold : Severity} {random : RandomSource}
    {session : Session}
    (opened : openProgram name program scale threshold random = .ok session) :
    let listens := Severity.info.heardAt threshold
    (∀ responses : List (Machine.Response Machine.Outcome),
      let outcomes := responses.map Machine.Response.answer
      (responses.foldl hear session).waitsAnnounced =
          (if listens then
            {span : Nat × Nat | IsWait outcomes span.1 span.2}.ncard
          else 0) ∧
        ∀ before response after, responses = before ++ response :: after →
          ((before ++ [response]).foldl hear session).waitsAnnounced =
            (before.foldl hear session).waitsAnnounced +
              if listens ∧ ∃ stop, IsWait outcomes before.length stop then 1
              else 0) ∧
    ∀ moves : List Move,
      let outcomes := session.outcomes moves
      (session.moveAll moves).waitsAnnounced =
          (if listens then
            {span : Nat × Nat | IsWait outcomes span.1 span.2}.ncard
          else 0) ∧
        ∀ before move after, moves = before ++ move :: after →
          (session.moveAll (before ++ [move])).waitsAnnounced =
            (session.moveAll before).waitsAnnounced +
              if listens ∧ move = .processor ∧
                  ∃ stop, IsWait outcomes (session.outcomes before).length stop
                then 1
              else 0 := by
  intro listens
  have fresh := hasSeen_of_openProgram opened
  refine ⟨?results, ?moves⟩
  case results =>
    intro responses outcomes
    refine ⟨?total, ?each⟩
    case total =>
      rw [(fresh.hearAll responses).announced, ncard_isWait]
      rfl
    case each =>
      rintro before response after rfl
      have next := (fresh.hearAll before).waitsAnnounced_hear response
        (after.map Machine.Response.answer)
      rw [List.nil_append, List.length_map] at next
      rw [List.foldl_append]
      simpa [outcomes] using next
  case moves =>
    intro moves outcomes
    refine ⟨?total, ?each⟩
    case total =>
      rw [(fresh.moveAll moves).announced, ncard_isWait]
      rfl
    case each =>
      rintro before move after rfl
      have next := (fresh.moveAll before).waitsAnnounced_move move after
      rw [List.nil_append, ← outcomes_append] at next
      rw [moveAll_append]
      exact next

/-- A program that waits is started over while it waits, which begins no second
wait; it gets a key, jumps back and waits again. -/
theorem waits_announced_once_across_restart :
    let handle : Event → Move := .event
    let moves : List Move :=
      [.processor, handle (.keyDown (some ⟨"Backspace"⟩) false), .processor,
        handle (.keyDown (some ⟨"Q"⟩) false), .processor,
        handle (.keyUp (some ⟨"Q"⟩)), .processor, .processor]
    ∃ session,
      openProgram "wait" [0xF0, 0x0A, 0x12, 0x00] 10 .info
          (RandomSource.ofWords fun _ => 0) = .ok session ∧
        session.outcomes moves =
          [.awaiting, .awaiting, .executed (.awaitKey 0),
            .executed (.jump 0x200), .awaiting] ∧
        (session.moveAll moves).waitsAnnounced = 2 := by
  intro handle moves
  obtain ⟨session, opened, results⟩ : ∃ session,
      openProgram "wait" [0xF0, 0x0A, 0x12, 0x00] 10 .info
          (RandomSource.ofWords fun _ => 0) = .ok session ∧
        session.outcomes moves =
          [.awaiting, .awaiting, .executed (.awaitKey 0),
            .executed (.jump 0x200), .awaiting] :=
    ⟨_, rfl, by decide +kernel⟩
  refine ⟨session, opened, results, ?_⟩
  obtain ⟨total, _⟩ := (waits_announced_once opened).2 moves
  rw [total, results, ncard_isWait]
  decide

end Session

end ChipEight
