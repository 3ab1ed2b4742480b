import Mathlib.Data.List.Forall2
import PageServer.Proofs.Template.Arithmetic
import PageServer.Proofs.Template.StackBalance

/-! # Loops over integers

A loop whose bounds and step denote 64-bit integers is the same computation as its rounds written out
(`countedLoop`): for each value from the start to the end, in increasing order, an entry that denotes the
value is put on top of the variable's stack and the body is run. The counter begins as the value of the
start, which may be a text, and becomes an integer with the first step. Only behind the last round can it
leave the range of 64 bits, and there the loop fails.
-/

namespace PageServer.Template

/-- The value is a 64-bit integer, or a text that is read as one. -/
def Value.Denotes (v : Value) (n : Int) : Prop :=
  ∃ i : Int64, v.number = .ok (.int i) ∧ i.toInt = n

/-- The bound is the decimal spelling of a 64-bit integer, or a variable whose current value denotes one. -/
inductive Operand.Denotes (memory : Stacks Value) : Operand → Int → Prop
  | literal (i : Int64) : Denotes memory (.literal (toString i.toInt)) i.toInt
  | reference {name : String} {value : Value} {below : List Value} {n : Int}
      (held : memory.list name = value :: below) (denotes : value.Denotes n) :
      Denotes memory (.reference name) n

/-- The step denotes the integer. A step that is left out is one. -/
def StepDenotes (memory : Stacks Value) : Option Operand → Int → Prop
  | none, k => k = 1
  | some o, k => o.Denotes memory k

/-- A sum of integers is exact, or a failure if it does not fit 64 bits. -/
theorem Number.compute_add (i j : Int64) :
    compute .add (.int i) (.int j) =
      if Int64.minValue.toInt ≤ i.toInt + j.toInt ∧ i.toInt + j.toInt ≤ Int64.maxValue.toInt then
        .ok (.int (Int64.ofInt (i.toInt + j.toInt)))
      else .error (overflow .add i j) := by
  have whole : ¬((.add : BinaryOp) = .divide ∧ j = 0) := fun both => nomatch both.1
  rw [compute, if_neg whole]
  rfl

namespace Value

theorem denotes_int (i : Int64) : (Value.int i).Denotes i.toInt :=
  ⟨i, rfl, rfl⟩

theorem denotes_ofInt {n : Int} (low : Int64.minValue.toInt ≤ n) (high : n ≤ Int64.maxValue.toInt) :
    (Value.int (Int64.ofInt n)).Denotes n := by
  rw [Int64.toInt_minValue] at low
  rw [Int64.toInt_maxValue] at high
  exact ⟨Int64.ofInt n, rfl, Int64.toInt_ofInt_of_le low (by omega)⟩

theorem denotes_toString (i : Int64) : (Value.text (toString i.toInt)).Denotes i.toInt :=
  ⟨i, Number.read_toString i, rfl⟩

variable {v w : Value} {x y : Int}

theorem Denotes.range (denotes : v.Denotes x) :
    Int64.minValue.toInt ≤ x ∧ x ≤ Int64.maxValue.toInt := by
  obtain ⟨i, -, rfl⟩ := denotes
  exact ⟨Int64.minValue_le_toInt i, Int64.toInt_le i⟩

theorem Denotes.numericCompare (left : v.Denotes x) (right : w.Denotes y) :
    v.numericCompare w = .ok (Ord.compare x y) := by
  obtain ⟨i, readLeft, rfl⟩ := left
  obtain ⟨j, readRight, rfl⟩ := right
  simp only [Value.numericCompare, readLeft, readRight]
  rfl

theorem Denotes.add (left : v.Denotes x) (right : w.Denotes y) :
    v.combine .add w =
      if Int64.minValue.toInt ≤ x + y ∧ x + y ≤ Int64.maxValue.toInt then
        .ok (.int (Int64.ofInt (x + y)))
      else .error (Number.overflow .add (Int64.ofInt x) (Int64.ofInt y)) := by
  obtain ⟨i, readLeft, rfl⟩ := left
  obtain ⟨j, readRight, rfl⟩ := right
  simp only [combine, readLeft, readRight, bind, Except.bind, Number.compute_add, Int64.ofInt_toInt]
  split <;> rfl

end Value

/-- The values that are reached from the first one by steps and are not past the last one. -/
def counted (first last step : Int) : List Int :=
  (List.range ((last - first) / step + 1).toNat).map fun (i : Nat) => first + step * i

section Counted

variable {first last step : Int} (positive : 0 < step)

include positive

theorem counted_of_lt (past : last < first) : counted first last step = [] := by
  have negative : (last - first) / step < 0 := Int.ediv_neg_of_neg_of_pos (by omega) positive
  have none : ((last - first) / step + 1).toNat = 0 := by omega
  rw [counted, none, List.range_zero, List.map_nil]

theorem counted_of_le (within : first ≤ last) :
    counted first last step = first :: counted (first + step) last step := by
  have natural : 0 ≤ (last - first) / step := Int.ediv_nonneg (by omega) (by omega)
  have shifted : (last - (first + step)) / step = (last - first) / step - 1 := by
    have parts : last - (first + step) = last - first - step := by omega
    rw [parts, Int.sub_ediv_of_dvd _ (Int.dvd_refl step), Int.ediv_self (by omega)]
  have more : ((last - first) / step + 1).toNat = ((last - first) / step - 1 + 1).toNat + 1 := by omega
  rw [counted, counted, shifted, more, List.range_succ_eq_map, List.map_cons, List.map_map]
  congr 1
  · simp
  · refine List.map_congr_left fun i _ => ?_
    simp only [Function.comp, Nat.succ_eq_add_one, Int.natCast_add, Int.mul_add]
    omega

theorem mem_counted_iff {n : Int} :
    n ∈ counted first last step ↔ n ≤ last ∧ ∃ i : Nat, n = first + step * i := by
  have bound (i : Nat) : i < ((last - first) / step + 1).toNat ↔ first + step * i ≤ last := by
    have divided := Int.le_ediv_iff_mul_le (a := i) (b := last - first) positive
    rw [Int.mul_comm] at divided
    omega
  simp only [counted, List.mem_map, List.mem_range, bound]
  constructor
  · rintro ⟨i, within, rfl⟩
    exact ⟨within, i, rfl⟩
  · rintro ⟨within, i, rfl⟩
    exact ⟨i, within, rfl⟩

theorem counted_increasing : (counted first last step).Pairwise (· < ·) := by
  refine List.pairwise_map.mpr (List.pairwise_lt_range.imp fun {i j} before => ?_)
  have larger := Int.mul_lt_mul_of_pos_left (Int.ofNat_lt.mpr before) positive
  omega

theorem length_counted_le : (counted first last step).length ≤ (last - first + 1).toNat := by
  rw [counted, List.length_map, List.length_range]
  by_cases past : last < first
  · have negative : (last - first) / step < 0 := Int.ediv_neg_of_neg_of_pos (by omega) positive
    omega
  · have smaller := Int.ediv_le_self step (a := last - first) (by omega)
    omega

end Counted

namespace Eval

/-- Replaces the entries of a stack. -/
def setEntries (name : String) (values : List Value) : Eval Unit :=
  modify fun m => { m with memory := m.memory.set name values }

theorem setEntries_eq (name : String) (values : List Value) (m : Machine) :
    setEntries name values m = .ok () { m with memory := m.memory.set name values } := rfl

/-- Runs a body once for each entry in order, with the entry on top of a stack. -/
def forEach (name : String) (below : List Value) (body : Eval Unit) : List Value → Eval Unit
  | [] => pure ()
  | entry :: rest => do
    setEntries name (entry :: below)
    body
    forEach name below body rest

/-- Fails if the value that follows the last one does not fit 64 bits. -/
def requireNext (values : List Int) (step : Int) : Eval Unit :=
  match values.getLast? with
  | none => pure ()
  | some last =>
    if last + step ≤ Int64.maxValue.toInt then pure ()
    else fail (Number.overflow .add (Int64.ofInt last) (Int64.ofInt step))

/-- A loop over integers, written out. Each round has its entry on top of those that were below before the
loop, and in the end these are left. -/
def countedLoop (name : String) (below : List Value) (body : Eval Unit) (entries : List Value)
    (values : List Int) (step : Int) : Eval Unit := do
  forEach name below body entries
  requireNext values step
  setEntries name below

variable {m next : Machine} {name : String} {below : List Value} {body : Eval Unit} {entry : Value}
  {entries : List Value} {values : List Int} {n step : Int} {halt : Halt ScriptError}

theorem countedLoop_nil (m : Machine) :
    countedLoop name below body [] [] step m = .ok () { m with memory := m.memory.set name below } := rfl

theorem countedLoop_of_error
    (failed : body { m with memory := m.memory.set name (entry :: below) } = .error halt next) :
    countedLoop name below body (entry :: entries) values step m = .error halt next := by
  simp only [countedLoop, forEach, bind, EStateM.bind, setEntries_eq, failed]

/-- As long as the counter can go on, the check is that of the later values. -/
theorem requireNext_cons (fits : n + step ≤ Int64.maxValue.toInt) (m : Machine) :
    requireNext (n :: values) step m = requireNext values step m := by
  cases values with
  | nil => simp only [requireNext, List.getLast?_singleton, if_pos fits, List.getLast?_nil]
  | cons more rest => rw [requireNext, List.getLast?_cons_cons, requireNext]

theorem countedLoop_of_ok
    (done : body { m with memory := m.memory.set name (entry :: below) } = .ok () next)
    (fits : n + step ≤ Int64.maxValue.toInt) :
    countedLoop name below body (entry :: entries) (n :: values) step m =
      countedLoop name below body entries values step next := by
  simp only [countedLoop, forEach, bind, EStateM.bind, setEntries_eq, done]
  cases forEach name below body entries next with
  | ok _ later => simp only [requireNext_cons fits]
  | error halt later => rfl

theorem countedLoop_of_overflow
    (done : body { m with memory := m.memory.set name (entry :: below) } = .ok () next)
    (exceeds : ¬ n + step ≤ Int64.maxValue.toInt) :
    countedLoop name below body [entry] [n] step m =
      .error (.failed (Number.overflow .add (Int64.ofInt n) (Int64.ofInt step))) next := by
  simp only [countedLoop, forEach, bind, EStateM.bind, setEntries_eq, done, requireNext,
    List.getLast?_singleton, if_neg exceeds]
  rfl

section Round

variable {v stop increment : Value} {last : Int}

theorem peek_of_list (held : m.memory.list name = v :: below) : peek name m = .ok v m := by
  change ofExcept ((m.memory.peek name).mapError .ofUnderflow) m = .ok v m
  rw [Stacks.peek, held]
  rfl

theorem discard_pop (m : Machine) (name : String) (v : Value) (below : List Value) :
    discard (pop name) { m with memory := m.memory.set name (v :: below) } =
      .ok () { m with memory := m.memory.set name below } := by
  have popped : pop name { m with memory := m.memory.set name (v :: below) } =
      .ok v { m with memory := m.memory.set name below } := by
    simp only [pop, Stacks.pop, Stacks.list_set_self, Stacks.set_set]
  simp only [discard, Functor.discard, Functor.mapConst, Function.comp, EStateM.map, popped]

/-- Past the end, nothing happens. -/
theorem loopRound_of_past (held : m.memory.list name = v :: below) (denotes : v.Denotes n)
    (stops : stop.Denotes last) (past : last < n) :
    loopRound name stop increment body m = .ok false m := by
  have ordered : v.numericCompare stop = .ok .gt := by
    rw [denotes.numericCompare stops]
    exact congrArg _ (Int.compare_eq_gt.mpr past)
  simp only [loopRound, bind, EStateM.bind, peek_of_list held, ordered]
  rfl

/-- Up to the end, the body is run. -/
theorem loopRound_of_within (held : m.memory.list name = v :: below) (denotes : v.Denotes n)
    (stops : stop.Denotes last) (within : n ≤ last) :
    loopRound name stop increment body m =
      (do
        body
        let current ← peek name
        let next ← ofExcept (current.combine .add increment)
        setTop name next
        pure true) m := by
  have before : Ord.compare n last ≠ .gt := fun past => absurd (Int.compare_eq_gt.mp past) (by omega)
  simp only [loopRound, bind, EStateM.bind, peek_of_list held, denotes.numericCompare stops, ofExcept, pure,
    EStateM.pure, if_neg before]

theorem loopRound_of_error (held : m.memory.list name = v :: below) (denotes : v.Denotes n)
    (stops : stop.Denotes last) (within : n ≤ last) (failed : body m = .error halt next) :
    loopRound name stop increment body m = .error halt next := by
  rw [loopRound_of_within held denotes stops within]
  simp only [bind, EStateM.bind, failed]

/-- After a body that left the counter alone, the step is added to it, unless the sum does not fit. -/
theorem loopRound_of_ok (held : m.memory.list name = v :: below) (denotes : v.Denotes n)
    (stops : stop.Denotes last) (within : n ≤ last) (steps : increment.Denotes step) (positive : 0 < step)
    (done : body m = .ok () next) (kept : next.memory.list name = v :: below) :
    loopRound name stop increment body m =
      if n + step ≤ Int64.maxValue.toInt then
        .ok true { next with memory := next.memory.set name (.int (Int64.ofInt (n + step)) :: below) }
      else .error (.failed (Number.overflow .add (Int64.ofInt n) (Int64.ofInt step))) next := by
  obtain ⟨least, -⟩ := denotes.range
  have low : Int64.minValue.toInt ≤ n + step := by omega
  rw [loopRound_of_within held denotes stops within]
  simp only [bind, EStateM.bind, done, peek_of_list kept, denotes.add steps, low, true_and]
  by_cases fits : n + step ≤ Int64.maxValue.toInt
  · simp only [if_pos fits, ofExcept, pure, EStateM.pure, setTop, Stacks.setTop, kept]
  · simp only [if_neg fits]
    rfl

end Round

section Rounds

variable {v stop increment : Value} {first last : Int}

theorem iterate_succ (round : Eval Bool) (rounds : Nat) (m : Machine) :
    iterate round (rounds + 1) m =
      match round m with
      | .ok true next => iterate round rounds next
      | .ok false next => .ok () next
      | .error halt next => .error halt next := by
  simp only [iterate, bind, EStateM.bind]
  cases round m with
  | error halt next => rfl
  | ok more next => cases more <;> rfl

/-- The entries of a counter that begins as `v`. -/
def entriesFrom (v : Value) : List Int → List Value
  | [] => []
  | _ :: rest => v :: rest.map fun n => .int (Int64.ofInt n)

/-- Behind the first entry, the counter goes on as the integer that the step led to. -/
theorem entriesFrom_counted (positive : 0 < step) (within : n ≤ last) :
    entriesFrom v (counted n last step) =
      v :: entriesFrom (.int (Int64.ofInt (n + step))) (counted (n + step) last step) := by
  rw [counted_of_le positive within]
  by_cases past : last < n + step
  · rw [counted_of_lt positive past]
    rfl
  · rw [counted_of_le positive (Int.not_lt.mp past)]
    rfl

theorem entriesFrom_denote (starts : v.Denotes first) (stops : stop.Denotes last) (positive : 0 < step) :
    List.Forall₂ Value.Denotes (entriesFrom v (counted first last step)) (counted first last step) := by
  by_cases past : last < first
  · rw [counted_of_lt positive past]
    exact .nil
  · rw [counted_of_le positive (Int.not_lt.mp past)]
    refine .cons starts (List.forall₂_map_left_iff.mpr (List.forall₂_same.mpr fun n member => ?_))
    obtain ⟨within, i, rfl⟩ := (mem_counted_iff positive).mp member
    obtain ⟨least, -⟩ := starts.range
    obtain ⟨-, greatest⟩ := stops.range
    have natural := Int.mul_nonneg (Int.le_of_lt positive) (Int.natCast_nonneg i)
    exact Value.denotes_ofInt (by omega) (by omega)

/-- Where the counter stands above `below`, what is left of a loop is the same as its rounds written out. By
induction on the bound for the rounds: each body leaves the counter where it was, so that the next round finds
it above `below` again. -/
theorem iterate_eq_countedLoop (other : name ≠ echoStack) (kept : Ensures Kept body)
    (stops : stop.Denotes last) (steps : increment.Denotes step) (positive : 0 < step) (rounds : Nat)
    (enough : (counted n last step).length < rounds) (denotes : v.Denotes n) :
    (do
        iterate (loopRound name stop increment body) rounds
        discard (pop name) : Eval Unit) { m with memory := m.memory.set name (v :: below) } =
      countedLoop name below body (entriesFrom v (counted n last step)) (counted n last step) step m := by
  induction rounds generalizing m n v with
  | zero => omega
  | succ rounds ih =>
    have held : (m.memory.set name (v :: below)).list name = v :: below := Stacks.list_set_self _ _ _
    by_cases past : last < n
    · have round : loopRound name stop increment body { m with memory := m.memory.set name (v :: below) } =
          .ok false { m with memory := m.memory.set name (v :: below) } :=
        loopRound_of_past held denotes stops past
      simp only [bind, EStateM.bind, iterate_succ, round, counted_of_lt positive past, entriesFrom,
        countedLoop_nil, discard_pop]
    · have within : n ≤ last := Int.not_lt.mp past
      rw [entriesFrom_counted positive within]
      rw [counted_of_le positive within] at enough ⊢
      cases ran : body { m with memory := m.memory.set name (v :: below) } with
      | error halt next =>
        have round : loopRound name stop increment body
            { m with memory := m.memory.set name (v :: below) } = .error halt next :=
          loopRound_of_error held denotes stops within ran
        rw [countedLoop_of_error ran]
        simp only [bind, EStateM.bind, iterate_succ, round]
      | ok _ next =>
        have same : next.memory.list name = v :: below := by
          rw [(kept _ _ next ran).sameVariables name other, held]
        have round := loopRound_of_ok held denotes stops within steps positive ran same
        obtain ⟨least, -⟩ := denotes.range
        obtain ⟨-, greatest⟩ := stops.range
        by_cases fits : n + step ≤ Int64.maxValue.toInt
        · have goesOn : (Value.int (Int64.ofInt (n + step))).Denotes (n + step) :=
            Value.denotes_ofInt (by omega) fits
          rw [List.length_cons] at enough
          rw [countedLoop_of_ok ran fits, ← ih (by omega) goesOn]
          simp only [bind, EStateM.bind, iterate_succ, round, if_pos fits]
        · have final : counted (n + step) last step = [] := counted_of_lt positive (by omega)
          rw [final, entriesFrom, countedLoop_of_overflow ran fits]
          simp only [bind, EStateM.bind, iterate_succ, round, if_neg fits]

theorem operand_of_denotes {o : Operand} (denotes : o.Denotes m.memory n) :
    ∃ v : Value, v.Denotes n ∧ operand o m = .ok v m := by
  cases denotes with
  | literal i => exact ⟨_, Value.denotes_toString i, rfl⟩
  | reference held denotes => exact ⟨_, denotes, peek_of_list held⟩

theorem loopStep_of_denotes {o : Option Operand} (denotes : StepDenotes m.memory o step) :
    ∃ v : Value, v.Denotes step ∧ loopStep o m = .ok v m := by
  cases o with
  | none =>
    obtain rfl : step = 1 := denotes
    exact ⟨.int 1, Value.denotes_int 1, rfl⟩
  | some o => exact operand_of_denotes denotes

theorem requirePositive_of_denotes (counter : String) (denotes : v.Denotes step) (positive : 0 < step) :
    requirePositive counter v m = .ok () m := by
  have ordered : v.numericCompare (.int 0) = .ok .gt := by
    rw [denotes.numericCompare (Value.denotes_int 0)]
    exact congrArg _ (Int.compare_eq_gt.mpr positive)
  simp only [requirePositive, ordered]
  rfl

theorem runLoop_of_denotes {header : LoopHeader} {rounds : Nat} (other : header.counter ≠ echoStack)
    (kept : Ensures Kept body) (starts : header.start.Denotes m.memory first)
    (stops : header.stop.Denotes m.memory last) (steps : StepDenotes m.memory header.step step)
    (positive : 0 < step) (enough : (counted first last step).length < rounds) :
    ∃ entries, List.Forall₂ Value.Denotes entries (counted first last step) ∧
      runLoop rounds header body m =
        countedLoop header.counter (m.memory.list header.counter) body entries (counted first last step)
          step m := by
  obtain ⟨start, denotesStart, begun⟩ := operand_of_denotes starts
  obtain ⟨stop, denotesStop, ended⟩ := operand_of_denotes stops
  obtain ⟨increment, denotesStep, stepped⟩ := loopStep_of_denotes steps
  have ready := requirePositive_of_denotes (m := m) header.counter denotesStep positive
  refine ⟨_, entriesFrom_denote denotesStart denotesStop positive, ?_⟩
  rw [← iterate_eq_countedLoop other kept denotesStop denotesStep positive rounds enough denotesStart]
  simp only [runLoop, bind, EStateM.bind, begun, ended, stepped, ready]
  rfl

end Rounds

/-- A loop over integers is the same as its rounds written out: the body is run once for each value that is
not past the end, in increasing order, with an entry that denotes the value on top of the variable's stack,
until a body fails; a counter that cannot go on fails behind the last round; and the stack is left as it
was. -/
theorem visit_loop_eq (include? : Option Include) (header : LoopHeader) (body : List Node) (m : Machine)
    (first last step : Int) (other : header.counter ≠ echoStack)
    (starts : header.start.Denotes m.memory first) (stops : header.stop.Denotes m.memory last)
    (steps : StepDenotes m.memory header.step step) (positive : 0 < step) :
    (∀ n, n ∈ counted first last step ↔ n ≤ last ∧ ∃ i : Nat, n = first + step * i) ∧
      (counted first last step).Pairwise (· < ·) ∧
      ∃ entries, List.Forall₂ Value.Denotes entries (counted first last step) ∧
        visit { include? } (.loop header body) m =
          countedLoop header.counter (m.memory.list header.counter) (visitAll { include? } body) entries
            (counted first last step) step m := by
  have enough : (counted first last step).length < maxRounds := by
    have length : (counted first last step).length ≤ (last - first + 1).toNat := length_counted_le positive
    obtain ⟨_, denotesStart, -⟩ := operand_of_denotes starts
    obtain ⟨_, denotesStop, -⟩ := operand_of_denotes stops
    obtain ⟨least, -⟩ := denotesStart.range
    obtain ⟨-, greatest⟩ := denotesStop.range
    rw [Int64.toInt_minValue] at least
    rw [Int64.toInt_maxValue] at greatest
    have many : maxRounds = 36893488147419103232 := rfl
    omega
  exact ⟨fun n => mem_counted_iff positive, counted_increasing positive,
    runLoop_of_denotes other (ensures_visitAll { include? } body) starts stops steps positive enough⟩

/-- Two rounds up to the greatest integer, around a loop over the same name. The end is a text that a variable
holds, and the step behind the second round would leave the range. -/
theorem visit_loop_eq_greatest :
    let header : LoopHeader := ⟨"i", .literal "9223372036854775805", .reference "end", some (.literal "2")⟩
    let body : List Node :=
      [.loop ⟨"i", .literal "1", .literal "2", none⟩ [.text "."], .echo [.reference "i"]]
    let m : Machine := { memory := (∅ : Stacks Value).push "end" (.text "9223372036854775807"), exchange := .blank }
    let values : List Int := [9223372036854775805, 9223372036854775807]
    header.counter ≠ echoStack ∧ header.start.Denotes m.memory 9223372036854775805 ∧
      header.stop.Denotes m.memory 9223372036854775807 ∧ StepDenotes m.memory header.step 2 ∧
      (0 : Int) < 2 ∧
      ∃ entries, List.Forall₂ Value.Denotes entries values ∧
        visit {} (.loop header body) m =
          countedLoop header.counter [] (visitAll {} body) entries values 2 m := by
  intro header body m values
  have spelled (i : Int64) (text : String) (canonical : toString i.toInt = text) :
      (Operand.literal text).Denotes m.memory i.toInt := canonical ▸ .literal i
  have starts : header.start.Denotes m.memory 9223372036854775805 :=
    spelled 9223372036854775805 "9223372036854775805" (by decide +kernel)
  have stops : header.stop.Denotes m.memory 9223372036854775807 :=
    .reference (Stacks.list_set_self _ _ _) (Value.denotes_toString 9223372036854775807)
  have steps : StepDenotes m.memory header.step 2 := spelled 2 "2" (by decide +kernel)
  have values_eq : counted 9223372036854775805 9223372036854775807 2 = values := by decide +kernel
  have unused : m.memory.list header.counter = [] := by decide +kernel
  obtain ⟨-, -, same⟩ := visit_loop_eq none header body m _ _ _ (by decide) starts stops steps (by decide)
  rw [values_eq, unused] at same
  exact ⟨by decide, starts, stops, steps, by decide, same⟩

end Eval

end PageServer.Template
