import PageServer.Proofs.Number.Addition
import PageServer.Proofs.Template.Counting
import PageServer.Proofs.Template.Rounds
import PageServer.Proofs.Template.Simulation

/-! # Templates that hang

A loop ends if its step moves its counter. Integers and doubles leave less and less room above them as they grow
(`Number.room`), and so a counter cannot be moved for ever. But a step above zero need not move a double: if it is
small enough, it is lost when the sum is rounded. From there on each round is over the same value, and the loop
goes on until its body fails, if it ever does. A template without includes ends unless it comes to such a loop
(`Eval.execute_ends_unless_hangs`).
-/

namespace PageServer.Template

namespace Number

/-- How many numbers a sum can still lead to, where the doubles count as greater than the integers. -/
def room : Number → Nat
  | .int n => (Int64.maxValue.toInt - n.toInt).toNat + 2 * Binary64.signBit
  | .float x => (Binary64.signBit - Binary64.rank x).toNat

theorem room_float_lt (x : Float) : room (.float x) < 2 * Binary64.signBit := by
  obtain ⟨least, greatest⟩ := Binary64.rank_bounds x
  rw [room]
  omega

/-- A number above zero is a positive double. -/
theorem isPositive_toFloat {s : Number} (positive : compare s (.int 0) = .ok .gt) :
    Binary64.IsPositive s.toFloat := by
  cases s with
  | int k =>
    have above : Ord.compare k.toInt (0 : Int64).toInt = .gt := Except.ok.inj positive
    exact Binary64.isPositive_ofInt64 (Int.compare_eq_gt.mp above)
  | float x =>
    simp only [compare] at positive
    split_ifs at positive with less same above
    · contradiction
    · contradiction
    · exact Binary64.isPositive_of_zero_lt above

/-- Adding a number above zero leaves less room, or it leaves a double as it is. -/
theorem room_lt_or_eq {n s sum : Number} (positive : compare s (.int 0) = .ok .gt)
    (summed : compute .add n s = .ok sum) :
    sum.room < n.room ∨ ∃ x, n = .float x ∧ sum = .float x := by
  have positiveDouble := isPositive_toFloat positive
  cases n with
  | int i =>
    cases s with
    | int k =>
      have above : Ord.compare k.toInt (0 : Int64).toInt = .gt := Except.ok.inj positive
      have larger : 0 < k.toInt := Int.compare_eq_gt.mp above
      rw [compute_add] at summed
      split at summed
      · next fits =>
        cases summed
        have exact : (Int64.ofInt (i.toInt + k.toInt)).toInt = i.toInt + k.toInt :=
          Int64.toInt_ofInt_of_le fits.1 (Int.lt_add_one_of_le (Int64.toInt_maxValue ▸ fits.2))
        rw [room, room, exact]
        left
        omega
      · contradiction
    | float x =>
      cases summed
      have small := room_float_lt ((Number.int i).toFloat + x)
      exact .inl (small.trans_le (Nat.le_add_left _ _))
  | float x =>
    have sum_eq : sum = .float (x + s.toFloat) := by
      cases s with
      | int | float =>
        cases summed
        rfl
    rw [sum_eq]
    rcases Binary64.rank_lt_rank_add_or_eq x positiveDouble with greater | same
    · obtain ⟨-, greatest⟩ := Binary64.rank_bounds (x + s.toFloat)
      rw [room, room]
      omega
    · rw [same]
      exact .inr ⟨x, rfl, rfl⟩

@[simp] theorem number_toValue (n : Number) : n.toValue.number = .ok n := by
  cases n <;> rfl

end Number

namespace Value

/-- What it means that an operator was applied. -/
theorem combine_eq_ok {op : BinaryOp} {v w result : Value} (combined : v.combine op w = .ok result) :
    ∃ a b n, v.number = .ok a ∧ w.number = .ok b ∧ Number.compute op a b = .ok n ∧ result = n.toValue := by
  rw [combine] at combined
  cases left : v.number with
  | error e =>
    rw [left] at combined
    contradiction
  | ok a =>
    cases right : w.number with
    | error e =>
      rw [left, right] at combined
      contradiction
    | ok b =>
      rw [left, right] at combined
      change (Number.compute op a b).map Number.toValue = .ok result at combined
      cases computed : Number.compute op a b with
      | error e =>
        rw [computed] at combined
        contradiction
      | ok n =>
        rw [computed] at combined
        cases combined
        exact ⟨a, b, n, rfl, rfl, computed, rfl⟩

end Value

namespace Eval

section Rounds

variable {counter : String} {stop step : Value} {body : Nat → Eval Unit} {m : Machine}

/-- The variable is not past the end. -/
def Within (counter : String) (stop : Value) (m : Machine) : Prop :=
  ∃ v below order, m.memory.list counter = v :: below ∧ v.numericCompare stop = .ok order ∧ order ≠ .gt

/-- The end of a round: the step is added to the variable. -/
def advance (counter : String) (step : Value) : Eval Bool := do
  let current ← peek counter
  let next ← ofExcept (current.combine .add step)
  setTop counter next
  pure true

theorem loopRound_eq (counter : String) (stop step : Value) (body : Eval Unit) :
    loopRound counter stop step body = (do
      let current ← peek counter
      let order ← ofExcept (current.numericCompare stop)
      if order = .gt then pure false
      else
        body
        advance counter step) := rfl

theorem finishes_advance (counter : String) (step : Value) : Finishes (advance counter step) :=
  (finishes_peek counter).bind fun _ => (finishes_ofExcept _).bind fun _ =>
    (finishes_setTop counter _).bind fun _ => finishes_pure true

theorem stable_tested (stable : Stable body) (order : Ordering) (rest : Eval Bool) :
    Stable fun rounds => if order = .gt then pure false else body rounds >>= fun _ => rest := by
  by_cases past : order = .gt
  · simp only [past, ↓reduceIte]
    exact stable_const _
  · simp only [past, ↓reduceIte]
    exact stable.bind fun _ => stable_const rest

theorem stable_loopRound (stable : Stable body) :
    Stable fun rounds => loopRound counter stop step (body rounds) :=
  (stable_const _).bind fun _ => (stable_const _).bind fun order => stable_tested stable order _

/-- A round is endless if its body is. -/
theorem endless_loopRound_iff (stable : Stable body) :
    Endless (fun rounds => loopRound counter stop step (body rounds)) m ↔
      Within counter stop m ∧ Endless body m := by
  have tested (order : Ordering) := stable_tested stable order (advance counter step)
  have compared (current : Value) := (stable_const (ofExcept (current.numericCompare stop))).bind tested
  simp only [loopRound_eq]
  rw [(finishes_peek counter).endless_bind_iff compared]
  constructor
  · rintro ⟨current, m₁, read, behindRead⟩
    obtain ⟨⟨below, held⟩, rfl⟩ := peek_eq_ok read
    obtain ⟨order, m₂, ran, endless⟩ := ((finishes_ofExcept _).endless_bind_iff tested).mp behindRead
    obtain ⟨ordered, rfl⟩ := ofExcept_eq_ok ran
    by_cases past : order = .gt
    · simp only [past, ↓reduceIte] at endless
      exact absurd endless ((finishes_pure false).not_endless _)
    · simp only [past, ↓reduceIte] at endless
      rcases (endless_bind_iff stable fun _ => stable_const _).mp endless with inside | ⟨_, next, -, behind⟩
      · exact ⟨⟨current, below, order, held, ordered, past⟩, inside⟩
      · exact absurd behind ((finishes_advance counter step).not_endless next)
  · rintro ⟨⟨current, below, order, held, ordered, before⟩, inside⟩
    refine ⟨current, m, peek_of_list held, ((finishes_ofExcept _).endless_bind_iff tested).mpr ⟨order, m, ?_, ?_⟩⟩
    · rw [ordered]
      rfl
    · simp only [before, ↓reduceIte]
      exact (endless_bind_iff stable fun _ => stable_const _).mpr (.inl inside)

theorem stable_runLoop (stable : Stable body) (header : LoopHeader) :
    Stable fun rounds => runLoop rounds header (body rounds) := by
  refine (stable_const _).bind fun start => (stable_const _).bind fun stop => (stable_const _).bind fun step =>
    (stable_const _).bind fun _ => (stable_const _).bind fun _ => Stable.bind ?_ fun _ => stable_const _
  exact stable_iterate (stable_loopRound stable)

end Rounds

mutual

theorem stable_visit (node : Node) : Stable fun rounds => visit { rounds } node := by
  cases node with
  | text content => exact stable_const (emit content)
  | echo es => exact stable_const (echo none es)
  | loop header body => exact stable_runLoop (stable_visitAll body) header

/-- What a template comes to under some bound on rounds, it comes to under every larger one. -/
theorem stable_visitAll (nodes : List Node) : Stable fun rounds => visitAll { rounds } nodes := by
  cases nodes with
  | nil => exact stable_const (pure ())
  | cons node rest => exact (stable_visit node).bind fun _ => stable_visitAll rest

end

end Eval

/-- A loop that was entered: its variable, its end and its step as values, and its body. -/
structure Loop where
  counter : String
  stop : Value
  step : Value
  body : List Node

namespace Loop

/-- One round, with a bound on the rounds of the loops inside. -/
def round (loop : Loop) (rounds : Nat) : Eval Bool :=
  Eval.loopRound loop.counter loop.stop loop.step (Eval.visitAll { rounds } loop.body)

/-- The variable holds a double that adding the step leaves as it is, and there is no last round. -/
structure StandsStill (loop : Loop) (m : Machine) : Prop where
  stuck : ∃ x below, m.memory.list loop.counter = .float x :: below ∧
    (Value.float x).combine .add loop.step = .ok (.float x)
  goesOn : Eval.GoesOn loop.round m

variable {loop : Loop} {x y : Machine}

theorem stable_round (loop : Loop) : Eval.Stable loop.round :=
  Eval.stable_loopRound (Eval.stable_visitAll loop.body)

/-- A round that is not the last one adds the step to the variable. -/
theorem adds (round : Eval.LeadsTo loop.round x true y) :
    ∃ v below sum, x.memory.list loop.counter = v :: below ∧ v.combine .add loop.step = .ok sum ∧
      y.memory.list loop.counter = sum :: below := by
  obtain ⟨rounds, ran⟩ := round
  obtain ⟨v, below, order, held, -, ends⟩ := Eval.loopRound_eq_ok ran
  rcases ends with ⟨-, last, -⟩ | ⟨-, -, between, top, rest, sum, done, found, added, rfl⟩
  · contradiction
  · have same : top :: rest = v :: below := by
      rw [← found, ← held]
      refine (Eval.ensures_visitAll _ _ _ _ _ done loop.counter).resolve_right ?_
      rintro ⟨-, empty⟩
      rw [found] at empty
      contradiction
    cases same
    exact ⟨v, below, sum, held, added, Stacks.list_set_self _ _ _⟩

/-- A loop whose counter is a number and that has no last round comes to stand still: each round that moves the
counter leaves less room for it. -/
theorem exists_standsStill_of_number (positive : loop.step.numericCompare (.int 0) = .ok .gt) {n : Number}
    {below : List Value} (held : x.memory.list loop.counter = n.toValue :: below)
    (goesOn : Eval.GoesOn loop.round x) : ∃ y, Eval.Reaches loop.round x y ∧ loop.StandsStill y := by
  induction space : n.room using Nat.strong_induction_on generalizing n x below with
  | _ room ih =>
    obtain ⟨y, round⟩ := goesOn x .refl
    obtain ⟨v, _, _, top, added, next⟩ := adds round
    rw [held] at top
    cases top
    obtain ⟨_, s, sum, read, readStep, summed, rfl⟩ := Value.combine_eq_ok added
    rw [Number.number_toValue] at read
    cases read
    have above : Number.compare s (.int 0) = .ok .gt := by
      rwa [Value.numericCompare, readStep] at positive
    rcases Number.room_lt_or_eq above summed with less | ⟨d, rfl, rfl⟩
    · obtain ⟨z, reached, stands⟩ := ih _ (space ▸ less) next (goesOn.of_reaches (.single round)) rfl
      exact ⟨z, .head round reached, stands⟩
    · exact ⟨x, .refl, ⟨d, below, held, added⟩, goesOn⟩

theorem exists_standsStill (positive : loop.step.numericCompare (.int 0) = .ok .gt)
    (goesOn : Eval.GoesOn loop.round x) : ∃ y, Eval.Reaches loop.round x y ∧ loop.StandsStill y := by
  -- behind the first round, the counter is a number and no text any more
  obtain ⟨y, round⟩ := goesOn x .refl
  obtain ⟨_, _, _, -, added, next⟩ := adds round
  obtain ⟨_, _, _, -, -, -, rfl⟩ := Value.combine_eq_ok added
  obtain ⟨z, reached, stands⟩ := exists_standsStill_of_number positive next (goesOn.of_reaches (.single round))
  exact ⟨z, .head round reached, stands⟩

end Loop

namespace Eval

def enter (header : LoopHeader) (body : List Node) : Eval Loop := do
  let start ← operand header.start
  let stop ← operand header.stop
  let step ← loopStep header.step
  requirePositive header.counter step
  push header.counter start
  pure { counter := header.counter, stop, step, body }

theorem visit_loop (rounds : Nat) (header : LoopHeader) (body : List Node) :
    visit { rounds } (.loop header body) = (do
      let loop ← enter header body
      iterate (loop.round rounds) rounds
      discard (pop loop.counter)) := by
  simp only [visit, runLoop, enter, bind_assoc, pure_bind, Loop.round]

theorem finishes_operand (o : Operand) : Finishes (operand o) := by
  cases o with
  | literal text => exact finishes_pure _
  | reference name => exact finishes_peek name

theorem finishes_enter (header : LoopHeader) (body : List Node) : Finishes (enter header body) := by
  refine (finishes_operand _).bind fun start => (finishes_operand _).bind fun stop => Finishes.bind ?_ fun step =>
    Finishes.bind ?_ fun _ => (finishes_push _ _).bind fun _ => finishes_pure _
  · cases header.step with
    | none => exact finishes_pure _
    | some o => exact finishes_operand o
  · refine (finishes_ofExcept _).bind fun order => ?_
    split
    · exact finishes_pure ()
    · exact finishes_fail _

/-- A loop is entered only with a step above zero. -/
theorem enter_eq_ok {header : LoopHeader} {body : List Node} {m entry : Machine} {loop : Loop}
    (entered : enter header body m = .ok loop entry) :
    loop.step.numericCompare (.int 0) = .ok .gt ∧ loop.body = body := by
  obtain ⟨start, m₁, -, ran₁⟩ := bind_eq_ok.mp entered
  obtain ⟨stop, m₂, -, ran₂⟩ := bind_eq_ok.mp ran₁
  obtain ⟨step, m₃, -, ran₃⟩ := bind_eq_ok.mp ran₂
  obtain ⟨_, m₄, positive, ran₄⟩ := bind_eq_ok.mp ran₃
  obtain ⟨_, m₅, -, last⟩ := bind_eq_ok.mp ran₄
  cases last
  exact ⟨(requirePositive_eq_ok positive).2, rfl⟩

end Eval

/-- The template hangs: it comes to a loop that stands still, be it in a round of another loop or behind parts that
ended. -/
inductive Hangs : List Node → Machine → Prop
  | stalled {header : LoopHeader} {body rest : List Node} {m entry x : Machine} {loop : Loop}
      (entered : Eval.enter header body m = .ok loop entry) (reached : Eval.Reaches loop.round entry x)
      (stands : loop.StandsStill x) : Hangs (.loop header body :: rest) m
  | inside {header : LoopHeader} {body rest : List Node} {m entry x : Machine} {loop : Loop}
      (entered : Eval.enter header body m = .ok loop entry) (reached : Eval.Reaches loop.round entry x)
      (within : Eval.Within loop.counter loop.stop x) (hangs : Hangs body x) : Hangs (.loop header body :: rest) m
  | later {node : Node} {rest : List Node} {m next : Machine}
      (ended : Eval.LeadsTo (fun rounds => Eval.visit { rounds } node) m () next) (hangs : Hangs rest next) :
      Hangs (node :: rest) m

namespace Eval

variable {m : Machine}

/-- A loop is endless if its rounds are from where it was entered. -/
theorem endless_visit_loop_iff {header : LoopHeader} {body : List Node} :
    Endless (fun rounds => visit { rounds } (.loop header body)) m ↔
      ∃ loop entry, enter header body m = .ok loop entry ∧
        Endless (fun rounds => iterate (loop.round rounds) rounds) entry := by
  have ended (loop : Loop) :
      Stable fun rounds => iterate (loop.round rounds) rounds >>= fun _ => discard (pop loop.counter) :=
    (stable_iterate loop.stable_round).bind fun _ => stable_const _
  simp only [visit_loop]
  rw [(finishes_enter header body).endless_bind_iff ended]
  refine exists_congr fun loop => exists_congr fun entry => and_congr_right fun _ => ?_
  rw [endless_bind_iff (stable_iterate loop.stable_round) fun _ => stable_const _]
  refine or_iff_left ?_
  rintro ⟨_, next, -, behind⟩
  exact (finishes_discard_pop loop.counter).not_endless next behind

theorem endless_visitAll_cons_iff {node : Node} {rest : List Node} :
    Endless (fun rounds => visitAll { rounds } (node :: rest)) m ↔
      Endless (fun rounds => visit { rounds } node) m ∨
        ∃ next, LeadsTo (fun rounds => visit { rounds } node) m () next ∧
          Endless (fun rounds => visitAll { rounds } rest) next :=
  (endless_bind_iff (stable_visit node) fun _ => stable_visitAll rest).trans (or_congr_right Unique.exists_iff)

/-- No bound on rounds is large enough for a template that hangs. -/
theorem endless_of_hangs {nodes : List Node} (hangs : Hangs nodes m) :
    Endless (fun rounds => visitAll { rounds } nodes) m := by
  induction hangs with
  | @stalled _ _ _ _ _ _ loop entered reached stands =>
    have endless := (endless_iterate_iff loop.stable_round).mpr (.inr stands.goesOn)
    exact endless_visitAll_cons_iff.mpr (.inl (endless_visit_loop_iff.mpr
      ⟨loop, _, entered, endless_iterate_of_reaches loop.stable_round reached endless⟩))
  | @inside _ body _ _ _ x loop entered reached within _ ih =>
    obtain ⟨-, rfl⟩ := enter_eq_ok entered
    have endless : Endless loop.round x := (endless_loopRound_iff (stable_visitAll loop.body)).mpr ⟨within, ih⟩
    exact endless_visitAll_cons_iff.mpr (.inl (endless_visit_loop_iff.mpr
      ⟨loop, _, entered, (endless_iterate_iff loop.stable_round).mpr (.inl ⟨x, reached, endless⟩)⟩))
  | later ended _ ih => exact endless_visitAll_cons_iff.mpr (.inr ⟨_, ended, ih⟩)

mutual

theorem hangs_of_endless_visit (node : Node) (rest : List Node) {m : Machine}
    (endless : Endless (fun rounds => visit { rounds } node) m) : Hangs (node :: rest) m := by
  cases node with
  | text content => exact absurd endless ((finishes_emit content).not_endless m)
  | echo es => exact absurd endless ((finishes_echo es).not_endless m)
  | loop header body =>
    obtain ⟨loop, entry, entered, endless⟩ := endless_visit_loop_iff.mp endless
    obtain ⟨positive, same⟩ := enter_eq_ok entered
    rcases (endless_iterate_iff loop.stable_round).mp endless with ⟨x, reached, endless⟩ | goesOn
    · obtain ⟨within, endless⟩ := (endless_loopRound_iff (stable_visitAll loop.body)).mp endless
      rw [same] at endless
      exact .inside entered reached within (hangs_of_endless body endless)
    · obtain ⟨x, reached, stands⟩ := Loop.exists_standsStill positive goesOn
      exact .stalled entered reached stands

/-- A template for which no bound on rounds is large enough hangs. -/
theorem hangs_of_endless (nodes : List Node) {m : Machine}
    (endless : Endless (fun rounds => visitAll { rounds } nodes) m) : Hangs nodes m := by
  cases nodes with
  | nil => exact absurd endless ((finishes_pure ()).not_endless m)
  | cons node rest =>
    rcases endless_visitAll_cons_iff.mp endless with first | ⟨next, ended, endless⟩
    · exact hangs_of_endless_visit node rest first
    · exact .later ended (hangs_of_endless rest endless)

end

theorem unfinished_execute_iff {services : Services} {document : Document} :
    Unfinished (execute services document m) ↔ Unfinished (visitAll services document m) := by
  simp only [execute, Unfinished]
  cases visitAll services document m with
  | ok _ next => simp
  | error halt next => simp

theorem stable_execute (document : Document) : Stable fun rounds => execute { rounds } document := by
  intro m few many less
  refine (stable_visitAll document m few many less).imp unfinished_execute_iff.mpr fun same => ?_
  simp only [execute, same]

/-- A template without includes ends, and under all bounds on rounds that are large enough it ends in the same
way, unless it hangs. Then no bound is large enough. -/
theorem execute_ends_unless_hangs (include? : Option Include) (document : Document) (m : Machine)
    (closed : anyIncludes document = false) :
    (Hangs document m → ∀ rounds, Unfinished (execute ⟨include?, rounds⟩ document m)) ∧
      (¬ Hangs document m → ∃ bound result, ¬ Unfinished result ∧
        ∀ rounds, bound ≤ rounds → execute ⟨include?, rounds⟩ document m = result) := by
  have same (rounds : Nat) : execute ⟨include?, rounds⟩ document m = execute { rounds } document m := by
    simp only [execute, visitAll_of_not_includes include? none rounds document closed]
  simp only [same]
  constructor
  · intro hangs rounds
    exact unfinished_execute_iff.mpr (endless_of_hangs hangs rounds)
  · intro moves
    obtain ⟨bound, ends⟩ := not_forall.mp (mt (hangs_of_endless document) moves)
    have finished : ¬ Unfinished (execute { rounds := bound } document m) := mt unfinished_execute_iff.mp ends
    exact ⟨bound, _, finished, fun rounds more =>
      ((stable_execute document m bound rounds more).resolve_left finished).symm⟩

/-- A loop over doubles that ends in its fifth round. -/
theorem execute_ends_half_steps :
    let document : Document := [.loop ⟨"i", .literal "0.5", .literal "2", some (.literal "0.5")⟩ [.text "."]]
    let m : Machine := { exchange := .blank }
    anyIncludes document = false ∧ ¬ Hangs document m ∧ ∃ bound result, ¬ Unfinished result ∧
      ∀ rounds, bound ≤ rounds → execute { rounds } document m = result := by
  intro document m
  obtain ⟨forever, ends⟩ := execute_ends_unless_hangs none document m rfl
  have moves : ¬ Hangs document m := by
    intro hangs
    have succeeds : (EStateM.run' (execute { rounds := 5 } document) m).isSome = true := by decide +kernel
    obtain ⟨next, unfinished⟩ := forever hangs 5
    delta EStateM.run' EStateM.run at succeeds
    rw [unfinished] at succeeds
    contradiction
  exact ⟨rfl, moves, ends moves⟩

end Eval

/-- A round with nothing in it adds the step. -/
theorem Loop.round_of_empty {loop : Loop} (empty : loop.body = []) {m : Machine} {v sum : Value} {below : List Value}
    {order : Ordering} (held : m.memory.list loop.counter = v :: below)
    (compared : v.numericCompare loop.stop = .ok order) (before : order ≠ .gt)
    (added : v.combine .add loop.step = .ok sum) (rounds : Nat) :
    loop.round rounds m = .ok true { m with memory := m.memory.set loop.counter (sum :: below) } := by
  simp only [round, Eval.loopRound, Eval.bind_apply, Eval.peek_of_list held, compared, Eval.ofExcept, empty,
    Eval.visitAll, pure, EStateM.pure, before, ↓reduceIte, added, Eval.setTop, Stacks.setTop, held]

/-- Half a unit is lost when it is added to `10 ^ 16`, although it is a step above zero, and no round is the last
one. -/
theorem half_steps_endless :
    let document : Document := [.loop ⟨"i", .literal "1e16", .literal "1e16", some (.literal "0.5")⟩ []]
    let m : Machine := { exchange := .blank }
    anyIncludes document = false ∧ (Value.text "0.5").numericCompare (.int 0) = .ok .gt ∧
      ∀ rounds, Eval.Unfinished (Eval.execute { rounds } document m) := by
  intro document m
  let loop : Loop := ⟨"i", .text "1e16", .text "0.5", []⟩
  let sum : Value := .float (.ofBits 0x4341C37937E08000)
  let entry : Machine := { m with memory := m.memory.push "i" (.text "1e16") }
  let later : Machine := { entry with memory := entry.memory.set "i" [sum] }
  have positive : (Value.text "0.5").numericCompare (.int 0) = .ok .gt := by decide +kernel
  have entered : Eval.enter ⟨"i", .literal "1e16", .literal "1e16", some (.literal "0.5")⟩ [] m = .ok loop entry := by
    have ready : Eval.requirePositive "i" (.text "0.5") m = .ok () m := by
      simp only [Eval.requirePositive, positive]
      rfl
    simp only [Eval.enter, Eval.operand, Eval.loopStep, pure, EStateM.pure, Eval.bind_apply, ready]
    rfl
  have first : loop.round 0 entry = .ok true later := by
    have held : entry.memory.list loop.counter = [.text "1e16"] := by decide +kernel
    have within : (Value.text "1e16").numericCompare loop.stop = .ok .eq := by decide +kernel
    have added : (Value.text "1e16").combine .add loop.step = .ok sum := by decide +kernel
    exact Loop.round_of_empty rfl held within (by decide) added 0
  have held : later.memory.list loop.counter = [sum] := Stacks.list_set_self _ _ _
  have stuck : sum.combine .add loop.step = .ok sum := by decide +kernel
  have again : loop.round 0 later = .ok true later := by
    have within : sum.numericCompare loop.stop = .ok .eq := by decide +kernel
    have round := Loop.round_of_empty rfl held within (by decide) stuck 0
    rwa [Stacks.set_set] at round
  have goesOn : Eval.GoesOn loop.round later := by
    intro y reached
    have same : y = later := by
      induction reached with
      | refl => rfl
      | tail _ step ih =>
        rw [ih] at step
        exact (loop.stable_round.leadsTo_unique step ⟨0, again⟩).2
    rw [same]
    exact ⟨later, 0, again⟩
  have hangs : Hangs document m := .stalled entered (.single ⟨0, first⟩) ⟨⟨_, [], held, stuck⟩, goesOn⟩
  exact ⟨rfl, positive, fun rounds => Eval.unfinished_execute_iff.mpr (Eval.endless_of_hangs hangs rounds)⟩

end PageServer.Template
