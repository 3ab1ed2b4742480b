import PageServer.Template.Parser
import PageServer.Proofs.Template.Grammar

/-! # The nesting of templates

The pieces of a template, one after the other, are the pieces that its source is read as. While loops are
open, the reader has taken their headers and the nodes before and inside them (`taken`), and each further
piece is added to these. The pieces of a source can be nested exactly if their ends match their headers
(`Balanced`).
-/

namespace PageServer.Template

mutual

/-- The pieces of a part of a template: those of a loop are its header, its body and its end. -/
def Node.flatten : Node → List Piece
  | .text content => [.text content]
  | .echo elements => [.echo elements]
  | .loop header body => .opening header :: flatten body ++ [.closing]

/-- The pieces of a template, in order. -/
def flatten : List Node → List Piece
  | [] => []
  | node :: rest => node.flatten ++ flatten rest

end

theorem flatten_append (front back : List Node) :
    flatten (front ++ back) = flatten front ++ flatten back := by
  induction front with
  | nil => rfl
  | cons node front ih => rw [List.cons_append, flatten, flatten, ih, List.append_assoc]

theorem flatten_reverse_cons (node : Node) (done : List Node) :
    flatten (node :: done).reverse = flatten done.reverse ++ node.flatten := by
  rw [List.reverse_cons, flatten_append, flatten, flatten, List.append_nil]

/-- The pieces that have been taken while these loops are open and `done` is in the innermost one. -/
def taken (done : List Node) : List OpenLoop → List Piece
  | [] => flatten done.reverse
  | l :: outer => taken l.before outer ++ .opening l.header :: flatten done.reverse

theorem taken_cons (node : Node) (done : List Node) (loops : List OpenLoop) :
    taken (node :: done) loops = taken done loops ++ node.flatten := by
  cases loops with
  | nil => exact flatten_reverse_cons node done
  | cons l outer => simp only [taken, flatten_reverse_cons, List.append_assoc, List.cons_append]

theorem taken_opening (header : LoopHeader) (done : List Node) (loops : List OpenLoop) :
    taken [] (⟨header, done⟩ :: loops) = taken done loops ++ [.opening header] := rfl

theorem taken_closing (l : OpenLoop) (done : List Node) (outer : List OpenLoop) :
    taken (.loop l.header done.reverse :: l.before) outer =
      taken done (l :: outer) ++ [.closing] := by
  rw [taken_cons, taken, Node.flatten, List.append_assoc]

/-- A piece that can be placed is added to what was taken. -/
theorem taken_of_nest_cons {done : List Node} {loops : List OpenLoop} {piece : Piece}
    {rest : List (Except ScriptError Piece)} {document : Document}
    (nested : nest done loops (.ok piece :: rest) = .ok document) :
    ∃ inner outer, nest inner outer rest = .ok document ∧
      taken inner outer = taken done loops ++ [piece] := by
  cases piece with
  | text content => exact ⟨_, _, nested, taken_cons (.text content) done loops⟩
  | echo elements => exact ⟨_, _, nested, taken_cons (.echo elements) done loops⟩
  | opening header => exact ⟨_, _, nested, taken_opening header done loops⟩
  | closing =>
    cases loops with
    | nil => contradiction
    | cons l outer => exact ⟨_, _, nested, taken_closing l done outer⟩

/-- Whatever is nested consists of what was taken and of what is left. -/
theorem flatten_of_nest {done : List Node} {loops : List OpenLoop}
    {items : List (Except ScriptError Piece)} {document : Document}
    (nested : nest done loops items = .ok document) :
    ∃ ps, items = ps.map .ok ∧ flatten document = taken done loops ++ ps := by
  induction items generalizing done loops with
  | nil =>
    cases loops with
    | nil =>
      cases nested
      exact ⟨[], rfl, (List.append_nil _).symm⟩
    | cons l outer => contradiction
  | cons item rest ih =>
    cases item with
    | error e => contradiction
    | ok piece =>
      obtain ⟨inner, outer, later, more⟩ := taken_of_nest_cons nested
      obtain ⟨ps, rfl, whole⟩ := ih later
      refine ⟨piece :: ps, rfl, ?_⟩
      rw [whole, more, List.append_assoc, List.singleton_append]

mutual

theorem nest_node (node : Node) (done : List Node) (loops : List OpenLoop)
    (rest : List (Except ScriptError Piece)) :
    nest done loops (node.flatten.map .ok ++ rest) = nest (node :: done) loops rest := by
  cases node with
  | text content => rfl
  | echo elements => rfl
  | loop header body =>
    have inside := nest_flatten body [] (⟨header, done⟩ :: loops) (.ok .closing :: rest)
    -- inside, the nodes before the loop wait with its header; the end puts the loop behind them
    simpa [Node.flatten, nest] using inside

/-- The pieces of a template become its nodes, whatever loops are open and whatever follows. -/
theorem nest_flatten (nodes done : List Node) (loops : List OpenLoop)
    (rest : List (Except ScriptError Piece)) :
    nest done loops ((flatten nodes).map .ok ++ rest) = nest (nodes.reverse ++ done) loops rest := by
  cases nodes with
  | nil => rfl
  | cons node more =>
    rw [flatten, List.map_append, List.append_assoc, nest_node node, nest_flatten more,
      List.reverse_cons, List.append_assoc, List.singleton_append]

end

theorem nest_eq_ok_iff {items : List (Except ScriptError Piece)} {document : Document} :
    nest [] [] items = .ok document ↔ items = (flatten document).map .ok := by
  constructor
  · intro nested
    obtain ⟨ps, rfl, whole⟩ := flatten_of_nest nested
    rw [whole]
    rfl
  · rintro rfl
    have nested := nest_flatten document [] [] []
    simpa [nest] using nested

/-- Templates with the same pieces are nested alike. -/
theorem flatten_injective {left right : Document} (same : flatten left = flatten right) :
    left = right := by
  have nested := nest_eq_ok_iff.mpr (congrArg (List.map Except.ok) same)
  rw [nest_eq_ok_iff.mpr rfl] at nested
  exact Except.ok.inj nested

/-- A template is read from exactly those sources that are read as its pieces. -/
theorem parse_eq_ok_iff {source : String} {document : Document} :
    parse source = .ok document ↔ Reads source.toList (flatten document) := by
  rw [parse, nest_eq_ok_iff, pieces_eq_map_ok_iff]

def Piece.begins : Piece → Bool
  | .opening _ => true
  | _ => false

def Piece.ends : Piece → Bool
  | .closing => true
  | _ => false

/-- The pieces end as many loops as were open before, and those that they begin themselves. -/
structure Closes (loops : Nat) (ps : List Piece) : Prop where
  /-- No end comes without an open loop. -/
  matched (front : List Piece) (leading : front <+: ps) :
    front.countP Piece.ends ≤ loops + front.countP Piece.begins
  /-- No loop stays open. -/
  complete : ps.countP Piece.ends = loops + ps.countP Piece.begins

/-- The loops are properly nested: each end has a header before it, and each header its end. -/
def Balanced (ps : List Piece) : Prop :=
  Closes 0 ps

theorem closes_nil_iff {loops : Nat} : Closes loops [] ↔ loops = 0 := by
  constructor
  · intro closes
    simpa using closes.complete.symm
  · rintro rfl
    refine ⟨fun front leading => ?_, rfl⟩
    rw [List.prefix_nil.mp leading]
    exact Nat.le_refl 0

/-- A piece changes the number of open loops for those behind it. -/
theorem closes_cons_iff {loops : Nat} {piece : Piece} {ps : List Piece} :
    Closes loops (piece :: ps) ↔
      piece.ends.toNat ≤ loops + piece.begins.toNat ∧
        Closes (loops + piece.begins.toNat - piece.ends.toNat) ps := by
  have count (p : Piece → Bool) (rest : List Piece) :
      (piece :: rest).countP p = rest.countP p + (p piece).toNat := by
    cases holds : p piece <;> simp [holds]
  constructor
  · intro closes
    have first := closes.matched [piece] (List.prefix_append [piece] ps)
    have complete := closes.complete
    simp only [count, List.countP_nil] at first complete
    refine ⟨by omega, fun front leading => ?_, by omega⟩
    have behind := closes.matched (piece :: front) (List.prefix_cons_inj piece |>.mpr leading)
    simp only [count] at behind
    omega
  · rintro ⟨first, closes⟩
    have complete := closes.complete
    refine ⟨fun front leading => ?_, by simp only [count]; omega⟩
    rcases List.prefix_cons_iff.mp leading with rfl | ⟨behind, rfl, inside⟩
    · simp
    · have matched := closes.matched behind inside
      simp only [count]
      omega

/-- Pieces can be nested exactly if they close the open loops. -/
theorem nest_succeeds_iff (done : List Node) (loops : List OpenLoop) {ps : List Piece} :
    (∃ document, nest done loops (ps.map .ok) = .ok document) ↔ Closes loops.length ps := by
  induction ps generalizing done loops with
  | nil =>
    rw [closes_nil_iff]
    cases loops <;> simp [nest]
  | cons piece rest ih =>
    rw [closes_cons_iff]
    cases piece with
    | text content => simpa [nest, Piece.begins, Piece.ends] using ih (.text content :: done) loops
    | echo elements => simpa [nest, Piece.begins, Piece.ends] using ih (.echo elements :: done) loops
    | opening header =>
      simpa [nest, Piece.begins, Piece.ends] using ih [] (⟨header, done⟩ :: loops)
    | closing =>
      cases loops with
      | nil => simp [nest, Piece.begins, Piece.ends]
      | cons l outer =>
        have behind := ih (.loop l.header done.reverse :: l.before) outer
        simpa [nest, Piece.begins, Piece.ends] using behind

/-- A template is read from a source exactly if the source consists of texts and of tags that are echoes,
loop headers and ends, and if the ends match the headers. A source consists of pieces in one way only, and
they are those of its template. -/
theorem parse_reads (source : String) :
    ((∃ document, parse source = .ok document) ↔ ∃ ps, Reads source.toList ps ∧ Balanced ps) ∧
      (∀ document, parse source = .ok document ↔ Reads source.toList (flatten document)) ∧
      ∀ ps qs, Reads source.toList ps → Reads source.toList qs → ps = qs := by
  refine ⟨?_, fun document => parse_eq_ok_iff, fun ps qs => Reads.unique⟩
  constructor
  · rintro ⟨document, parsed⟩
    have reads := parse_eq_ok_iff.mp parsed
    refine ⟨flatten document, reads, ?_⟩
    rw [parse, pieces_eq_map_ok_iff.mpr reads] at parsed
    exact (nest_succeeds_iff [] []).mp ⟨document, parsed⟩
  · rintro ⟨ps, reads, balanced⟩
    rw [parse, pieces_eq_map_ok_iff.mpr reads]
    exact (nest_succeeds_iff [] []).mpr balanced

/-- Two loops, the inner one with a closing mark in its text and an opening mark in its echo. -/
example :
    let source := "a<% for $i = 1 to $n %><% for j = \"2\" to 3 step 2 %>%><%= $i \"<%\" + %><% end %><% end %>"
    (match parse source with
      | .ok document => flatten document ==
          [.text "a", .opening ⟨"i", .literal "1", .reference "n", none⟩,
            .opening ⟨"j", .literal "2", .literal "3", some (.literal "2")⟩, .text "%>",
            .echo [.reference "i", .literal "<%", .operator "+"], .closing, .closing]
      | .error _ => false) = true := by
  decide +kernel

end PageServer.Template
