import PageServer.Number.Shortest
import PageServer.Text.Blank
import PageServer.Error

/-! # Values of templates

A value is an integer of 64 bits, a double or a text. Arithmetic and numeric comparison read texts as
numbers first. A result is an integer only if both operands are integers, and integer arithmetic
fails rather than wraps.
-/

namespace PageServer.Template

inductive Value
  | int (n : Int64)
  | float (x : Float)
  | text (s : String)
deriving DecidableEq

inductive Number
  | int (n : Int64)
  | float (x : Float)
deriving DecidableEq

inductive BinaryOp
  | add
  | subtract
  | multiply
  | divide
deriving DecidableEq, Repr

namespace BinaryOp

def ofSymbol? : String → Option BinaryOp
  | "+" => some .add
  | "-" => some .subtract
  | "*" => some .multiply
  | "/" => some .divide
  | _ => none

def symbol : BinaryOp → String
  | .add => "+"
  | .subtract => "-"
  | .multiply => "*"
  | .divide => "/"

@[simp] theorem ofSymbol?_symbol (op : BinaryOp) : ofSymbol? op.symbol = some op := by
  cases op <;> rfl

/-- The exact result on integers. A quotient is truncated toward zero. -/
def onInt : BinaryOp → Int → Int → Int
  | .add, a, b => a + b
  | .subtract, a, b => a - b
  | .multiply, a, b => a * b
  | .divide, a, b => a.tdiv b

/-- The rounded result on doubles. -/
def onFloat : BinaryOp → Float → Float → Float
  | .add, a, b => a + b
  | .subtract, a, b => a - b
  | .multiply, a, b => a * b
  | .divide, a, b => a / b

end BinaryOp

namespace Number

/-- The number as a double. An integer is rounded to the nearest one. -/
def toFloat : Number → Float
  | .int n => .ofModel (.ofInt64 n)
  | .float x => x

def toValue : Number → Value
  | .int n => .int n
  | .float x => .float x

def unreadable (text : List Char) : ScriptError :=
  .format s!"'{String.ofList text}' is not a number"

/-- The number that a text spells between blanks. A text without a point or an exponent is tried as an
integer first. Words that name a double are not numbers. -/
def read (text : List Char) : Except ScriptError Number :=
  let text := Text.trim text
  if text = [] then .error (.format "empty string is not a number")
  else
    let isPlain := text.all fun c => c != '.' && c != 'e' && c != 'E'
    match if isPlain then Int64.read? text else none with
    | some n => .ok (.int n)
    | none =>
      if text.any fun c => c.isAlpha && c != 'e' && c != 'E' then .error (unreadable text)
      else
        match Decimal.readFloat? text with
        | some x => .ok (.float x)
        | none => .error (unreadable text)

def divisionByZero : ScriptError :=
  .arithmetic "division by zero"

def overflow (op : BinaryOp) (a b : Int64) : ScriptError :=
  .arithmetic s!"integer overflow in {a} {op.symbol} {b}"

/-- Applies an operator. One double makes the result a double. -/
def compute (op : BinaryOp) : Number → Number → Except ScriptError Number
  | .int a, .int b =>
    if op = .divide ∧ b = 0 then .error divisionByZero
    else
      let result := op.onInt a.toInt b.toInt
      if Int64.minValue.toInt ≤ result ∧ result ≤ Int64.maxValue.toInt then
        .ok (.int (Int64.ofInt result))
      else .error (overflow op a b)
  | a, b =>
    let a := a.toFloat
    let b := b.toFloat
    if op = .divide ∧ b == 0 then .error divisionByZero
    else .ok (.float (op.onFloat a b))

/-- The order of two numbers. Nothing compares with a double that is not a number. -/
def compare : Number → Number → Except ScriptError Ordering
  | .int a, .int b => .ok (Ord.compare a.toInt b.toInt)
  | a, b =>
    let a := a.toFloat
    let b := b.toFloat
    if a < b then .ok .lt
    else if a == b then .ok .eq
    else if b < a then .ok .gt
    else .error (.format "NaN has no ordering")

end Number

namespace Value

def number : Value → Except ScriptError Number
  | .int n => .ok (.int n)
  | .float x => .ok (.float x)
  | .text s => Number.read s.toList

def isNumeric (v : Value) : Bool :=
  v.number.isOk

/-- The value as a double. -/
def toFloat (v : Value) : Except ScriptError Float :=
  v.number.map Number.toFloat

/-- Applies an operator to two values. The left operand is read first. -/
def combine (op : BinaryOp) (left right : Value) : Except ScriptError Value := do
  let a ← left.number
  let b ← right.number
  (Number.compute op a b).map Number.toValue

/-- Applies an operator in place: the result takes the place of the left operand. -/
def apply (op : BinaryOp) (operand : Value) : EStateM ScriptError Value Unit := do
  let value ← get
  let result ← MonadExcept.ofExcept (do
    let a ← value.number
    let b ← operand.number
    Number.compute op a b)
  set result.toValue

def numericCompare (left right : Value) : Except ScriptError Ordering := do
  let a ← left.number
  let b ← right.number
  Number.compare a b

/-- A double as it is written. A whole number below `10 ^ 15` keeps one place, and all others take the
fewest digits that read back. -/
def renderFloat (x : Float) : String :=
  let bits := Binary64.magnitude x
  if Binary64.infinity < bits then "NaN"
  else
    let sign := if Binary64.isNegative x then "-" else ""
    if bits = Binary64.infinity then sign ++ "inf"
    else
      let (coefficient, exponent) := Shortest.decimal bits
      let body := String.ofList (Decimal.positional coefficient exponent)
      let isSmall := Binary64.numerator bits < Nat.pow 10 15 * Binary64.denominator bits
      sign ++ body ++ (if Binary64.isWhole bits && isSmall then ".0" else "")

/-- The value as it is written. -/
def render : Value → String
  | .int n => toString n.toInt
  | .float x => renderFloat x
  | .text s => s

/-- The order of two values: by number if both are numbers, and else by what is written. -/
def compare (left right : Value) : Ordering :=
  match left.numericCompare right with
  | .ok order => order
  | .error _ => Ord.compare left.render right.render

/-- Whether two values are of one kind and equal. A double that is not a number differs from
itself. -/
def equals : Value → Value → Bool
  | .int a, .int b => a == b
  | .float a, .float b => a == b
  | .text a, .text b => a == b
  | _, _ => false

end Value

end PageServer.Template
