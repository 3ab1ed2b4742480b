import PageServer.Text.Split
import PageServer.Text.Quoted

/-! # Listen addresses

An address is four numbers or up to eight hexadecimal groups in brackets, and a port. A run of zero
groups can be left out once, the last two groups can be written as four numbers, and a scope can
follow a percent sign. The written form is unique: small letters, no leading zeros, and the first of
the longest runs of two or more zero groups left out.
-/

namespace PageServer

inductive Address
  /-- Four numbers below 256. -/
  | v4 (octets : List Nat) (port : Nat)
  /-- Eight numbers below 65536, and a scope, which is zero if there is none. -/
  | v6 (groups : List Nat) (scope : Nat) (port : Nat)
deriving DecidableEq, Repr

namespace Address

abbrev Reader (α : Type) := List Char → Option (α × List Char)

/-- The value of a digit to a base up to sixteen. -/
def digit? (base : Nat) (c : Char) : Option Nat :=
  let value :=
    if c.isDigit then c.toNat - 48
    else if 'a' ≤ c ∧ c ≤ 'f' then c.toNat - 87
    else if 'A' ≤ c ∧ c ≤ 'F' then c.toNat - 55
    else base
  if value < base then some value else none

def number (base bound : Nat) (width : Option Nat) (leadingZeros : Bool) : Reader Nat := fun text =>
  let ds := text.takeWhile fun c => (digit? base c).isSome
  let n := (ds.filterMap (digit? base)).foldl (fun n d => base * n + d) 0
  if ds = [] ∨ bound ≤ n ∨ width.any (· < ds.length) ∨
      (!leadingZeros && ds.head? == some '0' && 1 < ds.length) then none
  else some (n, text.drop ds.length)

def char (c : Char) : Reader Unit
  | d :: rest => if d = c then some ((), rest) else none
  | [] => none

/-- Reads `more` numbers below 256 with points before them. -/
def moreOctets : Nat → Reader (List Nat)
  | 0, text => some ([], text)
  | more + 1, text => do
    let (_, text) ← char '.' text
    let (n, text) ← number 10 256 (some 3) false text
    let (ns, text) ← moreOctets more text
    some (n :: ns, text)

def octets : Reader (List Nat) := fun text => do
  let (n, text) ← number 10 256 (some 3) false text
  let (ns, text) ← moreOctets 3 text
  some (n :: ns, text)

/-- Reads what stands behind a colon, or what stands at the start. -/
def separated {α : Type} (isFirst : Bool) (inner : Reader α) : Reader α := fun text =>
  if isFirst then inner text
  else do
    let (_, text) ← char ':' text
    inner text

/-- The two groups that four numbers make. -/
def joinOctets : List Nat → List Nat
  | a :: b :: rest => (256 * a + b) :: joinOctets rest
  | rest => rest

/-- Reads as many groups as there are, but not more than `room`, and tells whether they end with four
numbers. -/
def groups (isFirst : Bool) : Nat → List Char → (List Nat × Bool) × List Char
  | 0, text => (([], false), text)
  | room + 1, text =>
    match if room = 0 then none else separated isFirst octets text with
    | some (ns, rest) => ((joinOctets ns, true), rest)
    | none =>
      match separated isFirst (number 16 65536 (some 4) true) text with
      | none => (([], false), text)
      | some (n, rest) =>
        let ((ns, four), rest) := groups false room rest
        ((n :: ns, four), rest)

/-- Reads eight groups, of which a run of zeros can be left out at a double colon. -/
def eightGroups : Reader (List Nat) := fun text =>
  let ((front, four), rest) := groups true 8 text
  if front.length = 8 then some (front, rest)
  else if four then none
  else do
    let (_, rest) ← char ':' rest
    let (_, rest) ← char ':' rest
    let ((back, _), rest) := groups true (7 - front.length) rest
    some (front ++ List.replicate (8 - front.length - back.length) 0 ++ back, rest)

def port : Reader Nat := fun text => do
  let (_, text) ← char ':' text
  number 10 65536 none true text

def scope (text : List Char) : Nat × List Char :=
  match (char '%' text).bind fun (_, text) => number 10 (Nat.pow 2 32) none true text with
  | some (n, rest) => (n, rest)
  | none => (0, text)

def readV4 : Reader Address := fun text => do
  let (ns, text) ← octets text
  let (p, text) ← port text
  some (.v4 ns p, text)

/-- Reads an address in brackets. -/
def readV6 : Reader Address := fun text => do
  let (_, text) ← char '[' text
  let (gs, text) ← eightGroups text
  let (s, text) := scope text
  let (_, text) ← char ']' text
  let (p, text) ← port text
  some (.v6 gs s p, text)

def parse? (text : String) : Option Address :=
  match (readV4 text.toList).or (readV6 text.toList) with
  | some (address, []) => some address
  | _ => none

def zeroRun (gs : List Nat) : Nat :=
  (gs.takeWhile (· = 0)).length

def longestRun (gs : List Nat) : Nat × Nat :=
  (List.range gs.length).foldl
    (fun best start =>
      let run := zeroRun (gs.drop start)
      if best.2 < run then (start, run) else best)
    (0, 0)

def joinGroups (gs : List Nat) : String :=
  ":".intercalate (gs.map Text.hexadecimal)

def joinDotted (ns : List Nat) : String :=
  ".".intercalate (ns.map toString)

/-- The groups as they are written. An address that stands for four numbers shows them. -/
def renderGroups : List Nat → String
  | [0, 0, 0, 0, 0, 65535, high, low] =>
    "::ffff:" ++ joinDotted [high / 256, high % 256, low / 256, low % 256]
  | gs =>
    let (start, run) := longestRun gs
    if run < 2 then joinGroups gs
    else joinGroups (gs.take start) ++ "::" ++ joinGroups (gs.drop (start + run))

def render : Address → String
  | .v4 ns p => joinDotted ns ++ s!":{p}"
  | .v6 gs s p =>
    "[" ++ renderGroups gs ++ (if s = 0 then "" else s!"%{s}") ++ s!"]:{p}"

end Address

end PageServer
