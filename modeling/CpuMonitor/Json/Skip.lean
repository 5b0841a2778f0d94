import CpuMonitor.Json.Numeral
import CpuMonitor.Json.Quoted

/-!
# Skipping JSON values

* `Json.skipValue` : the rest after one value, of which only the form is looked at.

The brackets that are open are kept in a list, so a value may nest without limit.
-/

set_option autoImplicit false

namespace CpuMonitor.Json

inductive Bracket where
  | square
  | curly
  deriving DecidableEq

def Bracket.close : Bracket → Char
  | .square => ']'
  | .curly => '\x7d'

/-- Skips a value that is no array or object. A number that breaks off is malformed, also at the end of the text. -/
def skipScalar (c : Char) (r : List Char) : Except Fault (Rest (c :: r)) :=
  let word := fun (w : List Char) =>
    match literal w r with
    | .error f => Except.error f
    | .ok t => .ok (.ofEnd c t)
  if c = '"' then
    match skipString r with
    | .error f => .error f
    | .ok t => .ok (.ofTail c t)
  else if c = 'n' then word ['u', 'l', 'l']
  else if c = 't' then word ['r', 'u', 'e']
  else if c = 'f' then word ['a', 'l', 's', 'e']
  else if c = '-' ∨ c.isDigit then
    match numeral (c :: r) with
    | .error _ => .error .malformed
    | .ok (_, t) => .ok t
  else .error .malformed

def expect (c : Char) (s : List Char) : Except Fault (Rest s) :=
  match next? s with
  | none => .error .endOfText
  | some (d, r) => if d = c then .ok r else .error .malformed

def skipKey (s : List Char) : Except Fault (Rest s) :=
  match expect '"' s with
  | .error f => .error f
  | .ok t =>
    match skipString t.val with
    | .error f => .error f
    | .ok u =>
      match expect ':' u.val with
      | .error f => .error f
      | .ok v => .ok ((t.trans u).trans v)

/-- Where the reader stands: before a value, behind an opening bracket, before an item of a bracket, or behind a value. -/
inductive Place where
  | value
  | first (b : Bracket)
  | item (b : Bracket)
  | behind

/-- How many places are passed before the next character is taken. -/
def Place.weight : Place → Nat
  | .value => 0
  | .first _ => 2
  | .item _ => 1
  | .behind => 0

/-- Skips what has to come at a place, and then all up to the end of the outermost bracket in `around`. -/
def skip (place : Place) (around : List Bracket) (s : List Char) : Except Fault (List Char) :=
  match place with
  | .value =>
    match next? s with
    | none => .error .endOfText
    | some ('[', r) => skip (.first .square) around r.val
    | some ('\x7b', r) => skip (.first .curly) around r.val
    | some (c, r) =>
      match skipScalar c r.val with
      | .error f => .error f
      | .ok t => skip .behind around t.val
  | .first b =>
    match next? s with
    | none => .error .endOfText
    | some (c, r) => if c = b.close then skip .behind around r.val else skip (.item b) around (c :: r.val)
  | .item .square => skip .value (.square :: around) s
  | .item .curly =>
    match skipKey s with
    | .error f => .error f
    | .ok t => skip .value (.curly :: around) t.val
  | .behind =>
    match around with
    | [] => .ok s
    | b :: around =>
      match next? s with
      | none => .error .endOfText
      | some (c, r) =>
        if c = ',' then skip (.item b) around r.val
        else if c = b.close then skip .behind around r.val
        else .error .malformed
termination_by 3 * s.length + place.weight
decreasing_by
  all_goals
    try have := t.property
    try have := r.property
    simp only [List.length_cons, Place.weight] at *
    omega

/-- How many characters are taken at a place at least. -/
def Place.taken : Place → Nat
  | .behind => 0
  | _ => 1

theorem length_skip {place : Place} {around : List Bracket} {s t : List Char} (h : skip place around s = .ok t) :
    t.length + place.taken ≤ s.length := by
  fun_induction skip place around s
  all_goals try have := Subtype.property ‹Rest _›
  all_goals grind [Place.taken]

def skipValue (s : List Char) : Except Fault (Rest s) :=
  match h : skip .value [] s with
  | .error f => .error f
  | .ok t => .ok ⟨t, length_skip h⟩

end CpuMonitor.Json
