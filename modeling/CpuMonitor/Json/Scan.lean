/-!
# Reading JSON from front to back

A reader takes what it reads off the front of a text and returns the rest, which is shorter. It stops at the first
fault: the text ends where it may not, or a character stands where it may not.

* `Json.Fault` : the two faults of a text.
* `Json.Rest`, `Json.End` : what is left of a text after something was read, or after perhaps nothing was.
* `Json.next?`, `Json.literal` : the next character that is not blank, and fixed words.
-/

set_option autoImplicit false

namespace CpuMonitor.Json

inductive Fault where
  | endOfText
  | malformed
  deriving DecidableEq

/-- A proper end of `s`. -/
abbrev Rest (s : List Char) : Type := { r : List Char // r.length < s.length }

def Rest.trans {s : List Char} (r : Rest s) (t : Rest r.val) : Rest s := ⟨t.val, Nat.lt_trans t.property r.property⟩

def Rest.tail (c : Char) (r : List Char) : Rest (c :: r) := ⟨r, Nat.lt_succ_self _⟩

def Rest.ofTail {r : List Char} (c : Char) (t : Rest r) : Rest (c :: r) := (Rest.tail c r).trans t

/-- An end of `s`, perhaps all of it. -/
abbrev End (s : List Char) : Type := { r : List Char // r.length ≤ s.length }

def End.all (s : List Char) : End s := ⟨s, Nat.le_refl _⟩

def End.ofTail {r : List Char} (c : Char) (t : End r) : End (c :: r) := ⟨t.val, Nat.le_succ_of_le t.property⟩

def Rest.ofEnd {r : List Char} (c : Char) (t : End r) : Rest (c :: r) := ⟨t.val, Nat.lt_succ_of_le t.property⟩

def Rest.toEnd {s : List Char} (r : Rest s) : End s := ⟨r.val, Nat.le_of_lt r.property⟩

def Rest.transEnd {s : List Char} (r : Rest s) (t : End r.val) : Rest s :=
  ⟨t.val, Nat.lt_of_le_of_lt t.property r.property⟩

/-- Only these four characters are blank between the parts of a JSON text. -/
def isBlank (c : Char) : Bool := c == ' ' || c == '\n' || c == '\t' || c == '\r'

theorem length_dropWhile_le (p : Char → Bool) (s : List Char) : (s.dropWhile p).length ≤ s.length := by
  induction s with
  | nil => simp
  | cons c r ih =>
    rw [List.dropWhile_cons]
    split
    · exact Nat.le_succ_of_le ih
    · exact Nat.le_refl _

/-- The first character that is not blank, and what follows it. -/
def next? (s : List Char) : Option (Char × Rest s) :=
  match h : s.dropWhile isBlank with
  | [] => none
  | c :: r => some (c, ⟨r, by
      have := length_dropWhile_le isBlank s
      rw [h] at this
      exact this⟩)

/-- The rest after the characters of `word`. -/
def literal : List Char → (s : List Char) → Except Fault (End s)
  | [], s => .ok (.all s)
  | _ :: _, [] => .error .endOfText
  | c :: word, d :: r =>
    if c = d then
      match literal word r with
      | .ok t => .ok (.ofTail d t)
      | .error f => .error f
    else .error .malformed

end CpuMonitor.Json
