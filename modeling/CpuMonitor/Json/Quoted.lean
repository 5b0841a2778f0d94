import CpuMonitor.Json.Scan

/-!
# JSON strings

A string ends at a quote. Control characters are not allowed in it, and a backslash begins an escape. An escaped code
unit beyond the basic plane comes as a pair of surrogates.

* `Json.string` : the characters of a string, after its opening quote.
* `Json.skipString` : the rest after a string nobody looks at; its surrogates need not pair up.
-/

set_option autoImplicit false

namespace CpuMonitor.Json

def escapeLetter? (c : Char) : Option Char :=
  match c with
  | '"' => some '"'
  | '\\' => some '\\'
  | '/' => some '/'
  | 'b' => some '\x08'
  | 'f' => some '\x0c'
  | 'n' => some '\n'
  | 'r' => some '\r'
  | 't' => some '\t'
  | _ => none

def hexDigit? (c : Char) : Option Nat :=
  if c.isDigit then some (c.toNat - '0'.toNat)
  else if 'a' ≤ c ∧ c ≤ 'f' then some (c.toNat - 'a'.toNat + 10)
  else if 'A' ≤ c ∧ c ≤ 'F' then some (c.toNat - 'A'.toNat + 10)
  else none

def codeUnit? (a b c d : Char) : Option Nat :=
  match hexDigit? a, hexDigit? b, hexDigit? c, hexDigit? d with
  | some a, some b, some c, some d => some (((a * 16 + b) * 16 + c) * 16 + d)
  | _, _, _, _ => none

def byteCount (s : List Char) : Nat := s.foldl (fun n c => n + c.utf8Size) 0

/-- Reads four hexadecimal digits. If fewer than four bytes are left the text ends too early, whatever they are. -/
def codeUnit (s : List Char) : Except Fault (Nat × Rest s) :=
  match s with
  | a :: b :: c :: d :: r =>
    match codeUnit? a b c d with
    | some n => .ok (n, ⟨r, by simp only [List.length_cons]; omega⟩)
    | none => .error .malformed
  | s => .error (if byteCount s < 4 then .endOfText else .malformed)

/-- A code unit that begins a pair. -/
def isHighSurrogate (n : Nat) : Bool := 0xD800 ≤ n && n ≤ 0xDBFF

/-- A code unit that ends a pair. -/
def isLowSurrogate (n : Nat) : Bool := 0xDC00 ≤ n && n ≤ 0xDFFF

def pairedChar (high low : Nat) : Char := Char.ofNat (0x10000 + (high - 0xD800) * 0x400 + (low - 0xDC00))

/-- Reads the second half of a pair, which is an escape too. -/
def lowHalf (s : List Char) : Except Fault (Nat × Rest s) :=
  match s with
  | [] => .error .endOfText
  | ['\\'] => .error .endOfText
  | '\\' :: 'u' :: r =>
    match codeUnit r with
    | .error f => .error f
    | .ok (n, t) => if isLowSurrogate n then .ok (n, .ofTail '\\' (.ofTail 'u' t)) else .error .malformed
  | _ => .error .malformed

def escape (s : List Char) : Except Fault (Char × Rest s) :=
  match s with
  | [] => .error .endOfText
  | 'u' :: r =>
    match codeUnit r with
    | .error f => .error f
    | .ok (n, t) =>
      if isLowSurrogate n then .error .malformed
      else if isHighSurrogate n then
        match lowHalf t.val with
        | .error f => .error f
        | .ok (low, t') => .ok (pairedChar n low, .ofTail 'u' (t.trans t'))
      else .ok (Char.ofNat n, .ofTail 'u' t)
  | c :: r =>
    match escapeLetter? c with
    | some d => .ok (d, .tail c r)
    | none => .error .malformed

def string (s : List Char) : Except Fault (List Char × Rest s) :=
  match s with
  | [] => .error .endOfText
  | '"' :: r => .ok ([], .tail '"' r)
  | '\\' :: r =>
    match escape r with
    | .error f => .error f
    | .ok (c, t) =>
      match string t.val with
      | .error f => .error f
      | .ok (cs, t') => .ok (c :: cs, .ofTail '\\' (t.trans t'))
  | c :: r =>
    if c < ' ' then .error .malformed
    else
      match string r with
      | .error f => .error f
      | .ok (cs, t) => .ok (c :: cs, .ofTail c t)
termination_by s.length
decreasing_by
  · exact Nat.lt_succ_of_lt t.property
  · exact Nat.lt_succ_self _

/-- The rest after what follows a backslash; a code unit stands alone here. -/
def skipEscape (s : List Char) : Except Fault (Rest s) :=
  match s with
  | [] => .error .endOfText
  | 'u' :: r =>
    match codeUnit r with
    | .error f => .error f
    | .ok (_, t) => .ok (.ofTail 'u' t)
  | c :: r => if (escapeLetter? c).isSome then .ok (.tail c r) else .error .malformed

def skipString (s : List Char) : Except Fault (Rest s) :=
  match s with
  | [] => .error .endOfText
  | '"' :: r => .ok (.tail '"' r)
  | '\\' :: r =>
    match skipEscape r with
    | .error f => .error f
    | .ok t =>
      match skipString t.val with
      | .error f => .error f
      | .ok t' => .ok (.ofTail '\\' (t.trans t'))
  | c :: r =>
    if c < ' ' then .error .malformed
    else
      match skipString r with
      | .error f => .error f
      | .ok t => .ok (.ofTail c t)
termination_by s.length
decreasing_by
  · exact Nat.lt_succ_of_lt t.property
  · exact Nat.lt_succ_self _

end CpuMonitor.Json
