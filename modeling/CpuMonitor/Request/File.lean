import CpuMonitor.Json.Found
import CpuMonitor.Request.Basic

/-!
# Request files

A request file is a JSON text: an object whose members give the three lists, each under either of two keys, or an array
of at most three lists. What is not given takes the default, and other members are skipped.

* `Request.Field` : the three lists.
* `Request.FileProblem` : why a text is no request file.
* `Request.ofJson` : the request that a text holds.
* `Request.ofFile` : the request that the bytes of a file hold.

The text is read from front to back, and the first problem counts: a value of the wrong shape, also when the text after
it is no JSON, and a list given twice at its second key.
-/

set_option autoImplicit false

namespace CpuMonitor.Request

/-! ## The lists -/

inductive Field where
  | loadWindows
  | windows
  | kinds
  deriving DecidableEq

namespace Field

def all : List Field := [.loadWindows, .windows, .kinds]

def key : Field → String
  | .loadWindows => "load_average_windows"
  | .windows => "utilization_windows"
  | .kinds => "utilization_types"

/-- The second key under which a list may be given. -/
def secondKey : Field → String
  | .loadWindows => "cpu_load_data_gathering_mode"
  | .windows => "cpu_utilisation_gathering_mode"
  | .kinds => "cpu_utilisation_types"

def ofKey? (s : String) : Option Field := all.find? fun f => f.key == s || f.secondKey == s

end Field

structure Given where
  loadWindows : Option (List String)
  windows : Option (List String)
  kinds : Option (List String)
  deriving DecidableEq

namespace Given

def nothing : Given := ⟨none, none, none⟩

def get? (g : Given) : Field → Option (List String)
  | .loadWindows => g.loadWindows
  | .windows => g.windows
  | .kinds => g.kinds

def set (g : Given) (f : Field) (l : List String) : Given :=
  match f with
  | .loadWindows => { g with loadWindows := some l }
  | .windows => { g with windows := some l }
  | .kinds => { g with kinds := some l }

/-- The request with the defaults in the place of what is not given. -/
def request (g : Given) : Request where
  loadWindows := g.loadWindows.getD fallback.loadWindows
  windows := g.windows.getD fallback.windows
  kinds := g.kinds.getD fallback.kinds

end Given

/-! ## Problems -/

inductive Expected where
  | request
  | list
  | string
  deriving DecidableEq

def Expected.text : Expected → String
  | .request => "struct RawConfig"
  | .list => "a sequence"
  | .string => "a string"

/-- Why a text is no request file. -/
inductive FileProblem where
  | fault (f : Json.Fault)
  | wrongShape (found : Json.Found) (expected : Expected)
  | givenTwice (f : Field)
  deriving DecidableEq

def FileProblem.message : FileProblem → String
  | .fault .endOfText => "the text ends too early"
  | .fault .malformed => "malformed JSON"
  | .wrongShape found expected => "invalid type: " ++ found.text ++ ", expected " ++ expected.text
  | .givenTwice f => "duplicate field `" ++ f.key ++ "`"

/-! ## Reading -/

section Reading
open Json (Rest next? expect)

def lift {α : Type} : Except Json.Fault α → Except FileProblem α
  | .ok a => .ok a
  | .error f => .error (.fault f)

/-- The problem of a value that begins with `c` where something else was asked for. -/
def misfit (expected : Expected) (c : Char) (r : List Char) : FileProblem :=
  match Json.found c r with
  | .error f => .fault f
  | .ok found => .wrongShape found expected

def readString (s : List Char) : Except FileProblem (String × Rest s) :=
  match next? s with
  | none => .error (.fault .endOfText)
  | some ('"', r) =>
    match Json.string r.val with
    | .error f => .error (.fault f)
    | .ok (cs, t) => .ok (String.ofList cs, r.trans t)
  | some (c, r) => .error (misfit .string c r.val)

def readStrings (s : List Char) : Except FileProblem (List String × Rest s) :=
  match readString s with
  | .error p => .error p
  | .ok (a, t) =>
    match next? t.val with
    | none => .error (.fault .endOfText)
    | some (']', u) => .ok ([a], t.trans u)
    | some (',', u) =>
      match readStrings u.val with
      | .error p => .error p
      | .ok (l, v) => .ok (a :: l, (t.trans u).trans v)
    | some _ => .error (.fault .malformed)
termination_by s.length
decreasing_by exact Nat.lt_trans u.property t.property

def readList (s : List Char) : Except FileProblem (List String × Rest s) :=
  match next? s with
  | none => .error (.fault .endOfText)
  | some ('[', r) =>
    match next? r.val with
    | some (']', t) => .ok ([], r.trans t)
    | _ =>
      match readStrings r.val with
      | .error p => .error p
      | .ok (l, t) => .ok (l, r.trans t)
  | some (c, r) => .error (misfit .list c r.val)

/-- Reads the lists of an array, for `f` and then as many of `fields` as there are. -/
def readLists (g : Given) (f : Field) (fields : List Field) (s : List Char) :
    Except FileProblem (Given × Rest s) :=
  match readList s with
  | .error p => .error p
  | .ok (l, t) =>
    match fields, next? t.val with
    | _, none => .error (.fault .endOfText)
    | _, some (']', u) => .ok (g.set f l, t.trans u)
    | f' :: fields, some (',', u) =>
      match readLists (g.set f l) f' fields u.val with
      | .error p => .error p
      | .ok (g', v) => .ok (g', (t.trans u).trans v)
    | _, some _ => .error (.fault .malformed)

def readArray (s : List Char) : Except FileProblem (Given × Rest s) :=
  match next? s with
  | some (']', t) => .ok (.nothing, t)
  | _ => readLists .nothing .loadWindows [.windows, .kinds] s

/-- Reads the value of a member: a list for a field, anything for another key. -/
def readValue (g : Given) (key : String) (s : List Char) : Except FileProblem (Given × Rest s) :=
  match Field.ofKey? key with
  | some f =>
    if (g.get? f).isSome then .error (.givenTwice f)
    else
      match expect ':' s with
      | .error e => .error (.fault e)
      | .ok t =>
        match readList t.val with
        | .error p => .error p
        | .ok (l, u) => .ok (g.set f l, t.trans u)
  | none =>
    match expect ':' s with
    | .error e => .error (.fault e)
    | .ok t =>
      match Json.skipValue t.val with
      | .error e => .error (.fault e)
      | .ok u => .ok (g, t.trans u)

def readMembers (g : Given) (s : List Char) : Except FileProblem (Given × Rest s) :=
  match expect '"' s with
  | .error e => .error (.fault e)
  | .ok q =>
    match Json.string q.val with
    | .error e => .error (.fault e)
    | .ok (key, t) =>
      match readValue g (String.ofList key) t.val with
      | .error p => .error p
      | .ok (g', u) =>
        match next? u.val with
        | none => .error (.fault .endOfText)
        | some ('\x7d', v) => .ok (g', ((q.trans t).trans u).trans v)
        | some (',', v) =>
          match readMembers g' v.val with
          | .error p => .error p
          | .ok (g'', w) => .ok (g'', (((q.trans t).trans u).trans v).trans w)
        | some _ => .error (.fault .malformed)
termination_by s.length
decreasing_by exact (((q.trans t).trans u).trans v).property

def readObject (s : List Char) : Except FileProblem (Given × Rest s) :=
  match next? s with
  | some ('\x7d', t) => .ok (.nothing, t)
  | _ => readMembers .nothing s

def readGiven (s : List Char) : Except FileProblem (Given × Rest s) :=
  match next? s with
  | none => .error (.fault .endOfText)
  | some ('[', r) =>
    match readArray r.val with
    | .error p => .error p
    | .ok (g, t) => .ok (g, r.trans t)
  | some ('\x7b', r) =>
    match readObject r.val with
    | .error p => .error p
    | .ok (g, t) => .ok (g, r.trans t)
  | some (c, r) => .error (misfit .request c r.val)

end Reading

/-- The request that a text holds; behind it there is nothing but blanks. -/
def ofJson (s : String) : Except FileProblem Request :=
  match readGiven s.toList with
  | .error p => .error p
  | .ok (g, t) => if (Json.next? t.val).isSome then .error (.fault .malformed) else .ok g.request

/-! ## Files -/

inductive FileFault where
  | notFound
  | isDirectory
  | notText
  | unavailable (reason : String)
  deriving DecidableEq

def FileFault.message : FileFault → String
  | .notFound => "No such file or directory (os error 2)"
  | .isDirectory => "Is a directory (os error 21)"
  | .notText => "stream did not contain valid UTF-8"
  | .unavailable reason => reason

inductive FileError where
  | unreadable (fault : FileFault)
  | unusable (problem : FileProblem)
  deriving DecidableEq

def FileError.message (path : String) : FileError → String
  | .unreadable fault => "failed to read config " ++ path ++ ": " ++ fault.message
  | .unusable problem => "failed to parse config " ++ path ++ ": " ++ problem.message

/-- The request that a file holds, from its bytes or the reason why there are none. -/
def ofFile (content : Except FileFault ByteArray) : Except FileError Request :=
  match content with
  | .error fault => .error (.unreadable fault)
  | .ok bytes =>
    match String.fromUTF8? bytes with
    | none => .error (.unreadable .notText)
    | some s =>
      match ofJson s with
      | .error problem => .error (.unusable problem)
      | .ok r => .ok r

end CpuMonitor.Request
