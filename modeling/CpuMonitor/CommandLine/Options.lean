/-!
# Options of a command

* `Word` : what one word of a command line is: the end of the options, an option by name, switches by letter, or plain.
* `readOptions` : the options that the words of a command give, each once.

An option takes its value from behind an equals sign in its word, or from the next word if that is plain. Words that are
no options are not allowed.
-/

set_option autoImplicit false

namespace CpuMonitor.CommandLine

inductive Word where
  | endOfOptions
  | long (name : String) (value : Option String)
  | short (letters : List Char)
  | plain
  deriving DecidableEq

/-- What a word is. A dash alone is plain. -/
def Word.ofText (s : String) : Word :=
  match s.toList with
  | ['-', '-'] => .endOfOptions
  | '-' :: '-' :: r =>
    match r.span (· != '=') with
    | (name, '=' :: value) => .long (String.ofList name) (some (String.ofList value))
    | (name, _) => .long (String.ofList name) none
  | ['-'] => .plain
  | '-' :: letters => .short letters
  | _ => .plain

/-- An option of a command. A switch stands alone, any other option has a value. -/
structure OptionName where
  name : String
  isSwitch : Bool
  deriving DecidableEq

/-- The switch that every command has. -/
def verboseName : String := "verbose"

def verboseLetter : Char := 'v'

abbrev Options : Type := List (String × String)

namespace Options

def has (o : Options) (name : String) : Bool := (o.lookup name).isSome

def add? (o : Options) (name value : String) : Option Options :=
  if o.has name then none else some (o ++ [(name, value)])

end Options

/-- The switches of a word; only the one that every command has is given by letter. -/
def addLetters? (o : Options) : List Char → Option Options
  | [] => some o
  | c :: r => if c = verboseLetter then (o.add? verboseName "").bind fun o' => addLetters? o' r else none

/-- The options that words give, behind those given before; nothing if the words are not used rightly. -/
def readOptions (known : List OptionName) (o : Options) : List String → Option Options
  | [] => some o
  | word :: rest =>
    match Word.ofText word with
    | .endOfOptions => if rest.isEmpty then some o else none
    | .plain => none
    | .short letters => (addLetters? o letters).bind fun o' => readOptions known o' rest
    | .long name value =>
      match known.find? fun k => k.name == name with
      | none => none
      | some ⟨_, true⟩ =>
        if value.isSome then none else (o.add? name "").bind fun o' => readOptions known o' rest
      | some ⟨_, false⟩ =>
        match value with
        | some v => (o.add? name v).bind fun o' => readOptions known o' rest
        | none =>
          match rest with
          | [] => none
          | v :: rest =>
            if Word.ofText v = .plain then (o.add? name v).bind fun o' => readOptions known o' rest else none

end CpuMonitor.CommandLine
