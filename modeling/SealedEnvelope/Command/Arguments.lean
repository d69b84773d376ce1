import SealedEnvelope.Command.Basic

/-!
Arguments: words are read from left to right, first the settings that go for any
command, then its name, then its options together with those settings. The value
of an option is checked when the next one is met, or at the end; so of two
mistakes the one that a reader meets first is not always the one reported.
-/

namespace SealedEnvelope

/-- Why arguments do not say what to do. -/
inductive Refusal where
  | helpWanted
  | helpForNothing
  | versionWanted
  | conflict
  | unknownCommand
  | commandMissing
  | unknownOption
  | optionMissing
  | invalidValue
  | unreadableValue
  | surplusValue
deriving DecidableEq, Repr

/-- The options of all commands. -/
inductive Parameter where
  | logLevel
  | fingerprint
  | bufferSize
  | out
  | input
  | output
  | recipient
  | passwordFile
  | signKey
  | signKeyPasswordFile
  | key
  | keyPasswordFile
  | verifier
  | signature
  | publicKey
deriving DecidableEq, Repr

namespace Parameter

def long : Parameter → String
  | .logLevel => "log-level"
  | .fingerprint => "fingerprint"
  | .bufferSize => "buffer-size"
  | .out => "out"
  | .input => "input"
  | .output => "output"
  | .recipient => "recipient"
  | .passwordFile => "password-file"
  | .signKey => "sign-key"
  | .signKeyPasswordFile => "sign-key-password-file"
  | .key => "key"
  | .keyPasswordFile => "key-password-file"
  | .verifier => "verify"
  | .signature => "signature"
  | .publicKey => "public-key"

def short? : Parameter → Option Char
  | .out | .output => some 'o'
  | .input => some 'i'
  | .recipient => some 'r'
  | .key => some 'k'
  | .signature => some 's'
  | .publicKey => some 'p'
  | _ => none

/-- Whether an option may be given more than once. -/
def repeatable : Parameter → Bool
  | .recipient | .verifier => true
  | _ => false

end Parameter

/-- The fingerprint algorithm of this name. -/
def fingerprintNamed? (name : String) : Option FingerprintAlgorithm :=
  if name = "sha256" then some .sha256
  else if name = "sha512-truncated" then some .sha512Truncated
  else none

/-- Decimal digits behind an optional plus sign, for a number of 64 bits. -/
def sizeFromText? (text : String) : Option Nat :=
  let digits := match text.toList with
    | '+' :: digits => digits
    | digits => digits
  if digits ≠ [] ∧ digits.all Char.isDigit then
    let size := digits.foldl (fun n c => 10 * n + (c.toNat - 48)) 0
    if size < UInt64.size then some size else none
  else none

/-- What is wrong with a value. -/
def Parameter.refusal? (p : Parameter) (value : String) : Option Refusal :=
  match p with
  | .logLevel => none
  | .fingerprint => if (fingerprintNamed? value).isSome then none else some .invalidValue
  | .bufferSize => if (sizeFromText? value).isSome then none else some .unreadableValue
  | _ => if value = "" then some .invalidValue else none

/-- The commands without their options. -/
inductive Verb where
  | keygen
  | encrypt
  | decrypt
  | sign
  | verify
  | fingerprint
deriving DecidableEq, Repr

namespace Verb

def name : Verb → String
  | .keygen => "keygen"
  | .encrypt => "encrypt"
  | .decrypt => "decrypt"
  | .sign => "sign"
  | .verify => "verify"
  | .fingerprint => "fingerprint"

def all : List Verb := [.keygen, .encrypt, .decrypt, .sign, .verify, .fingerprint]

def named? (name : String) : Option Verb := all.find? fun verb => verb.name = name

def parameters : Verb → List Parameter
  | .keygen => [.out, .passwordFile]
  | .encrypt => [.input, .output, .recipient, .passwordFile, .signKey, .signKeyPasswordFile]
  | .decrypt => [.input, .output, .key, .keyPasswordFile, .passwordFile, .verifier]
  | .sign => [.input, .output, .key, .keyPasswordFile]
  | .verify => [.input, .signature, .publicKey]
  | .fingerprint => [.publicKey]

end Verb

/-- What kind of word an argument is. -/
inductive Word where
  | separator
  | long (name : String) (value : Option String)
  | short (letter : Char) (value : Option String)
  | plain
deriving DecidableEq, Repr

/-- A value of a long option follows an equals sign, one of a short option its letter, with or
without an equals sign between. -/
def Word.ofText (text : String) : Word :=
  match text.toList with
  | ['-', '-'] => .separator
  | '-' :: '-' :: rest =>
      let name := String.ofList (rest.takeWhile (· ≠ '='))
      match rest.dropWhile (· ≠ '=') with
      | [] => .long name none
      | _ :: value => .long name (some (String.ofList value))
  | ['-'] => .plain
  | ['-', letter] => .short letter none
  | '-' :: letter :: '=' :: value => .short letter (some (String.ofList value))
  | '-' :: letter :: value => .short letter (some (String.ofList value))
  | _ => .plain

/-- Where words are read: before the name of the command, or behind it. -/
inductive Stage where
  | top
  | behind (verb : Verb)
deriving DecidableEq, Repr

/-- What a word can ask for. -/
inductive Demand where
  | help
  | version
  | set (parameter : Parameter)
deriving DecidableEq, Repr

namespace Stage

/-- The settings that go for any command can stand before and behind its name. -/
def parameters (stage : Stage) : List Parameter :=
  let general := [.logLevel, .fingerprint, .bufferSize]
  match stage with
  | .top => general
  | .behind verb => general ++ verb.parameters

def long? (stage : Stage) (name : String) : Option Demand :=
  if name = "help" then some .help
  else if name = "version" ∧ stage = .top then some .version
  else (stage.parameters.find? fun p => p.long = name).map .set

def short? (stage : Stage) (letter : Char) : Option Demand :=
  if letter = 'h' then some .help
  else if letter = 'V' ∧ stage = .top then some .version
  else (stage.parameters.find? fun p => p.short? = some letter).map .set

end Stage

/-- Options read so far. The last one is open: its value has not been checked, or is to come. -/
structure Given where
  settled : List (Parameter × String)
  pending : Option (Parameter × Option String)
deriving DecidableEq, Repr

namespace Given

def nothing : Given := ⟨[], none⟩

/-- Checks the open option: it has a value, it is not there already, and the value is a good one. -/
def settle (g : Given) : Except Refusal Given :=
  match g.pending with
  | none => .ok g
  | some (_, none) => .error .invalidValue
  | some (p, some value) =>
      if ¬ p.repeatable ∧ g.settled.any (fun earlier => earlier.1 = p) then .error .conflict
      else match p.refusal? value with
        | some refusal => .error refusal
        | none => .ok ⟨g.settled ++ [(p, value)], none⟩

/-- Whether the next word is the value of the open option. -/
def isAwaiting (g : Given) : Bool :=
  match g.pending with
  | some (_, none) => true
  | _ => false

/-- Meets a demand behind what has been read. A value that comes with an option is checked at
once. -/
def meet (g : Given) (demand : Demand) (value : Option String) : Except Refusal Given := do
  let g ← g.settle
  match demand, value with
  | .help, _ => .error .helpWanted
  | .version, _ => .error .versionWanted
  | .set p, none => .ok ⟨g.settled, some (p, none)⟩
  | .set p, some value => settle ⟨g.settled, some (p, some value)⟩

/-- Takes a word that is no option. -/
def supply (g : Given) (stage : Stage) (text : String) : Except Refusal Given :=
  match g.pending with
  | some (p, none) => .ok ⟨g.settled, some (p, some text)⟩
  | _ => .error (match stage with
    | .top => .unknownCommand
    | .behind _ => .unknownOption)

/-- The value of an option. -/
def value? (g : Given) (p : Parameter) : Option String := g.settled.lookup p

/-- All values of an option, in order. -/
def values (g : Given) (p : Parameter) : List String :=
  (g.settled.filter fun given => given.1 = p).map Prod.snd

/-- The value of an option that must be there. -/
def need (g : Given) (p : Parameter) : Except Refusal String :=
  match g.value? p with
  | some value => .ok value
  | none => .error .optionMissing

end Given

/-- What a first word can be besides the name of a command. -/
def helpName : String := "help"

def isCommandName (text : String) : Bool := (Verb.named? text).isSome || text = helpName

/-- The answer to `help` and the words behind it: at most the name of one command. -/
def helpAnswer : List String → Refusal
  | [] => .helpWanted
  | [name] => if isCommandName name then .helpWanted else .unknownCommand
  | _ => .unknownCommand

/-- The answer to a word behind the separator, where none is of use. -/
def Stage.strayAnswer (stage : Stage) (text : String) : Refusal :=
  match stage with
  | .top => if isCommandName text then .unknownOption else .unknownCommand
  | .behind _ => .unknownOption

/-- The command whose name stands here, and the words behind it. -/
abbrev Turn := Verb × List String

/-- Reads words up to the end or the name of a command. -/
def scan (stage : Stage) (g : Given) : List String → Except Refusal (Given × Option Turn)
  | [] => .ok (g, none)
  | text :: rest =>
      if stage = .top ∧ g.isAwaiting = false ∧ text = helpName then .error (helpAnswer rest)
      else
        let verb? := if stage = .top ∧ g.isAwaiting = false then Verb.named? text else none
        match verb?, Word.ofText text with
        | some verb, _ => .ok (g, some (verb, rest))
        | none, .separator =>
            match rest with
            | [] => .ok (g, none)
            | stray :: _ => .error (stage.strayAnswer stray)
        | none, .long name value =>
            match stage.long? name, value with
            | none, _ => .error .unknownOption
            | some (.set p), value => (g.meet (.set p) value).bind fun g => scan stage g rest
            | some demand, none => (g.meet demand none).bind fun g => scan stage g rest
            | some _, some _ => .error .surplusValue
        | none, .short letter value =>
            match stage.short? letter with
            | none => .error .unknownOption
            | some demand => (g.meet demand value).bind fun g => scan stage g rest
        | none, .plain => (g.supply stage text).bind fun g => scan stage g rest

/-- The command that a verb and its options make. Of the options that another one needs none may
be missing; but a key is not missed beside the password that excludes it. -/
def Command.ofGiven (verb : Verb) (g : Given) : Except Refusal Command := do
  match verb with
  | .keygen => return .keygen (← g.need .out) (← g.need .passwordFile)
  | .encrypt =>
      let input ← g.need .input
      let output ← g.need .output
      let signer ← match g.value? .signKey, g.value? .signKeyPasswordFile with
        | none, none => pure none
        | some key, some password => pure (some (key, password))
        | _, _ => throw .optionMissing
      return .encrypt input output (g.values .recipient) (g.value? .passwordFile) signer
  | .decrypt =>
      let key := g.value? .key
      let keyPasswordFile := g.value? .keyPasswordFile
      let passwordFile := g.value? .passwordFile
      let verifiers := g.values .verifier
      if key.isSome ∧ passwordFile.isSome then throw .conflict
      if (key.isSome ∨ verifiers ≠ []) ∧ keyPasswordFile.isNone then throw .optionMissing
      if verifiers ≠ [] ∧ key.isNone ∧ passwordFile.isNone then throw .optionMissing
      return .decrypt (← g.need .input) (← g.need .output) key keyPasswordFile passwordFile
        verifiers
  | .sign =>
      return .sign (← g.need .input) (← g.need .output) (← g.need .key) (← g.need .keyPasswordFile)
  | .verify => return .verify (← g.need .input) (← g.need .signature) (← g.need .publicKey)
  | .fingerprint => return .fingerprint (← g.need .publicKey)

/-- The size of a segment where none is given. -/
def defaultBufferSize : Nat := 65536

namespace Invocation

/-- Reads what stands behind the name of a command. -/
def readBehind (turn : Turn) : Except Refusal (Given × Command) := do
  let (g, _) ← scan (.behind turn.1) .nothing turn.2
  let g ← g.settle
  return (g, ← Command.ofGiven turn.1 g)

/-- Reads all arguments. A setting behind the name of the command wins over the same before it. -/
def ofArguments (arguments : List String) : Except Refusal Invocation := do
  let (before, turn?) ← scan .top .nothing arguments
  let behind? ← turn?.mapM readBehind
  let before ← before.settle
  match behind? with
  | none => throw (if before.settled = [] then .helpForNothing else .commandMissing)
  | some (behind, command) =>
      let setting (p : Parameter) := behind.value? p <|> before.value? p
      return {
        logLevel := (setting .logLevel).getD "warn"
        fingerprint := ((setting .fingerprint).bind fingerprintNamed?).getD .sha256
        bufferSize := ((setting .bufferSize).bind sizeFromText?).getD defaultBufferSize
        command }

end Invocation

end SealedEnvelope
