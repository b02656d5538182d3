import PixelScale.Files.Path
import PixelScale.Number.Numeral
import PixelScale.Options.Record
import PixelScale.Text.Digit

/-!
# Arguments

The first argument names a command, the others are its flags and its inputs. A flag starts with two
dashes, or with one if it has a short name of one letter. A value follows as the next argument, behind
an equals sign, or directly behind a short name. A value that is an argument of its own does not
start with a dash, unless it is a dash alone. Two dashes alone end the flags. Every flag is given at
most once, but for the lists: their values are cut at commas, and those of all occurrences count.

* `Command.ofArguments`: the command that arguments ask for.
-/

namespace PixelScale

/-- Where options come from, apart from defaults. -/
structure OptionArguments where
  config : Option Path := none
  noConfig : Bool := false
  /-- what was said about options, apart from the two lists of rules -/
  record : Record := {}
  selectorBlackList : Option (List Text) := none
  exclude : Option (List Text) := none

structure ConvertArguments where
  inputs : List Text := []
  output : Option Path := none
  inPlace : Bool := false
  check : Bool := false
  stdin : Bool := false
  stdinPath : Option Text := none
  report : Option Path := none
  options : OptionArguments := {}

inductive Command where
  | convert (a : ConvertArguments)
  | value (text : Text) (file : Option Text) (options : OptionArguments)
  | config (file : Option Text) (options : OptionArguments)
  | init (folder : Path) (force : Bool)

/-- Why arguments ask for no command. -/
inductive Refusal where
  | version
  | help
  /-- the arguments make no sense -/
  | usage
deriving DecidableEq, Repr

namespace Command

/-- The names of commands. -/
inductive Word where
  | convert
  | value
  | config
  | init
deriving DecidableEq, Repr

inductive Flag where
  | output
  | inPlace
  | check
  | stdin
  | stdinPath
  | report
  | jobs
  | config
  | noConfig
  | unit
  | rootValue
  | unitPrecision
  | propList
  | selectorBlackList
  | replace
  | mediaQuery
  | minPixelValue
  | exclude
  | file
  | force
deriving DecidableEq, Repr

namespace Flag

def long : Flag → Text
  | output => "output".toList
  | inPlace => "in-place".toList
  | check => "check".toList
  | stdin => "stdin".toList
  | stdinPath => "stdin-path".toList
  | report => "report".toList
  | jobs => "jobs".toList
  | config => "config".toList
  | noConfig => "no-config".toList
  | unit => "unit".toList
  | rootValue => "root-value".toList
  | unitPrecision => "unit-precision".toList
  | propList => "prop-list".toList
  | selectorBlackList => "selector-black-list".toList
  | replace => "replace".toList
  | mediaQuery => "media-query".toList
  | minPixelValue => "min-pixel-value".toList
  | exclude => "exclude".toList
  | file => "file".toList
  | force => "force".toList

def short? : Flag → Option Char
  | output => some 'o'
  | jobs => some 'j'
  | config => some 'c'
  | _ => none

/-- Whether a flag stands alone, without a value. -/
def isSwitch : Flag → Bool
  | inPlace | check | stdin | noConfig | mediaQuery | force => true
  | _ => false

/-- Whether a flag may be given more than once. -/
def isList : Flag → Bool
  | propList | selectorBlackList | exclude => true
  | _ => false

/-- The flags about options. -/
def options : List Flag :=
  [config, noConfig, unit, rootValue, unitPrecision, propList, selectorBlackList, replace,
   mediaQuery, minPixelValue, exclude]

end Flag

namespace Word

def ofText? (t : Text) : Option Word :=
  if t = "convert".toList then some convert
  else if t = "value".toList then some value
  else if t = "config".toList then some config
  else if t = "init".toList then some init
  else none

/-- The flags of a command. -/
def flags : Word → List Flag
  | convert => [.output, .inPlace, .check, .stdin, .stdinPath, .report, .jobs] ++ Flag.options
  | value | config => .file :: Flag.options
  | init => [.force]

/-- The most inputs that a command takes, if there is a limit. -/
def capacity? : Word → Option Nat
  | convert => none
  | value => some 1
  | config => some 0
  | init => some 1

end Word

/-- What was given so far. -/
structure Given where
  used : List Flag := []
  inputs : List Text := []
  convert : ConvertArguments := {}
  options : OptionArguments := {}
  file : Option Text := none
  force : Bool := false

/-! ## Values -/

/-- A path is not empty. -/
def path? (t : Text) : Option Path := if t.isEmpty then none else some ⟨t⟩

/-- A whole number with an optional plus in front. -/
def whole? (t : Text) : Option Nat :=
  match t with
  | '+' :: t => Text.toNat? 10 t
  | t => Text.toNat? 10 t

/-- A whole number below `2 ^ 32`; zero may have a minus in front. -/
def precision? (t : Text) : Option Nat :=
  match t with
  | '-' :: t => (Text.toNat? 10 t).filter (· = 0)
  | t => (whole? t).filter (· < Nat.pow 2 32)

def bool? (t : Text) : Option Bool :=
  if t = "true".toList then some true else if t = "false".toList then some false else none

/-- A list with the values of one more occurrence. -/
def more (list : Option (List Text)) (t : Text) : Option (List Text) :=
  some (list.getD [] ++ Text.fields ',' t)

namespace Given

def withRecord (g : Given) (r : Record) : Given := { g with options := { g.options with record := r } }

/-- The effect of a flag with a value, which is not looked at for a switch. -/
def give? (g : Given) (f : Flag) (v : Text) : Option Given :=
  let c := g.convert
  let o := g.options
  let r := o.record
  match f with
  | .output => do return { g with convert := { c with output := some (← path? v) } }
  | .inPlace => some { g with convert := { c with inPlace := true } }
  | .check => some { g with convert := { c with check := true } }
  | .stdin => some { g with convert := { c with stdin := true } }
  | .stdinPath => some { g with convert := { c with stdinPath := some v } }
  | .report => do return { g with convert := { c with report := some (← path? v) } }
  -- files are converted one after another, so their number has no effect
  | .jobs => ((whole? v).filter (· < Nat.pow 2 64)).map fun _ => g
  | .config => do return { g with options := { o with config := some (← path? v) } }
  | .noConfig => some { g with options := { o with noConfig := true } }
  | .unit => some (g.withRecord { r with unit := some v })
  | .rootValue => do return g.withRecord { r with rootValue := some (← Numeral.toFloat? v) }
  | .unitPrecision => do return g.withRecord { r with unitPrecision := some (← precision? v) }
  | .propList => some (g.withRecord { r with propList := more r.propList v })
  | .selectorBlackList =>
    some { g with options := { o with selectorBlackList := more o.selectorBlackList v } }
  | .replace => do return g.withRecord { r with replace := some (← bool? v) }
  | .mediaQuery => some (g.withRecord { r with mediaQuery := some true })
  | .minPixelValue => do return g.withRecord { r with minPixelValue := some (← Numeral.toFloat? v) }
  | .exclude => some { g with options := { o with exclude := more o.exclude v } }
  | .file => some { g with file := some v }
  | .force => some { g with force := true }

/-- The effect of a flag with a value, unless it was used up. -/
def use (g : Given) (f : Flag) (v : Text) : Except Refusal Given :=
  if g.used.contains f && !f.isList then .error .usage
  else
    match g.give? f v with
    | some g => .ok { g with used := f :: g.used }
    | none => .error .usage

/-- The effect of an input. -/
def add (g : Given) (w : Word) (t : Text) : Except Refusal Given :=
  if w.capacity?.any (· ≤ g.inputs.length) then .error .usage
  else .ok { g with inputs := g.inputs ++ [t] }

end Given

/-! ## Reading -/

/-- The form of an argument. -/
inductive Form where
  /-- two dashes alone -/
  | endOfFlags
  | long (name : Text) (attached : Option Text)
  | short (c : Char) (attached : Option Text)
  | input (t : Text)
deriving DecidableEq, Repr

def Form.ofText : Text → Form
  | ['-', '-'] => endOfFlags
  | '-' :: '-' :: body =>
    match Text.splitFirst '=' body with
    | some (name, attached) => long name (some attached)
    | none => long body none
  | ['-', c] => short c none
  | '-' :: c :: '=' :: attached => short c (some attached)
  | '-' :: c :: attached => short c (some attached)
  | t => input t

/-- The flag that a form names, if it is one of the command. -/
def Form.flag? (w : Word) : Form → Option Flag
  | long name _ => w.flags.find? fun f => f.long = name
  | short c _ => w.flags.find? fun f => f.short? = some c
  | _ => none

/-- The value that a form has with it. -/
def Form.attached? : Form → Option Text
  | long _ attached | short _ attached => attached
  | _ => none

/-- Whether help is asked for. -/
def Form.isHelp : Form → Bool
  | long name none => name = "help".toList
  | short c _ => c = 'h'
  | _ => false

/-- The effect of a flag, and the flag itself if its value is still to come. -/
def flag (g : Given) (f : Flag) (attached : Option Text) : Except Refusal (Option Flag × Given) :=
  match f.isSwitch, attached with
  | true, none => do return (none, ← g.use f [])
  | true, some _ => .error .usage
  | false, some v => do return (none, ← g.use f v)
  | false, none => .ok (some f, g)

/-- What arguments give, where a flag may still wait for its value. -/
def read (w : Word) : Option Flag → Given → List Text → Except Refusal Given
  | none, g, [] => .ok g
  | some _, _, [] => .error .usage
  | some f, g, t :: rest =>
    match Form.ofText t with
    | .input v => do read w none (← g.use f v) rest
    | _ => .error .usage
  | none, g, t :: rest =>
    match Form.ofText t with
    | .input v => do read w none (← g.add w v) rest
    | .endOfFlags => rest.foldlM (fun g t => g.add w t) g
    | form =>
      if form.isHelp then .error .help
      else
        match form.flag? w with
        | some f => do
          let (waiting, g) ← flag g f form.attached?
          read w waiting g rest
        | none => .error .usage

/-- The command that was given. -/
def ofGiven (w : Word) (g : Given) : Except Refusal Command :=
  if g.options.config.isSome && g.options.noConfig then .error .usage
  else
    match w, g.inputs with
    | .convert, inputs => .ok (.convert { g.convert with inputs, options := g.options })
    | .value, [t] => .ok (.value t g.file g.options)
    | .value, _ => .error .usage
    | .config, _ => .ok (.config g.file g.options)
    | .init, [] => .ok (.init ⟨['.']⟩ g.force)
    | .init, t :: _ =>
      match path? t with
      | some p => .ok (.init p g.force)
      | none => .error .usage

/-- Help is asked for in general or for a command. -/
def help : List Text → Refusal
  | [] => .help
  | [t] => if (Word.ofText? t).isSome || t = "help".toList then .help else .usage
  | _ => .usage

/-- The command that arguments ask for. -/
def ofArguments : List Text → Except Refusal Command
  | [] => .error .usage
  | t :: rest =>
    if t = "--version".toList || "-V".toList.isPrefixOf t then .error .version
    else if t = "--help".toList || "-h".toList.isPrefixOf t then .error .help
    else if t = "help".toList then .error (help rest)
    else
      match Word.ofText? t with
      | some w => do ofGiven w (← read w none {} rest)
      | none => .error .usage

end Command

end PixelScale
