/-!
# Command line arguments

One image, options with a value, flags, and `--` after which nothing is an option. The numbers among
the values are not looked at here.
-/

namespace Handheld.Cli

inductive ValueOption where
  | fps
  | speed
  | frames
  | scale
  | dump
deriving Repr, DecidableEq, Inhabited

namespace ValueOption

def all : List ValueOption := [fps, speed, frames, scale, dump]

def name : ValueOption → String
  | fps => "fps"
  | speed => "speed"
  | frames => "frames"
  | scale => "scale"
  | dump => "dump"

/-- The value of an option that is not given. -/
def default? : ValueOption → Option String
  | fps => some "60"
  | speed => some "0"
  | frames => none
  | scale => some "4"
  | dump => none

def usage : ValueOption → String
  | dump => "--dump <PATH>"
  | o => s!"--{o.name} <{o.name}>"

end ValueOption

inductive Flag where
  | noSound
  | headless
  | debug
  | trace
deriving Repr, DecidableEq, Inhabited

namespace Flag

def all : List Flag := [noSound, headless, debug, trace]

def name : Flag → String
  | noSound => "no-sound"
  | headless => "headless"
  | debug => "debug"
  | trace => "trace"

def usage (f : Flag) : String := s!"--{f.name}"

end Flag

inductive Refusal where
  | unexpected (argument : String)
  | imageMissing
  | valueMissing (o : ValueOption)
  | repeated (usage : String)
deriving Repr, DecidableEq, Inhabited

namespace Refusal

def message : Refusal → String
  | unexpected argument =>
    s!"error: Found argument '{argument}' which wasn't expected, or isn't valid in this context"
  | imageMissing => "error: The following required arguments were not provided:"
  | valueMissing o =>
    s!"error: The argument '{o.usage}' requires a value but none was supplied"
  | repeated usage =>
    s!"error: The argument '{usage}' was provided more than once, " ++
      "but cannot be used multiple times"

end Refusal

structure Scan where
  image : Option String := none
  /-- The options that were named, in order. -/
  options : List ValueOption := []
  /-- The values that were given, in order. -/
  values : List (ValueOption × String) := []
  flags : List Flag := []
  /-- The option that the next argument may be the value of. -/
  awaiting : Option ValueOption := none
  /-- `--` has been seen. -/
  onlyImages : Bool := false
deriving Repr, DecidableEq, Inhabited

/-- What ends the reading of arguments early. -/
inductive Interruption where
  /-- The version or the help is asked for. -/
  | help
  | version
  | refused (r : Refusal)
deriving Repr, DecidableEq, Inhabited

namespace Scan

def isOptionLike (arg : String) : Bool := arg.startsWith "-" && arg != "-"

/-- An argument that is not an option: there is one image. -/
def positional (s : Scan) (arg : String) : Except Interruption Scan :=
  match s.image with
  | none => .ok { s with image := some arg }
  | some _ => .error (.refused (.unexpected arg))

/-- A long option without its dashes, in two parts at the first equals sign. Further equals signs
before the value are dropped. -/
def splitValue (arg : List Char) : List Char × Option (List Char) :=
  match arg.dropWhile (· != '=') with
  | [] => (arg, none)
  | _ :: value => (arg.takeWhile (· != '='), some (value.dropWhile (· == '=')))

/-- A flag takes no notice of a value given to it. -/
def long (s : Scan) (arg : String) : Except Interruption Scan :=
  let (nameChars, value) := splitValue (arg.toList.dropWhile (· == '-'))
  let name := String.ofList nameChars
  match ValueOption.all.find? (·.name == name), value with
  | some o, some value =>
    .ok
      { s with
        options := s.options ++ [o]
        values := s.values ++ [(o, String.ofList value)]
        awaiting := none }
  | some o, none => .ok { s with options := s.options ++ [o], awaiting := some o }
  | none, _ =>
    match Flag.all.find? (·.name == name) with
    | some f => .ok { s with flags := s.flags ++ [f], awaiting := none }
    | none =>
      if name = "help" then .error .help
      else if name = "version" then .error .version
      else .error (.refused (.unexpected s!"--{name}"))

/-- The only short options are those for help and version. -/
def short (s : Scan) (arg : String) : Except Interruption Scan :=
  match arg.toList.dropWhile (· == '-') with
  | [] => .ok s
  | 'h' :: _ => .error .help
  | 'V' :: _ => .error .version
  | c :: _ => .error (.refused (.unexpected (String.ofList ['-', c])))

def next (s : Scan) (arg : String) : Except Interruption Scan :=
  if s.onlyImages then s.positional arg
  else if isOptionLike arg then
    if arg = "--" then .ok { s with onlyImages := true }
    else if arg.startsWith "--" then s.long arg
    else s.short arg
  else
    match s.awaiting with
    | some o => .ok { s with values := s.values ++ [(o, arg)], awaiting := none }
    | none => s.positional arg

def value? (s : Scan) (o : ValueOption) : Option String :=
  ((s.values.find? (·.1 == o)).map (·.2)).or o.default?

/-- Whether an option was named but there is no value for it. -/
def lacksValue (s : Scan) (o : ValueOption) : Bool := s.options.contains o && (s.value? o).isNone

/-- What is wrong with the arguments once they are all read. -/
def refusal? (s : Scan) : Option Refusal :=
  if s.image.isNone then some .imageMissing
  else
    match s.awaiting.filter s.lacksValue with
    | some o => some (.valueMissing o)
    | none =>
      match ValueOption.all.find? s.lacksValue with
      | some o => some (.valueMissing o)
      | none =>
        match ValueOption.all.find? fun o => 1 < s.options.count o with
        | some o => some (.repeated o.usage)
        | none =>
          (Flag.all.find? fun f => 1 < s.flags.count f).map fun f => .repeated f.usage

end Scan

structure Arguments where
  image : String
  fps : String
  speed : String
  frames : Option String
  scale : String
  dump : Option String
  sound : Bool
  headless : Bool
  debug : Bool
  trace : Bool
deriving Repr, DecidableEq, Inhabited

namespace Arguments

def ofScan (s : Scan) (image : String) : Arguments :=
  { image
    fps := (s.value? .fps).getD ""
    speed := (s.value? .speed).getD ""
    frames := s.value? .frames
    scale := (s.value? .scale).getD ""
    dump := s.value? .dump
    sound := !s.flags.contains .noSound
    headless := s.flags.contains .headless
    debug := s.flags.contains .debug
    trace := s.flags.contains .trace }

/-- Reads the arguments from left to right, and then looks at them as a whole. -/
def parse (args : List String) : Except Interruption Arguments := do
  let s ← args.foldlM Scan.next {}
  match s.refusal?, s.image with
  | some r, _ => .error (.refused r)
  | none, some image => .ok (ofScan s image)
  | none, none => .error (.refused .imageMissing)

end Arguments

/-- The number that a text of digits stands for, if it is below `bound`. A plus sign may precede the
digits. -/
def number? (bound : Nat) (text : String) : Option Nat :=
  let digits := match text.toList with
    | '+' :: rest => rest
    | cs => cs
  if digits.isEmpty || !digits.all Char.isDigit then none
  else
    let n := digits.foldl (fun n c => 10 * n + (c.toNat - 48)) 0
    if n < bound then some n else none

end Handheld.Cli
