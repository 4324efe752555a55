import Labyrinth.Text.Unsigned

/-!
# The command line

Arguments are read from left to right, and the first one that is wrong decides. An option may be
given once. The value of an option follows it, or is attached to it: after an equals sign, or right
after the letter of a short option.
-/

namespace Labyrinth

structure Arguments where
  config : Option String
  seed : Option Nat
  size : Option Nat
  stagger : Option Nat
  joinDeadlineSeconds : Option Nat
  probe : Bool
  printMaze : Bool
  servePositions : Bool
  port : Option Nat
deriving DecidableEq

def Arguments.none : Arguments := ⟨.none, .none, .none, .none, .none, false, false, false, .none⟩

namespace CommandLine

inductive Opt where
  | config
  | seed
  | size
  | stagger
  | joinDeadline
  | probe
  | printMaze
  | servePositions
  | port
  | help
  | version
deriving DecidableEq

namespace Opt

def ofLong? : String → Option Opt
  | "config" => some .config
  | "seed" => some .seed
  | "size" => some .size
  | "stagger-ms" => some .stagger
  | "join-deadline-secs" => some .joinDeadline
  | "probe" => some .probe
  | "print-maze" => some .printMaze
  | "serve-positions" => some .servePositions
  | "port" => some .port
  | "help" => some .help
  | "version" => some .version
  | _ => none

def ofShort? : Char → Option Opt
  | 'c' => some .config
  | 's' => some .seed
  | 'p' => some .port
  | 'h' => some .help
  | 'V' => some .version
  | _ => none

def takesValue : Opt → Bool
  | .config | .seed | .size | .stagger | .joinDeadline | .port => true
  | .probe | .printMaze | .servePositions | .help | .version => false

end Opt

/-- What comes of the arguments. -/
inductive Parsed where
  | run (arguments : Arguments)
  | help
  | version
  | wrong
deriving DecidableEq

/-- A path must not be empty, and numbers have to fit. -/
def setValue (a : Arguments) (o : Opt) (value : String) : Option Arguments :=
  match o with
  | .config => if value.isEmpty then none else some { a with config := some value }
  | .seed => (Text.unsigned? UInt64.size value).map fun n => { a with seed := some n }
  | .size => (Text.unsigned? UInt64.size value).map fun n => { a with size := some n }
  | .stagger => (Text.unsigned? UInt64.size value).map fun n => { a with stagger := some n }
  | .joinDeadline =>
    (Text.unsigned? UInt64.size value).map fun n => { a with joinDeadlineSeconds := some n }
  | .port => (Text.unsignedOrMinusZero? UInt16.size value).map fun n => { a with port := some n }
  | .probe => some { a with probe := true }
  | .printMaze => some { a with printMaze := true }
  | .servePositions => some { a with servePositions := true }
  | .help | .version => some a

/-- How far the arguments have been read: what was given, and which options were used. -/
structure Progress where
  arguments : Arguments
  used : List Opt

/-- Takes an option with its value. -/
def Progress.take (p : Progress) (o : Opt) (value : String) : Option Progress :=
  if o ∈ p.used then none
  else (setValue p.arguments o value).map fun a => ⟨a, o :: p.used⟩

/-- A value that stands on its own. A dash in front makes it an option, a lone dash does not. -/
def isValue (s : String) : Bool := s == "-" || s.toList.head? != some '-'

def splitValue (s : List Char) : String × Option String :=
  let name := s.takeWhile (· != '=')
  (String.ofList name,
    match s.drop name.length with
    | [] => none
    | _ :: value => some (String.ofList value))

/-- What comes of an argument: reading goes on, an option waits for its value, or all is decided. -/
inductive Next where
  | more (p : Progress)
  | value (p : Progress) (o : Opt)
  | stop (result : Parsed)

def Next.ofTaken : Option Progress → Next
  | some p => .more p
  | none => .stop .wrong

def takeFlag (p : Progress) (o : Opt) : Next :=
  match o with
  | .help => .stop .help
  | .version => .stop .version
  | o => .ofTaken (p.take o "")

/-- Short options behind a dash. One that takes a value takes the rest. -/
def readShort (p : Progress) : List Char → Next
  | [] => .more p
  | c :: cs =>
    match Opt.ofShort? c with
    | none => .stop .wrong
    | some o =>
      if o.takesValue then
        match cs with
        | [] => .value p o
        | '=' :: value => .ofTaken (p.take o (String.ofList value))
        | value => .ofTaken (p.take o (String.ofList value))
      else
        match takeFlag p o with
        | .more p => readShort p cs
        | n => n

def readLong (p : Progress) (s : List Char) : Next :=
  let (name, value) := splitValue s
  match Opt.ofLong? name with
  | none => .stop .wrong
  | some o =>
    match o.takesValue, value with
    | true, some value => .ofTaken (p.take o value)
    | true, none => .value p o
    | false, some _ => .stop .wrong
    | false, none => takeFlag p o

/-- Two dashes end the options, and nothing may follow them. -/
def readArgument (p : Progress) (s : String) (isLast : Bool) : Next :=
  match s.toList with
  | ['-', '-'] => if isLast then .more p else .stop .wrong
  | '-' :: '-' :: name => readLong p name
  | '-' :: c :: cs => readShort p (c :: cs)
  | _ => .stop .wrong

def read (p : Progress) : List String → Parsed
  | [] => .run p.arguments
  | s :: rest =>
    match readArgument p s rest.isEmpty with
    | .stop result => result
    | .more p => read p rest
    | .value p o =>
      match rest with
      | [] => .wrong
      | value :: rest =>
        if isValue value then
          match p.take o value with
          | some p => read p rest
          | none => .wrong
        else .wrong

def parse (args : List String) : Parsed := read ⟨.none, []⟩ args

def versionText : String := "mission-runner 0.1.0\n"

/-- The options as they are written, each with what it does. -/
def optionTexts : List (String × String) :=
  [("-c, --config <CONFIG>", "JSON configuration file; missing keys keep their defaults"),
    ("-s, --seed <SEED>", "Maze seed (random when omitted)"),
    ("    --size <SIZE>", "Maze side length, odd and at least 5"),
    ("    --stagger-ms <STAGGER_MS>", "Delay between starting role 0 and the other roles"),
    ("    --join-deadline-secs <JOIN_DEADLINE_SECS>", "Give up joining after this many seconds"),
    ("    --probe", "Look whether the endpoints can be reached before joining"),
    ("    --print-maze", "Print the generated maze before launching"),
    ("    --serve-positions", "Serve the positions of the agents"),
    ("-p, --port <PORT>", "Port for --serve-positions"),
    ("-h, --help", "Print help"),
    ("-V, --version", "Print version")]

def padded (width : Nat) (s : String) : String :=
  s ++ String.ofList (List.replicate (width - s.length) ' ')

def helpText : String :=
  "Runs a mission of several agents in a random maze.\n\n" ++
    "Usage: mission-runner [OPTIONS]\n\nOptions:\n" ++
    String.join (optionTexts.map fun (o, what) => "  " ++ padded 47 o ++ what ++ "\n")

end CommandLine

end Labyrinth
