import PollSocket.Log.Level
import PollSocket.Text.Utf8

set_option autoImplicit false

/-!
# Commands and flags

A command has flags of its own and those of the commands above it. Flags stand anywhere among the
arguments, up to a double dash. Which command is meant is settled before its flags are known: a word
behind a flag that takes a value is that value, unless it is the last word.
-/

namespace PollSocket.Cli

/-- A flag; one with a value takes a text, the others are switches. -/
structure Flag where
  name : String
  letter : Option Char := none
  hasValue : Bool := true
  usage : String
  deriving DecidableEq, Inhabited

/-- A command. -/
structure Command where
  /-- Its name, followed by the arguments it takes. -/
  use : String
  short : String
  long : String := ""
  flags : List Flag := []
  /-- It does something, rather than only hold other commands. -/
  runnable : Bool := true
  /-- It is proposed in place of a wrong name, and listed. -/
  available : Bool := true
  /-- Any number of arguments, or at most this one. -/
  maxArgs : Option Nat := none
  subcommands : List Command := []
  deriving Inhabited

/-- Name of a command. -/
def Command.name (c : Command) : String := (c.use.splitOn " ").headD ""

/-- Why arguments are refused. -/
inductive ArgError where
  | unknownCommand (name : String) (path : String) (proposals : List String)
  | unknownFlag (name : String)
  | unknownLetter (letter : Char) (letters : String)
  | badFlag (word : String)
  | noValue (name : String)
  | noLetterValue (letter : Char) (letters : String)
  | badSwitch (value : String) (flag : Flag)
  | tooMany (limit given : Nat)
  deriving DecidableEq, Inhabited

/-- A character between single quotes. -/
def quotedLetter (c : Char) : String :=
  if c == '\'' then "'\\''"
  else if c == '"' then "'\"'"
  else "'" ++ String.ofList ((Text.quote c.toString).toList.drop 1).dropLast ++ "'"

/-- A letter outside ASCII counts as the first of its bytes. -/
def firstByte (c : Char) : Char :=
  if c < '\x80' then c else Char.ofNat ((Text.encode c.toString).headD 0).toNat

/-- How a flag is named in a message. -/
def Flag.shown (f : Flag) : String :=
  match f.letter with
  | some c => "-" ++ c.toString ++ ", --" ++ f.name
  | none => "--" ++ f.name

/-- Wording of a refusal. -/
def ArgError.message : ArgError → String
  | .unknownCommand name path proposals =>
    "unknown command " ++ Text.quote name ++ " for " ++ Text.quote path ++
      (if proposals.isEmpty then ""
      else "\n\nDid you mean this?\n" ++ "".intercalate (proposals.map fun p => "\t" ++ p ++ "\n"))
  | .unknownFlag name => "unknown flag: --" ++ name
  | .unknownLetter c letters =>
    "unknown shorthand flag: " ++ quotedLetter c ++ " in -" ++ letters
  | .badFlag word => "bad flag syntax: " ++ word
  | .noValue name => "flag needs an argument: --" ++ name
  | .noLetterValue c letters => "flag needs an argument: " ++ quotedLetter c ++ " in -" ++ letters
  | .badSwitch value f =>
    "invalid argument " ++ Text.quote value ++ " for " ++ Text.quote f.shown ++
      " flag: strconv.ParseBool: parsing " ++ Text.quote value ++ ": invalid syntax"
  | .tooMany limit given =>
    "accepts at most " ++ toString limit ++ " arg(s), received " ++ toString given

/-! ## Which command is meant -/

/-- The word is a flag whose value is the next word. -/
def takesNext (flags : List Flag) (word : String) : Bool :=
  match word.toList with
  | '-' :: '-' :: name =>
    !name.contains '=' && !flags.any fun f => f.name == String.ofList name && !f.hasValue
  | ['-', c] => c != '=' && c < '\x80' && !flags.any fun f => f.letter == some c && !f.hasValue
  | _ => false

/-- The words that are neither flags nor values of flags. -/
def words (flags : List Flag) : List String → List String
  | [] => []
  | w :: rest =>
    if w == "--" then []
    else if takesNext flags w then
      match rest with
      | _ :: next :: more => words flags (next :: more)
      | _ => []
    else if w.isEmpty || w.startsWith "-" then words flags rest
    else w :: words flags rest

/-- The arguments without the first word that is `x` and no value of a flag. -/
def withoutFirst (flags : List Flag) (x : String) : List String → List String
  | [] => []
  | w :: rest =>
    if w == "--" then w :: rest
    else if takesNext flags w then
      match rest with
      | [] => [w]
      | v :: more => w :: v :: withoutFirst flags x more
    else if w == x then rest
    else w :: withoutFirst flags x rest

/-- Number of characters to put in, leave out or exchange to get from one text to another. -/
def distance (s t : List Char) : Nat :=
  let first := List.range (t.length + 1)
  let last := s.foldl (fun (row : List Nat) c =>
    let start := row.headD 0 + 1
    let cells := (t.zip (row.zip (row.drop 1))).foldl (fun (acc : Nat × List Nat) cell =>
      let (d, diagonal, above) := cell
      let (left, done) := acc
      let value := min (min (left + 1) (above + 1)) (diagonal + if c == d then 0 else 1)
      (value, done ++ [value])) (start, [])
    start :: cells.2) first
  last.getLast?.getD 0

/-- Names of commands close to a name: few changes away, or starting with it. -/
def proposals (cs : List Command) (name : String) : List String :=
  let lower := fun s : String => s.toList.map Char.toLower
  (cs.filter fun c => c.available &&
    (distance (lower name) (lower c.name) ≤ 2 || (lower name).isPrefixOf (lower c.name))).map (·.name)

/-- A command that was found: the names that lead to it, the flags it inherits, and the arguments
without the names. -/
structure Found where
  command : Command
  path : List String
  inherited : List Flag
  args : List String
  deriving Inhabited

/-- Descend to the command that the arguments name; `fuel` bounds the depth. -/
def descend : Nat → Found → Found
  | 0, f => f
  | fuel + 1, f =>
    let flags := f.command.flags ++ f.inherited
    match words flags f.args with
    | [] => f
    | w :: _ =>
      match f.command.subcommands.find? fun c => c.name == w with
      | none => f
      | some c => descend fuel
          { command := c, path := f.path ++ [c.name], inherited := flags,
            args := withoutFirst flags w f.args }

/-- The command that the arguments name. -/
def Command.find (root : Command) (args : List String) : Except ArgError Found :=
  let f := descend 8 ⟨root, [root.name], [], args⟩
  if f.path.length = 1 then
    match words (f.command.flags ++ f.inherited) f.args with
    | [] => .ok f
    | w :: _ => .error (.unknownCommand w root.name (proposals root.subcommands w))
  else .ok f

/-! ## Flags -/

/-- Flags that were given, with their values, and the other arguments. -/
structure Parsed where
  values : List (String × String) := []
  rest : List String := []
  deriving DecidableEq, Inhabited

/-- The last value given for a flag. -/
def Parsed.value? (p : Parsed) (name : String) : Option String := p.values.reverse.lookup name

/-- A switch that was given. -/
def Parsed.switch? (p : Parsed) (name : String) : Option Bool :=
  (p.value? name).bind Log.truth?

/-- Give a flag a value. -/
def Parsed.give (p : Parsed) (f : Flag) (value : String) : Except ArgError Parsed :=
  if f.hasValue || (Log.truth? value).isSome then
    .ok { p with values := p.values ++ [(f.name, value)] }
  else .error (.badSwitch value f)

/-- A flag by its name, with the arguments behind it. -/
def longFlag (flags : List Flag) (p : Parsed) (word : String) (name : List Char)
    (rest : List String) : Except ArgError (Parsed × List String) :=
  match name with
  | [] => .error (.badFlag word)
  | c :: _ =>
    if c == '-' || c == '=' then .error (.badFlag word)
    else
      let key := String.ofList (name.takeWhile (· != '='))
      match flags.find? fun f => f.name == key with
      | none => .error (.unknownFlag key)
      | some f =>
        match name.dropWhile (· != '=') with
        | _ :: value => do
          let p ← p.give f (String.ofList value)
          .ok (p, rest)
        | [] =>
          if !f.hasValue then do
            let p ← p.give f "true"
            .ok (p, rest)
          else
            match rest with
            | value :: more => do
              let p ← p.give f value
              .ok (p, more)
            | [] => .error (.noValue key)

/-- Flags by their letters, with the arguments behind them. -/
def letterFlags (flags : List Flag) (rest : List String) :
    List Char → Parsed → Except ArgError (Parsed × List String)
  | [], p => .ok (p, rest)
  | c :: more, p =>
    match flags.find? fun f => f.letter == some c with
    | none => .error (.unknownLetter (firstByte c) (String.ofList (c :: more)))
    | some f =>
      match more with
      | '=' :: d :: value => do
        let p ← p.give f (String.ofList (d :: value))
        .ok (p, rest)
      | _ =>
        if !f.hasValue then do
          let p ← p.give f "true"
          letterFlags flags rest more p
        else
          match more with
          | _ :: _ => do
            let p ← p.give f (String.ofList more)
            .ok (p, rest)
          | [] =>
            match rest with
            | value :: others => do
              let p ← p.give f value
              .ok (p, others)
            | [] => .error (.noLetterValue c (String.ofList (c :: more)))

/-- Flags and arguments of a command; `fuel` bounds the number of words. -/
def parseFlags (flags : List Flag) : Nat → List String → Parsed → Except ArgError Parsed
  | 0, _, p => .ok p
  | _, [], p => .ok p
  | fuel + 1, w :: rest, p =>
    match w.toList with
    | '-' :: '-' :: name =>
      if name.isEmpty then .ok { p with rest := p.rest ++ rest }
      else do
        let (p, rest) ← longFlag flags p w name rest
        parseFlags flags fuel rest p
    | '-' :: c :: letters => do
      let (p, rest) ← letterFlags flags rest (c :: letters) p
      parseFlags flags fuel rest p
    | _ => parseFlags flags fuel rest { p with rest := p.rest ++ [w] }

/-- The flag that asks for help with a command. -/
def helpFlag (name : String) : Flag :=
  { name := "help", letter := some 'h', hasValue := false, usage := "help for " ++ name }

/-- Flags and arguments of a command that was found. -/
def Found.parse (f : Found) : Except ArgError Parsed :=
  parseFlags (helpFlag f.command.name :: f.command.flags ++ f.inherited) (f.args.length + 1) f.args {}

/-- Too many arguments for a command. -/
def Found.check (f : Found) (p : Parsed) : Except ArgError Unit :=
  match f.command.maxArgs with
  | none => .ok ()
  | some limit => if limit < p.rest.length then .error (.tooMany limit p.rest.length) else .ok ()

end PollSocket.Cli
