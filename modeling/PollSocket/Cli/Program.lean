import PollSocket.Cli.Connect
import PollSocket.Cli.Help
import PollSocket.Cli.Serve
import PollSocket.Config.Load
import PollSocket.Log.Sink

set_option autoImplicit false

/-!
# The program

The commands of the program and what they do with their arguments, the files of the working
directory, standard input and a network.
-/

namespace PollSocket.Cli

/-! ## Commands -/

/-- Flags that every command has. -/
def globalFlags : List Flag :=
  [{ name := "config", letter := some 'c', usage := "YAML config file" },
   { name := "log-level", usage := "log level (debug, info, warn, error)" },
   { name := "log-file", usage := "also write logs to this rotated file" },
   { name := "log-json", hasValue := false, usage := "log as JSON" }]

/-- The command that serves. -/
def serveCommand : Command where
  use := "serve"
  short := "Run an echo (or broadcast chat) server"
  flags :=
    [{ name := "addr", usage := "listen address" },
     { name := "broadcast", hasValue := false, usage := "relay every message to all clients" }]

/-- The command that connects. -/
def connectCommand : Command where
  use := "connect [url]"
  short := "Send stdin lines as messages and print inbound messages"
  flags :=
    [{ name := "protocol", letter := some 'p', usage := "sub-protocol name" },
     { name := "native", hasValue := false, usage := "use a real WebSocket" },
     { name := "requeue", hasValue := false, usage := "requeue messages of a failed drain" }]
  maxArgs := some 1

/-- The command that helps. -/
def helpCommand : Command where
  use := "help [command]"
  short := "Help about any command"
  long := "Help provides help for any command in the application.\n" ++
    "Simply type pseudows help [path to command] for full details."
  available := false

/-- The command for the scripts of a shell. -/
def completionCommand : Command where
  use := "completion"
  short := "Generate the autocompletion script for the specified shell"
  long := "Generate the autocompletion script for pseudows for the specified shell.\n" ++
    "See each sub-command's help for details on how to use the generated script."
  runnable := false
  subcommands := ["bash", "fish", "powershell", "zsh"].map fun shell =>
    { use := shell, short := "Generate the autocompletion script for " ++ shell }

/-- The program's commands. -/
def rootCommand : Command where
  use := "pseudows"
  short := "WebSocket emulation over request/response exchanges"
  long := "pseudows runs a server for, and a client of, a message socket\n" ++
    "emulated over HTTP POST exchanges: a handshake allocates a session, then\n" ++
    "each drain carries the queued outbound messages and returns the inbound ones."
  flags := globalFlags
  runnable := false
  subcommands := [serveCommand, connectCommand, helpCommand, completionCommand]

/-! ## Running -/

/-- What the program is run with. -/
structure Setting where
  files : Files := ⟨[]⟩
  input : String := ""
  network : Network := Network.unreachable
  /-- What the log says on where an exchange failed. -/
  trace : Backtrace := fun _ => ""
  /-- The caller has given up before the start. -/
  cancelled : Bool := false

/-- Why the program fails. -/
inductive Problem where
  | args (e : ArgError)
  | config (p : Config.LoadProblem)
  | logging (f : Failure)
  | run (f : Failure)

/-- Wording of a problem. -/
def Problem.message : Problem → String
  | .args e => e.message
  | .config p => p.message
  | .logging f => "failed to initialize logging: " ++ f.message
  | .run f => f.message

/-- What the program leaves behind. -/
structure Outcome where
  result : Except Problem Unit
  output : String := ""
  log : Log.Sink := {}

/-- The configuration with the settings that flags give for the log. -/
def withLogFlags (c : Config) (p : Parsed) : Config :=
  { c with log := { c.log with
      level := (p.value? "log-level").getD c.log.level
      file := (p.value? "log-file").getD c.log.file
      json := (p.switch? "log-json").getD c.log.json } }

/-- Configuration and log of a run. -/
def setUp (s : Setting) (p : Parsed) : Except Problem (Config × Log.Sink) := do
  let path := (p.value? "config").getD ""
  let c ← if path.isEmpty then .ok Config.default
    else (Config.load s.files path).mapError Problem.config
  let c := withLogFlags c p
  let l := c.log
  match ({ trace := s.trace } : Log.Sink).configure ⟨l.level, l.json, l.file, l.maxSizeMB, l.maxBackups⟩ with
  | (sink, .ok _) => .ok (c, sink)
  | (_, .error f) => .error (.logging f)

/-- Write records to a log. -/
def logged (sink : Log.Sink) (rs : List Log.Record) : Log.Sink := rs.foldl (·.record ·) sink

/-- Settings of the server with those that flags give. -/
def serverWithFlags (c : ServerConfig) (p : Parsed) : ServerConfig :=
  { c with
    addr := (p.value? "addr").getD c.addr
    broadcast := (p.switch? "broadcast").getD c.broadcast }

/-- Settings of the client with those that arguments and flags give. -/
def clientWithFlags (c : ClientConfig) (p : Parsed) : ClientConfig :=
  { c with
    url := p.rest.headD c.url
    protocol := (p.value? "protocol").getD c.protocol
    native := (p.switch? "native").getD c.native
    requeueOnFailure := (p.switch? "requeue").getD c.requeueOnFailure }

/-- Run the command that serves. -/
def runServe (c : ServerConfig) (sink : Log.Sink) : Outcome :=
  let (records, result) := serve c
  { result := result.mapError .run, log := logged sink records }

/-- Run the command that connects. -/
def runConnect (s : Setting) (c : ClientConfig) (sink : Log.Sink) : Outcome :=
  if c.native then
    let opening : Log.Record :=
      { level := .debug, message := "WebSocketTransport: connecting to " ++ webSocketUrl c.url }
    { result := (connectNative s.network c s.cancelled).mapError .run
      log := logged sink [opening] }
  else
    let session := connectEmulated s.network c s.input s.cancelled
    { result := session.outcome.mapError .run
      output := "".intercalate (session.printed.map (· ++ "\n"))
      log := logged sink session.records }

/-- Help on the command that the arguments name. -/
def runHelp (args : List String) : Outcome :=
  match rootCommand.find args with
  | .ok f => { result := .ok (), output := f.help }
  | .error _ =>
    let root : Found := ⟨rootCommand, [rootCommand.name], [], []⟩
    let shown := " ".intercalate (args.map fun a =>
      if a.toList.contains '\x60' then Text.quote a else "\x60" ++ a ++ "\x60")
    { result := .ok (), output := "Unknown help topic [" ++ shown ++ "]\n" ++ root.usage }

/-- Run the program with arguments. -/
def run (s : Setting) (args : List String) : Outcome :=
  let refused : ArgError → Outcome := fun e => { result := .error (.args e) }
  match rootCommand.find args with
  | .error e => refused e
  | .ok f =>
    match f.parse with
    | .error e => refused e
    | .ok p =>
      if p.switch? "help" = some true || !f.command.runnable then
        { result := .ok (), output := f.help }
      else
        match f.check p with
        | .error e => refused e
        | .ok _ =>
          if f.command.name == "help" then runHelp p.rest
          else
            match setUp s p with
            | .error problem => { result := .error problem }
            | .ok (c, sink) =>
              match f.command.name with
              | "serve" => runServe (serverWithFlags c.server p) sink
              | "connect" => runConnect s (clientWithFlags c.client p) sink
              | _ => { result := .ok (), log := sink }

end PollSocket.Cli
