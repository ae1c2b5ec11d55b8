import PollSocket.Config.Basic
import PollSocket.Text.Base64
import PollSocket.Yaml.Node

set_option autoImplicit false

/-!
# Reading a configuration

A document is read over the defaults: a mapping sets the settings it names, what it does not name
stays, and what it names without a value stays too. Names without a setting are ignored. A value of
the wrong type is reported with its line and the reading goes on, so that all of them are reported
together; a mapping that names something twice is reported and not read.
-/

namespace PollSocket.Config

open Yaml

/-- A place for a value in a record of type `σ`. -/
inductive Slot (σ : Type) where
  | text (put : String → σ → σ)
  | whole (put : Int → σ → σ)
  | real (put : Float → σ → σ)
  | truth (put : Bool → σ → σ)
  | span (put : Int → σ → σ)
  /-- A group of named places, with the name of its type. -/
  | group (type : String) (fields : List (String × Slot σ))

/-- Name of the type of a place. -/
def Slot.type {σ : Type} : Slot σ → String
  | .text _ => "string"
  | .whole _ => "int"
  | .real _ => "float64"
  | .truth _ => "bool"
  | .span _ => "time.Duration"
  | .group type _ => type

/-- Text that stands for a truth value where one is expected. -/
def truthOfWord? (s : String) : Option Bool :=
  if ["y", "Y", "yes", "Yes", "YES", "on", "On", "ON"].contains s then some true
  else if ["n", "N", "no", "No", "NO", "off", "Off", "OFF"].contains s then some false
  else none

/-- A whole number of 64 bits from one that may have a fraction. One below the range becomes the
least. -/
def wholeOfReal? (f : Float) : Option Int :=
  if f ≤ 9223372036854775808.0 then
    if f < 9223372036854775808.0 && -9223372036854775808.0 ≤ f then some (Decimal.truncated f)
    else some (-9223372036854775808)
  else none

/-- Put the value of a scalar into a place, if the types agree. -/
def Slot.assign? {σ : Type} (slot : Slot σ) (source : String) (value : Scalar) (record : σ) :
    Option σ :=
  match slot, value with
  | _, .nothing => some record
  | .text put, .text s => some (put s record)
  | .text put, _ => some (put source record)
  | .whole put, .whole n => if n < Decimal.signedBound then some (put n record) else none
  | .whole put, .real f => (wholeOfReal? f).map fun n => put n record
  | .real put, .whole n => some (put (Float.ofInt n) record)
  | .real put, .real f => some (put f record)
  | .truth put, .truth b => some (put b record)
  | .truth put, .text s => (truthOfWord? s).map fun b => put b record
  | .span put, .text s => (Duration.parse? s).map fun n => put n record
  | _, _ => none

/-- A reading part of which is done. -/
structure Filling (σ : Type) where
  record : σ
  /-- What was reported, the last first. -/
  faults : List String
  /-- Names set so far, while mappings are merged. -/
  merged : Option (List String)
  /-- References that are being followed. -/
  following : List Nat

/-- A step of a reading, which fails if the document makes no sense. -/
abbrev Fill (σ α : Type) := StateT (Filling σ) Option α

/-- Report something. -/
def report {σ : Type} (fault : String) : Fill σ Unit :=
  modify fun f => { f with faults := fault :: f.faults }

/-- Words for a value, cut to seven bytes if it has more than ten. -/
def excerpt (text : String) : String :=
  let bytes := Text.encode text
  if 10 < bytes.length then " \x60" ++ Text.ofBytes (bytes.take 7) ++ "...\x60"
  else " \x60" ++ text ++ "\x60"

/-- Report a value of the wrong type. -/
def mismatch {σ : Type} (line : Nat) (tag text type : String) : Fill σ Unit :=
  let value := if tag == "!!seq" || tag == "!!map" then text else excerpt text
  report ("line " ++ toString line ++ ": cannot unmarshal " ++ tag ++ value ++ " into " ++ type)

/-- Reports of keys that a mapping has twice. -/
def doubled : List (Node × Node) → List String
  | [] => []
  | (k, _) :: rest =>
    (rest.filterMap fun (other, _) =>
      if k.sameKind other && k.text == other.text then
        some ("line " ++ toString other.line ++ ": mapping key " ++ Text.quote other.text ++
          " already defined at line " ++ toString k.line)
      else none) ++ doubled rest

/-- Follow a reference, unless it is being followed already. -/
def follow {σ α : Type} (doc : Document) (target serial : Nat) (go : Node → Fill σ α) :
    Fill σ α := do
  let f ← get
  if f.following.contains serial then failure
  let node ← doc.node? target
  set { f with following := serial :: f.following }
  let a ← go node
  modify fun g => { g with following := f.following }
  pure a

/-- Value of a scalar with its tag. -/
def valueOf? (tag text : String) : Option Scalar :=
  if tag == "!!binary" then do
    let bytes ← Text.bytesOfBase64? (text.toList.filter fun c => c != '\n' && c != '\r')
    some (.text (Text.ofBytes bytes))
  else Scalar.ofTagged? tag text

/-- The name that a key stands for, if it stands for one; `fuel` bounds the references followed. -/
def nameOf {σ : Type} (doc : Document) : Nat → Node → Fill σ (Option String)
  | 0, _ => failure
  | fuel + 1, key =>
    match key with
    | .scalar tag text _ => do
      match ← valueOf? tag text with
      | .nothing => pure none
      | .text s => pure (some s)
      | _ => pure (some text)
    | .alias _ target serial _ => follow doc target serial (nameOf doc fuel)
    | .sequence tag _ line => do
      mismatch line tag "" "string"
      pure none
    | .mapping tag entries line => do
      match doubled entries with
      | [] => mismatch line tag "" "string"
      | faults => faults.forM report
      pure none

/-- A key that merges other mappings into its own. -/
def isMerge : Node → Bool
  | .scalar tag text _ => text == "<<" && tag == "!!merge"
  | _ => false

/-- The names in a mapping that its merged mappings cannot set. -/
def ownNames {σ : Type} (doc : Document) (fuel : Nat) :
    List (Node × Node) → Fill σ (List String)
  | [] => pure []
  | (k, _) :: rest => do
    let own ← match k with
      | .sequence .. => failure
      | .mapping .. => failure
      | _ => nameOf doc fuel k
    pure (own.toList ++ (← ownNames doc fuel rest))

/-- Nodes whose mappings are to be merged, if all of them are mappings. -/
def mergeList? (doc : Document) : Node → Option (List Node)
  | .mapping tag entries line => some [.mapping tag entries line]
  | .alias name target serial line => do
    match ← doc.node? target with
    | .mapping .. => some [.alias name target serial line]
    | _ => none
  | .sequence _ items _ =>
    if items.all isMapping then some items else none
  | .scalar .. => none
where
  /-- A mapping, or a reference to one. -/
  isMapping : Node → Bool
    | .mapping .. => true
    | .alias _ target _ _ =>
      match doc.node? target with
      | some (.mapping ..) => true
      | _ => false
    | _ => false

/-- What is left to do in a mapping. -/
inductive Task (σ : Type) where
  /-- Put a node into a place. -/
  | put (slot : Slot σ) (node : Node)
  /-- Set the fields of a group; `done` are the names set so far. -/
  | fields (type : String) (fields : List (String × Slot σ)) (entries : List (Node × Node))
      (done : List String)
  /-- Merge mappings into a group, one after the other. -/
  | merge (type : String) (fields : List (String × Slot σ)) (nodes : List Node)

/-- Read a document into a record; `fuel` bounds the depth of the reading and the number of
entries. -/
def fill {σ : Type} (doc : Document) : Nat → Task σ → Fill σ Unit
  | 0, _ => failure
  | fuel + 1, .put slot node =>
    match node with
    | .alias _ target serial _ => follow doc target serial fun n => fill doc fuel (.put slot n)
    | .scalar tag text line => do
      let value ← valueOf? tag text
      let f ← get
      match slot.assign? text value f.record with
      | some record => set { f with record }
      | none => mismatch line tag text slot.type
    | .sequence tag _ line => mismatch line tag "" slot.type
    | .mapping tag entries line => do
      match doubled entries with
      | [] =>
        match slot with
        | .group type fields => do
          let outer := (← get).merged
          fill doc fuel (.fields type fields entries [])
          match (entries.filter fun (k, _) => isMerge k).getLast? with
          | none => pure ()
          | some (_, source) => do
            let nodes ← mergeList? doc source
            if outer.isNone then
              let names ← ownNames doc fuel entries
              modify fun f => { f with merged := some names }
            fill doc fuel (.merge type fields nodes)
            modify fun f => { f with merged := if outer.isNone then none else f.merged }
        | _ => mismatch line tag "" slot.type
      | faults => faults.forM report
  | _ + 1, .fields _ _ [] _ => pure ()
  | fuel + 1, .fields type fields ((k, v) :: rest) done => do
    if isMerge k then fill doc fuel (.fields type fields rest done)
    else
      match ← nameOf doc fuel k with
      | none => fill doc fuel (.fields type fields rest done)
      | some name =>
        let outer := (← get).merged
        if outer.any (·.contains name) then fill doc fuel (.fields type fields rest done)
        else
          let merged := outer.map (name :: ·)
          match fields.lookup name with
          | none =>
            modify fun f => { f with merged }
            fill doc fuel (.fields type fields rest done)
          | some slot =>
            if done.contains name then
              report ("line " ++ toString k.line ++ ": field " ++ name ++
                " already set in type " ++ type)
              modify fun f => { f with merged }
              fill doc fuel (.fields type fields rest done)
            else
              modify fun f => { f with merged := none }
              fill doc fuel (.put slot v)
              modify fun f => { f with merged }
              fill doc fuel (.fields type fields rest (name :: done))
  | _ + 1, .merge _ _ [] => pure ()
  | fuel + 1, .merge type fields (node :: rest) => do
    fill doc fuel (.put (.group type fields) node)
    fill doc fuel (.merge type fields rest)

/-! ## The places of a configuration -/

/-- The server's settings. -/
def serverFields : List (String × Slot Config) :=
  [("addr", .text fun v c => { c with server.addr := v }),
   ("path", .text fun v c => { c with server.path := v }),
   ("poll_timeout", .span fun v c => { c with server.pollTimeout := v }),
   ("session_timeout", .span fun v c => { c with server.sessionTimeout := v }),
   ("handshake_rate", .real fun v c => { c with server.handshakeRate := v }),
   ("handshake_burst", .whole fun v c => { c with server.handshakeBurst := v }),
   ("buffer_size", .whole fun v c => { c with server.bufferSize := v }),
   ("compression", .truth fun v c => { c with server.compression := v }),
   ("broadcast", .truth fun v c => { c with server.broadcast := v })]

/-- The client's settings. -/
def clientFields : List (String × Slot Config) :=
  [("url", .text fun v c => { c with client.url := v }),
   ("protocol", .text fun v c => { c with client.protocol := v }),
   ("timeout", .span fun v c => { c with client.timeout := v }),
   ("requeue_on_failure", .truth fun v c => { c with client.requeueOnFailure := v }),
   ("native", .truth fun v c => { c with client.native := v })]

/-- The log's settings. -/
def logFields : List (String × Slot Config) :=
  [("level", .text fun v c => { c with log.level := v }),
   ("json", .truth fun v c => { c with log.json := v }),
   ("file", .text fun v c => { c with log.file := v }),
   ("max_size_mb", .whole fun v c => { c with log.maxSizeMB := v }),
   ("max_backups", .whole fun v c => { c with log.maxBackups := v })]

/-- All settings. -/
def slots : Slot Config :=
  .group "config.Config"
    [("server", .group "config.ServerConfig" serverFields),
     ("client", .group "config.ClientConfig" clientFields),
     ("log", .group "config.LogConfig" logFields)]

/-- What is wrong with the text of a configuration. -/
inductive Problem where
  /-- It is no document, or one that makes no sense. -/
  | unreadable
  /-- Values of wrong types and doubled keys. -/
  | mismatches (faults : List String)
  | invalid (fault : Fault)
  deriving DecidableEq, Inhabited

/-- Wording of a problem. -/
def Problem.message : Problem → String
  | .unreadable => "config parse failed: <yaml>"
  | .mismatches faults =>
    "config parse failed: yaml: unmarshal errors:\n  " ++ "\n  ".intercalate faults
  | .invalid fault => fault.message

/-- Read a document over the defaults. -/
def decode (s : String) : Except Problem Config :=
  match Yaml.parse? s with
  | none => .error .unreadable
  | some none => .ok Config.default
  | some (some doc) =>
    let fuel := 64 * (s.length + 16)
    match (fill doc fuel (.put slots doc.root)).run ⟨Config.default, [], none, []⟩ with
    | none => .error .unreadable
    | some (_, f) =>
      if f.faults.isEmpty then .ok f.record else .error (.mismatches f.faults.reverse)

/-- Read a configuration. -/
def parse (s : String) : Except Problem Config := do
  let c ← decode s
  match c.fault? with
  | some f => .error (.invalid f)
  | none => .ok c

end PollSocket.Config
