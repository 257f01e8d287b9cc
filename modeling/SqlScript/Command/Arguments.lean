import SqlScript.Config

/-!
# Command lines

The options of the program, and the reading of its arguments from left to right. Global options
stand before the command, the options of a command behind it. An option is given once unless it
collects values.
-/

namespace SqlScript.Command

/-- Why no command is carried out. -/
inductive Stop where
  | usage
  | version
deriving DecidableEq, Repr

structure Globals where
  database : Option String := none
  config : Option Path := none
  verbose : Bool := false
  json : Bool := false
deriving DecidableEq, Repr

structure Options where
  maxAttempts : Option UInt32 := none
  reconnectAttempts : Option UInt32 := none
  archiveRoot : Option Path := none
  exclude : List String := []
  noFilter : Bool := false
  reapplyFilter : Bool := false
  sequentialArchive : Bool := false
  noArchive : Bool := false
  delimiter : Option Char := none
  strip : List String := []
deriving DecidableEq, Repr

inductive Action where
  | run
  | split
  | retry
deriving DecidableEq, Repr

def Action.ofWord? : String → Option Action
  | "run" => some run
  | "split" => some split
  | "retry" => some retry
  | _ => none

/-- What is known of a command while its arguments are read. -/
structure Request where
  action : Action
  target : Option Path := none
  label : Option String := none
  options : Options := {}
deriving DecidableEq, Repr

structure Invocation where
  globals : Globals
  action : Action
  /-- The script file or the archive directory. -/
  target : Path
  label : Option String
  options : Options
deriving DecidableEq, Repr

/-- A path has to be given if its option is. -/
def readPath (text : String) : Except Stop Path :=
  if text.isEmpty then .error .usage else .ok ⟨text⟩

/-- A whole number below 2 ^ 32. A sign may stand before it. -/
def readCount (text : String) : Except Stop UInt32 :=
  let (negative, digits) := match text.toList with
    | '-' :: digits => (true, digits)
    | '+' :: digits => (false, digits)
    | digits => (false, digits)
  let n := Text.digitsValue digits
  if digits.isEmpty ∨ ¬ digits.all Char.isDigit ∨ UInt32.size ≤ n ∨ (negative ∧ n ≠ 0) then
    .error .usage
  else .ok n.toUInt32

def readCharacter (text : String) : Except Stop Char :=
  match text.toList with
  | [character] => .ok character
  | _ => .error .usage

/-- Fills a setting that may be given once. -/
def once (old : Option α) (read : Except Stop α) : Except Stop (Option α) :=
  match old, read with
  | none, .ok value => .ok (some value)
  | _, _ => .error .usage

/-- Sets a switch that may be given once. -/
def onceOn (old : Bool) : Except Stop Bool := if old then .error .usage else .ok true

inductive Effect (α : Type) where
  | switch (set : α → Except Stop α)
  | value (set : α → String → Except Stop α)

/-- The options that a part of the command line knows, by name and by letter. -/
structure Table (α : Type) where
  long : String → Option (Effect α)
  short : Char → Option (Effect α)
  /-- Takes an argument that is no option; a command ends the table's part. -/
  plain : α → String → Except Stop α

/-- Where the reading of arguments stands. -/
structure Reading (α : Type) where
  state : α
  /-- An option that waits for its value. -/
  waiting : Option (α → String → Except Stop α) := none
  /-- Only plain arguments follow. -/
  onlyPlain : Bool := false

/-- A value behind the letter of its option, with or without an equals sign. -/
def attached : List Char → List Char
  | '=' :: rest => rest
  | rest => rest

/-- Reads the letters of an argument. The first one with a value takes what follows it. -/
def readLetters (table : Table α) (state : α) : List Char → Except Stop (Reading α)
  | [] => .ok { state }
  | c :: rest =>
      match table.short c with
      | none => .error .usage
      | some (.switch set) =>
          match set state with
          | .error stop => .error stop
          | .ok state => readLetters table state rest
      | some (.value set) =>
          if rest.isEmpty then .ok { state, waiting := some set }
          else (set state (String.ofList (attached rest))).map fun state => { state }

/-- Reads an option by name, with or without a value behind an equals sign. -/
def readName (table : Table α) (state : α) (text : List Char) : Except Stop (Reading α) :=
  let name := String.ofList (text.takeWhile (· ≠ '='))
  match table.long name, text.dropWhile (· ≠ '=') with
  | some (.switch set), [] => (set state).map fun state => { state }
  | some (.value set), [] => .ok { state, waiting := some set }
  | some (.value set), _ :: value =>
      (set state (String.ofList value)).map fun state => { state }
  | _, _ => .error .usage

def isOption (argument : String) : Bool :=
  match argument.toList with
  | '-' :: _ :: _ => true
  | _ => false

def readArgument (table : Table α) (r : Reading α) (argument : String) :
    Except Stop (Reading α) :=
  if r.onlyPlain then
    (table.plain r.state argument).map fun state => { state, onlyPlain := true }
  else match r.waiting with
    | some set =>
        if isOption argument then .error .usage
        else (set r.state argument).map fun state => { state }
    | none =>
        match argument.toList with
        | ['-', '-'] => .ok { r with onlyPlain := true }
        | '-' :: '-' :: name => readName table r.state name
        | '-' :: c :: letters => readLetters table r.state (c :: letters)
        | _ => (table.plain r.state argument).map fun state => { state }

def globalTable : Table Globals where
  long
    | "database" => some (.value fun g text => do
        return { g with database := ← once g.database (.ok text) })
    | "config" => some (.value fun g text => do
        return { g with config := ← once g.config (readPath text) })
    | "verbose" => some (.switch fun g => do return { g with verbose := ← onceOn g.verbose })
    | "json" => some (.switch fun g => do return { g with json := ← onceOn g.json })
    | "version" => some (.switch fun _ => throw .version)
    | _ => none
  short
    | 'd' => some (.value fun g text => do
        return { g with database := ← once g.database (.ok text) })
    | 'c' => some (.value fun g text => do
        return { g with config := ← once g.config (readPath text) })
    | 'v' => some (.switch fun g => do return { g with verbose := ← onceOn g.verbose })
    | 'V' => some (.switch fun _ => throw .version)
    | _ => none
  plain _ _ := .error .usage

def option (set : Options → String → Except Stop Options) : Effect Request :=
  .value fun r text => (set r.options text).map fun options => { r with options }

def optionSwitch (set : Options → Except Stop Options) : Effect Request :=
  .switch fun r => (set r.options).map fun options => { r with options }

def labelEffect : Effect Request :=
  .value fun r text => do return { r with label := ← once r.label (.ok text) }

/-- The options of a command. Only a retry has a label. -/
def requestTable (action : Action) : Table Request where
  long
    | "max-attempts" => some <| option fun o text => do
        return { o with maxAttempts := ← once o.maxAttempts (readCount text) }
    | "reconnect-attempts" => some <| option fun o text => do
        return { o with reconnectAttempts := ← once o.reconnectAttempts (readCount text) }
    | "archive-root" => some <| option fun o text => do
        return { o with archiveRoot := ← once o.archiveRoot (readPath text) }
    | "exclude" => some <| option fun o text => .ok { o with exclude := o.exclude ++ [text] }
    | "no-filter" => some <| optionSwitch fun o => do
        return { o with noFilter := ← onceOn o.noFilter }
    | "reapply-filter" => some <| optionSwitch fun o => do
        return { o with reapplyFilter := ← onceOn o.reapplyFilter }
    | "sequential-archive" => some <| optionSwitch fun o => do
        return { o with sequentialArchive := ← onceOn o.sequentialArchive }
    | "no-archive" => some <| optionSwitch fun o => do
        return { o with noArchive := ← onceOn o.noArchive }
    | "delimiter" => some <| option fun o text => do
        return { o with delimiter := ← once o.delimiter (readCharacter text) }
    | "strip" => some <| option fun o text => .ok { o with strip := o.strip ++ [text] }
    | "label" => if action = .retry then some labelEffect else none
    | _ => none
  short
    | 'l' => if action = .retry then some labelEffect else none
    | _ => none
  plain r text := do return { r with target := ← once r.target (readPath text) }

def readRequest (globals : Globals) (r : Reading Request) : List String → Except Stop Invocation
  | [] =>
      match r.waiting, r.state.target with
      | none, some target =>
          .ok ⟨globals, r.state.action, target, r.state.label, r.state.options⟩
      | _, _ => .error .usage
  | argument :: rest =>
      match readArgument (requestTable r.state.action) r argument with
      | .error stop => .error stop
      | .ok r => readRequest globals r rest

/-- Reads global options up to the command. -/
def readGlobals (r : Reading Globals) : List String → Except Stop Invocation
  | [] => .error .usage
  | argument :: rest =>
      match Action.ofWord? argument, r.waiting, r.onlyPlain with
      | some action, none, false => readRequest r.state { state := { action } } rest
      | _, _, _ =>
          match readArgument globalTable r argument with
          | .error stop => .error stop
          | .ok r => readGlobals r rest

def parse (arguments : List String) : Except Stop Invocation :=
  readGlobals { state := {} } arguments

/-- The configuration with the options applied. Turning the filter off wins over exclusions. -/
def Options.apply (o : Options) (c : Config) : Config :=
  { excludedPrefixes :=
      if o.noFilter then [] else if o.exclude.isEmpty then c.excludedPrefixes else o.exclude
    maxAttempts := o.maxAttempts.getD c.maxAttempts
    reconnectAttempts := o.reconnectAttempts.getD c.reconnectAttempts
    archiveRoot := o.archiveRoot.getD c.archiveRoot
    archiveFailures := c.archiveFailures && ! o.noArchive
    archiveMode := if o.sequentialArchive then .sequential else c.archiveMode
    reapplyFilterOnRetry := c.reapplyFilterOnRetry || o.reapplyFilter
    splitMode := o.delimiter.elim c.splitMode .delimiter
    stripPatterns := if o.strip.isEmpty then c.stripPatterns else o.strip }

end SqlScript.Command
