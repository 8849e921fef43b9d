import Inventory.Text.Natural

/-! # Settings of a service

Each setting is given at most once on the command line, or else by a variable of the environment, or else
has a standard value. `Choices` are the settings given so far.
-/

namespace Inventory

structure Settings where
  /-- The path of the socket to listen on. -/
  socket : String
  /-- Longer messages are refused. -/
  maxMessageBytes : Nat
  /-- What to log. -/
  log : String
  /-- The path of a file with the chunks of a snapshot to begin with. -/
  preload : Option String
deriving DecidableEq, Repr

inductive Setting where
  | socket
  | maxMessageBytes
  | log
  | preload
deriving DecidableEq, Repr

inductive SettingsStop where
  | help
  | version
  | unknownArgument (argument : String)
  /-- An option without a value, or a path without characters. -/
  | noValue (setting : Setting)
  | badValue (setting : Setting) (value : String)
  | givenTwice (setting : Setting)
  /-- A value for an option that takes none. -/
  | unneededValue (argument : String)
deriving DecidableEq, Repr

namespace Setting

def all : List Setting := [.socket, .maxMessageBytes, .log, .preload]

theorem mem_all (s : Setting) : s ∈ all := by
  cases s <;> decide

def name : Setting → String
  | .socket => "socket"
  | .maxMessageBytes => "max-message-bytes"
  | .log => "log"
  | .preload => "preload"

def environmentName? : Setting → Option String
  | .socket => some "INVDB_SOCKET"
  | .maxMessageBytes => some "INVDB_MAX_MESSAGE_BYTES"
  | .log => some "INVDB_LOG"
  | .preload => none

end Setting

structure Choices where
  socket : Option String
  maxMessageBytes : Option Nat
  log : Option String
  preload : Option String
deriving DecidableEq, Repr

namespace Choices

def empty : Choices := ⟨none, none, none, none⟩

def has (c : Choices) : Setting → Bool
  | .socket => c.socket.isSome
  | .maxMessageBytes => c.maxMessageBytes.isSome
  | .log => c.log.isSome
  | .preload => c.preload.isSome

def path (setting : Setting) (value : String) : Except SettingsStop String :=
  if value = "" then .error (.noValue setting) else .ok value

def put (c : Choices) (setting : Setting) (value : String) : Except SettingsStop Choices :=
  match setting with
  | .socket => do return { c with socket := some (← path .socket value) }
  | .maxMessageBytes =>
    match Text.natural? UInt64.size value.toList with
    | some n => .ok { c with maxMessageBytes := some n }
    | none => .error (.badValue .maxMessageBytes value)
  | .log => .ok { c with log := some value }
  | .preload => do return { c with preload := some (← path .preload value) }

def putOnce (c : Choices) (setting : Setting) (value : String) : Except SettingsStop Choices :=
  if c.has setting then .error (.givenTwice setting) else c.put setting value

def putVariable (environment : String → Option String) (c : Choices) (setting : Setting) :
    Except SettingsStop Choices :=
  if c.has setting then .ok c
  else
    match setting.environmentName?.bind environment with
    | some value => c.put setting value
    | none => .ok c

def putVariables (c : Choices) (environment : String → Option String) :
    Except SettingsStop Choices :=
  Setting.all.foldlM (putVariable environment) c

def settings (c : Choices) : Settings where
  socket := c.socket.getD "/tmp/invdb.sock"
  maxMessageBytes := c.maxMessageBytes.getD (100 * 1024 * 1024)
  log := c.log.getD "info"
  preload := c.preload

end Choices

end Inventory
