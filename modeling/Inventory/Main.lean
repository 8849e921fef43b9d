import Inventory.Service.Frame
import Inventory.Service.Preload
import Inventory.Settings.CommandLine
import Inventory.Settings.Usage

/-! # The program

Serves one client over its standard input and output.
-/

namespace Inventory

/-- Reads `count` bytes after those given, or fewer at the end of the input. -/
partial def readBytes (input : IO.FS.Stream) (count : Nat) (given : ByteArray) : IO ByteArray := do
  if count ≤ given.size then return given
  let more ← input.read (USize.ofNat (min (count - given.size) 65536))
  if more.isEmpty then return given
  readBytes input count (given ++ more)

def readMessage (input : IO.FS.Stream) (limit : Nat) : IO (Except FrameFault (Option Bytes)) := do
  let front ← readBytes input Frame.lengthWidth .empty
  let length := ofBigEndian front.data.toList
  if limit < length then return (Frame.read limit front.data.toList).1
  let whole ← readBytes input (Frame.lengthWidth + length) front
  return (Frame.read limit whole.data.toList).1

/-- Answers messages until the client leaves or asks for the end. -/
partial def serve (input output : IO.FS.Stream) (limit : Nat) (g : Graph) : IO Unit := do
  match ← readMessage input limit with
  | .error fault => IO.eprintln fault.error.message
  | .ok none => return
  | .ok (some message) =>
    let (g, response, isLast) := g.answerFrame message
    output.write ⟨(Frame.encode response).toArray⟩
    output.flush
    if isLast then return
    serve input output limit g

def readEnvironment : IO (List (String × String)) := do
  let names := Setting.all.filterMap Setting.environmentName?
  let values ← names.mapM fun name => do
    let value ← IO.getEnv name
    return value.map fun v => (name, v)
  return values.filterMap id

def startGraph (settings : Settings) : IO (Except Error Graph) := do
  match settings.preload with
  | none => return .ok .empty
  | some path => return Graph.preload (← IO.FS.readFile path)

def run (arguments : List String) : IO UInt32 := do
  let environment ← readEnvironment
  match Settings.ofArguments arguments (fun name => environment.lookup name) with
  | .error stop =>
    if stop.isAnswer then
      IO.println stop.message
      return 0
    else
      IO.eprintln ("error: " ++ stop.message)
      return 2
  | .ok settings =>
    match ← startGraph settings with
    | .error e =>
      IO.eprintln ("Error: " ++ e.message)
      return 1
    | .ok g =>
      serve (← IO.getStdin) (← IO.getStdout) settings.maxMessageBytes g
      return 0

end Inventory

def main (arguments : List String) : IO UInt32 :=
  Inventory.run arguments
