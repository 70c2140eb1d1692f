import QuotaGate.CommandLine.Run

/-!
# The program

The outer layer: it reads the arguments, the environment and the file of settings, runs the
command, and prints what the run leaves behind. It has no network, so no request gets a reply.
-/

namespace QuotaGate

/-- The notation of a file of settings, by the ending of its name. -/
def formatOf (path : String) : FileFormat := if path.endsWith ".json" then .json else .yaml

def readSettings (path : String) : IO SettingsFile := do
  let text ←
    try pure (some (Utf8.decodeLossy (← IO.FS.readBinFile path).toList)) catch _ => pure none
  return ⟨formatOf path, text⟩

/-- Splits an entry of the environment into its name and its value. -/
def variableOf (entry : List UInt8) : Option (String × String) := do
  let name ← Utf8.decode? (entry.takeWhile (· != 0x3D))
  let value ← Utf8.decode? ((entry.dropWhile (· != 0x3D)).drop 1)
  some (name, value)

def readEnvironment : IO (List (String × String)) := do
  let bytes ← try pure (← IO.FS.readBinFile "/proc/self/environ").toList catch _ => pure []
  return (bytes.splitOn 0).filterMap variableOf

end QuotaGate

open QuotaGate in
def main (arguments : List String) : IO UInt32 := do
  let environment ← readEnvironment
  let path :=
    match CommandLine.Command.ofArguments arguments with
    | .ok command => command.config
    | .error _ => none
  let file ← readSettings (path.getD "")
  let completion := CommandLine.run arguments (fun _ => file) environment []
  IO.print completion.output
  if let some complaint := completion.complaint then IO.eprintln complaint
  return UInt32.ofNat completion.exitCode
