import OrderDepot.CommandLine.Outcome
import Std.Time.DateTime

/-!
The operators' tool. It has no connection to a database server of its own, so a lookup ends as it does on a
machine without a network.
-/

namespace OrderDepot.CommandLine

def systemError : IO.Error → OsError
  | .alreadyExists _ code _ | .otherError code _ | .resourceBusy code _ | .resourceVanished code _
  | .unsupportedOperation code _ | .hardwareFault code _ | .unsatisfiedConstraints code _
  | .illegalOperation code _ | .protocolError code _ | .timeExpired code _ | .interrupted _ code _
  | .noFileOrDirectory _ code _ | .invalidArgument _ code _ | .permissionDenied _ code _
  | .resourceExhausted _ code _ | .inappropriateType _ code _ | .noSuchThing _ code _ => .ofCode code.toNat
  | .unexpectedEof => ⟨0, "unexpected end of file"⟩
  | .userError text => ⟨0, text⟩

def readAll (input : IO.FS.Stream) : IO ByteArray := do
  let mut bytes := ByteArray.empty
  repeat
    let more ← input.read 65536
    if more.isEmpty then break
    bytes := bytes ++ more
  return bytes

def readPayload (file : String) : IO (Except OsError (List UInt8)) := do
  try
    let bytes ← if file = "-" then readAll (← IO.getStdin) else IO.FS.readBinFile file
    return .ok bytes.toList
  catch e => return .error (systemError e)

def wallClock : IO Time.Instant := do
  let nanos := (← Std.Time.Timestamp.now).toNanosecondsSinceUnixEpoch.val
  return ⟨nanos / 1000000000, (nanos % 1000000000).toNat⟩

def readInput : Invocation → IO (Except OsError (List UInt8))
  | .run .validate file => readPayload file
  | .run .lookUp _ | .help _ | .version | .misuse => return .ok []

def run (args : List String) : IO UInt32 := do
  let invocation := Invocation.parse args
  let payload ← readInput invocation
  let url ← IO.getEnv databaseVariable
  let ended := outcome invocation payload (← wallClock) url (.down OsError.networkUnreachable.message)
  IO.print ended.stdout
  if let some reason := ended.failure then IO.eprintln ("Command failed: " ++ reason)
  if ended.exit = 2 then IO.eprint (helpText none)
  return UInt32.ofNat ended.exit

end OrderDepot.CommandLine

def main (args : List String) : IO UInt32 :=
  OrderDepot.CommandLine.run args
