import OrderDepot.Settings.IpAddress
import OrderDepot.Text.Character
import OrderDepot.Time.Duration

/-!
Settings that a service takes from its environment. A variable whose value is blank counts as unset. Texts
are taken as they are, values of any other type are trimmed first, and the first variable that is missing or
cannot be read ends the loading.
-/

namespace OrderDepot.Settings

inductive SettingError where
  | missing (key : String)
  | invalid (key reason : String)
  deriving DecidableEq, Repr

def SettingError.message : SettingError → String
  | .missing v => s!"Missing environment variable: {v}"
  | .invalid v reason => s!"Invalid environment variable {v}: {reason}"

abbrev Environment := List (String × String)

namespace Environment

def get? (env : Environment) (key : String) : Option String :=
  (env.lookup key).filter fun value => !Text.isBlank value

def getD (env : Environment) (key fallback : String) : String :=
  (env.get? key).getD fallback

def require (env : Environment) (key : String) : Except SettingError String :=
  match env.get? key with
  | some value => .ok value
  | none => .error (.missing key)

def parse {α : Type} (env : Environment) (key : String) (fallback : α)
    (read : String → Except String α) : Except SettingError α :=
  match env.get? key with
  | none => .ok fallback
  | some value =>
    match read value with
    | .ok a => .ok a
    | .error reason => .error (.invalid key reason)

def databaseUrl (env : Environment) (key : String) : Except SettingError String :=
  match (env.get? key).orElse fun _ => env.get? "DATABASE_URL" with
  | some url => .ok url
  | none => .error (.missing key)

end Environment

def readWord (bits : Nat) (s : String) : Except String Nat :=
  match Text.readUnsigned (Nat.pow 2 bits - 1) (Text.trimmed s.toList) with
  | .ok n => .ok n
  | .error e => .error e.message

def readAddress (s : String) : Except String IpAddress :=
  match IpAddress.read? (Text.trimmed s.toList) with
  | some a => .ok a
  | none => .error "invalid IP address syntax"

def readDuration (s : String) : Except String Time.Duration :=
  match Time.Duration.read s with
  | .ok d => .ok d
  | .error e => .error e.message

inductive LogFormat where
  | text
  | json
  deriving DecidableEq, Repr

def LogFormat.name : LogFormat → String
  | .text => "text"
  | .json => "json"

def defaultLogFormat : LogFormat := .text

def readLogFormat (s : String) : Except String LogFormat :=
  let name := String.ofList ((Text.trimmed s.toList).map Char.toLower)
  if name = "text" ∨ name = "pretty" then .ok .text
  else if name = "json" then .ok .json
  else .error s!"expected `text` or `json`, got `{name}`"

end OrderDepot.Settings
