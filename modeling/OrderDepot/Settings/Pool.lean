import OrderDepot.Store.Failure
import OrderDepot.Time.Duration

/-!
Settings of the connections to the database, and its address. An address begins with a scheme: a letter, then
letters, digits, `+`, `-` and `.`, up to a colon. White space and control characters around an address do not
count, nor do tabs and line ends inside it.
-/

namespace OrderDepot.Settings

structure Pool where
  maxConnections : Nat := 10
  minConnections : Nat := 1
  acquireTimeout : Time.Duration := .ofSeconds 5
  deriving DecidableEq, Repr

def isUrlPadding (c : Char) : Bool := c.toNat ≤ 0x20

def isUrlBreak (c : Char) : Bool := c == '\t' || c == '\n' || c == '\r'

def isLetter (c : Char) : Bool := ('a' ≤ c && c ≤ 'z') || ('A' ≤ c && c ≤ 'Z')

def isSchemeChar (c : Char) : Bool :=
  isLetter c || ('0' ≤ c && c ≤ '9') || c == '+' || c == '-' || c == '.'

def hasScheme (url : String) : Bool :=
  match (url.toList.dropWhile isUrlPadding).filter (!isUrlBreak ·) with
  | [] => false
  | c :: rest => isLetter c && (rest.dropWhile isSchemeChar).head? == some ':'

def checkDatabaseUrl (url : String) : Except Store.DatabaseFault Unit :=
  if hasScheme url then .ok () else .error (.badAddress "relative URL without a base")

end OrderDepot.Settings
