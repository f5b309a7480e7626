/-!
What can go wrong when a store is asked. An absent order is told apart from all other failures, because it is
an answer and no fault of the store.
-/

namespace OrderDepot.Store

inductive DatabaseFault where
  | poolTimedOut
  | poolClosed
  | rowNotFound
  | protocol (text : String)
  | refused (message : String)
  | nullColumn (column : String)
  | missingColumn (column : String)
  | link (text : String)
  | badAddress (text : String)
  deriving DecidableEq, Repr

def DatabaseFault.message : DatabaseFault → String
  | .poolTimedOut => "pool timed out while waiting for an open connection"
  | .poolClosed => "attempted to acquire a connection on a closed pool"
  | .rowNotFound => "no rows returned by a query that expected to return at least one row"
  | .protocol t => "encountered unexpected or invalid data: " ++ t
  | .refused m => "error returned from database: " ++ m
  | .nullColumn c =>
    s!"error occurred while decoding column \"{c}\": unexpected null; try decoding as an `Option`"
  | .missingColumn c => "no column found for name: " ++ c
  | .link t => "error communicating with database: " ++ t
  | .badAddress t => "error with configuration: " ++ t

inductive Failure where
  | database (fault : DatabaseFault)
  | dataCorruption (text : String)
  | notFound
  | unavailable (text : String)
  deriving DecidableEq, Repr

def Failure.message : Failure → String
  | .database f => "database error: " ++ f.message
  | .dataCorruption t => "data corruption: " ++ t
  | .notFound => "not found"
  | .unavailable t => "store unavailable: " ++ t

def Failure.isNotFound : Failure → Bool
  | .notFound => true
  | _ => false

end OrderDepot.Store
