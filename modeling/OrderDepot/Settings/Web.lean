import OrderDepot.Settings.Environment

/-!
Settings of the service that answers requests for orders.
-/

namespace OrderDepot.Settings

structure Web where
  databaseUrl : String
  maxConnections : Nat
  host : IpAddress
  port : Nat
  cacheCapacity : Nat
  cacheTtl : Time.Duration
  requestTimeout : Time.Duration
  logLevel : String
  logFormat : LogFormat
  sentryDsn : Option String
  sentryEnvironment : Option String
  deriving DecidableEq, Repr

def lookupTimeout : Time.Duration := .ofSeconds 3

def defaultCapacity : Nat := 1000

def defaultTtl : Time.Duration := .ofSeconds 30

def defaultRequestTimeout : Time.Duration := .ofSeconds 10

def Web.load (env : Environment) : Except SettingError Web := do
  return {
    databaseUrl := ← env.databaseUrl "WEB_DATABASE_URL"
    maxConnections := ← env.parse "DB_MAX_CONNECTIONS" 10 (readWord 32)
    host := ← env.parse "WEB_HOST" (.v4 [127, 0, 0, 1]) readAddress
    port := ← env.parse "WEB_PORT" 4000 (readWord 16)
    cacheCapacity := ← env.parse "CACHE_SIZE" defaultCapacity (readWord 64)
    cacheTtl := ← env.parse "CACHE_TTL" defaultTtl readDuration
    requestTimeout := ← env.parse "HTTP_REQUEST_TIMEOUT" defaultRequestTimeout readDuration
    logLevel := env.getD "LOG_LEVEL" "info"
    logFormat := ← env.parse "LOG_FORMAT" defaultLogFormat readLogFormat
    sentryDsn := env.get? "SENTRY_DSN"
    sentryEnvironment := env.get? "SENTRY_ENVIRONMENT" }

def Web.socketText (w : Web) : String :=
  w.host.socketText w.port

end OrderDepot.Settings
