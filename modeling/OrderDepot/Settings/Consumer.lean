import OrderDepot.Settings.Environment

/-!
Settings of the service that takes orders from the stream and stores them.
-/

namespace OrderDepot.Settings

structure Consumer where
  databaseUrl : String
  maxConnections : Nat
  brokers : List String
  topic : String
  group : String
  deadLetterTopic : Option String
  logLevel : String
  logFormat : LogFormat
  sentryDsn : Option String
  sentryEnvironment : Option String
  deriving DecidableEq, Repr

/-- The parts between commas, trimmed, without the empty ones. -/
def commaSeparated (s : String) : List String :=
  ((s.toList.splitOnP (· = ',')).map Text.trimmed).filterMap fun part =>
    if part.isEmpty then none else some (String.ofList part)

def Consumer.load (env : Environment) : Except SettingError Consumer := do
  let brokers := commaSeparated (← env.require "KAFKA_BROKERS")
  if brokers.isEmpty then throw (.invalid "KAFKA_BROKERS" "no broker addresses given")
  return {
    databaseUrl := ← env.databaseUrl "CONSUMER_DATABASE_URL"
    maxConnections := ← env.parse "DB_MAX_CONNECTIONS" 5 (readWord 32)
    brokers
    topic := env.getD "KAFKA_TOPIC" "orders"
    group := env.getD "KAFKA_GROUP_ID" "orders-consumer"
    deadLetterTopic := env.get? "KAFKA_DLQ_TOPIC"
    logLevel := env.getD "LOG_LEVEL" "info"
    logFormat := ← env.parse "LOG_FORMAT" defaultLogFormat readLogFormat
    sentryDsn := env.get? "SENTRY_DSN"
    sentryEnvironment := env.get? "SENTRY_ENVIRONMENT" }

end OrderDepot.Settings
