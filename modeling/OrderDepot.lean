import OrderDepot.Main
import OrderDepot.Delivery.Bench
import OrderDepot.Delivery.Run
import OrderDepot.Order.Sample
import OrderDepot.Settings.Consumer
import OrderDepot.Settings.Pool
import OrderDepot.Settings.Web
import OrderDepot.Web.Service
import OrderDepot.Proofs.Text.Base64
import OrderDepot.Proofs.Delivery.Bench
import OrderDepot.Proofs.Delivery.Convergence
import OrderDepot.Proofs.Delivery.Ledger
import OrderDepot.Proofs.Delivery.Turns
import OrderDepot.Proofs.Delivery.Acknowledgement
import OrderDepot.Proofs.Store.Contents
import OrderDepot.Proofs.Store.Session
import OrderDepot.Proofs.Store.Interference
import OrderDepot.Proofs.Cache.Links
import OrderDepot.Proofs.Cache.Slots
import OrderDepot.Proofs.Cache.Refinement
import OrderDepot.Proofs.Time.Calendar
import OrderDepot.Proofs.Time.InstantText
import OrderDepot.Proofs.Json.Literal
import OrderDepot.Proofs.Json.Number
import OrderDepot.Proofs.Json.Written
import OrderDepot.Proofs.Json.Reader
import OrderDepot.Proofs.Order.RoundTrip
import OrderDepot.Proofs.Web.Path
import OrderDepot.Proofs.Web.Query
import OrderDepot.Proofs.Web.Writers
import OrderDepot.Proofs.Cache.Entries
import OrderDepot.Proofs.Web.ReadBack
import OrderDepot.Proofs.Web.Staleness
import OrderDepot.Proofs.Store.Acceptance
import OrderDepot.Proofs.Store.Agreement
import OrderDepot.Proofs.Delivery.Envelope
import OrderDepot.Proofs.Delivery.Shutdown
import OrderDepot.Proofs.Order.Violations
import OrderDepot.Proofs.Order.Documents
import OrderDepot.Proofs.Order.Verdicts
import OrderDepot.Proofs.Delivery.Stopping
import OrderDepot.Proofs.Delivery.Calls
import OrderDepot.Proofs.Delivery.Courses
import OrderDepot.Proofs.Delivery.Deadlines
import OrderDepot.Proofs.Store.ValidOrders
import OrderDepot.Proofs.Cache.Keys
import OrderDepot.Proofs.Cache.Inclusion
import OrderDepot.Proofs.Cache.History
import OrderDepot.Proofs.Order.Rearrangement
import OrderDepot.Proofs.Delivery.Attempts
import OrderDepot.Proofs.Order.Sums
import OrderDepot.Proofs.Store.Constraints
import OrderDepot.Proofs.Store.Integrity
import OrderDepot.Proofs.Web.Shapes
import OrderDepot.Proofs.Web.Overtaking
import OrderDepot.Proofs.Delivery.Collapse
import OrderDepot.Proofs.Delivery.Pacing
import OrderDepot.Proofs.Delivery.TurnBound
import OrderDepot.Proofs.Order.Addresses
import OrderDepot.Proofs.Delivery.Lists
import OrderDepot.Proofs.Json.Truncation
import OrderDepot.Proofs.Order.Truncation
import OrderDepot.Proofs.Time.Durations
import OrderDepot.Proofs.Web.Discretion
import OrderDepot.Proofs.Order.Currencies
import OrderDepot.Proofs.Cache.Threads
import OrderDepot.Proofs.Store.Chunks
