import SessionTickets.Cache.Schedule
import SessionTickets.Config.Load
import SessionTickets.Session.Store
import SessionTickets.Store.Local
import SessionTickets.Store.Remote
import SessionTickets.Proofs.SortedMap
import SessionTickets.Proofs.Json.Tokens
import SessionTickets.Proofs.Json.Document
import SessionTickets.Proofs.Time.Stamp
import SessionTickets.Proofs.Portable.Format
import SessionTickets.Proofs.Portable.RoundTrip
import SessionTickets.Proofs.Portable.Canonical
import SessionTickets.Proofs.Cache.Consistent
import SessionTickets.Proofs.Cache.Eager
import SessionTickets.Proofs.Cache.Entries
import SessionTickets.Proofs.Cache.Counts
import SessionTickets.Proofs.Cache.Inclusion
import SessionTickets.Proofs.Store.Calls
import SessionTickets.Proofs.Store.Map
import SessionTickets.Proofs.Store.Backends
import SessionTickets.Proofs.Store.Effects
import SessionTickets.Proofs.Store.Provenance
import SessionTickets.Proofs.Store.SharedCache
import SessionTickets.Proofs.Store.Frame
import SessionTickets.Proofs.Store.Isolation
import SessionTickets.Proofs.Session.Calls
import SessionTickets.Proofs.Session.Storage
import SessionTickets.Proofs.Session.Restored
import SessionTickets.Proofs.Session.Renewal
import SessionTickets.Proofs.Session.Paired
import SessionTickets.Proofs.Session.Dropping
import SessionTickets.Proofs.Cache.Recency
import SessionTickets.Proofs.Store.Outcome
import SessionTickets.Proofs.Session.Failures
import SessionTickets.Proofs.Json.Delimited
import SessionTickets.Proofs.Portable.Delimited
import SessionTickets.Proofs.Json.Spelling
import SessionTickets.Proofs.Portable.Tolerance
import SessionTickets.Proofs.Session.Refusal
import SessionTickets.Proofs.Portable.Rules
import SessionTickets.Proofs.Portable.Layout
import SessionTickets.Proofs.Portable.LaidOut
import SessionTickets.Proofs.Portable.Faults
import SessionTickets.Proofs.Portable.Offsets
import SessionTickets.Proofs.Cache.Drained
import SessionTickets.Proofs.Config.Layers
import SessionTickets.Proofs.Portable.Positional
import SessionTickets.Proofs.Toml.Number
import SessionTickets.Proofs.Toml.Quoted
import SessionTickets.Proofs.Toml.Reader
import SessionTickets.Proofs.Config.RoundTrip
