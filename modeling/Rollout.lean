import Rollout.Cache.Shared
import Rollout.Client.Caching
import Rollout.Evaluation
import Rollout.Provider.Lifecycle
import Rollout.Provider.Flags
import Rollout.Provider.Tracking
import Rollout.OpenFeature
import Rollout.Log.Rendering
import Rollout.Command
import Rollout.Main
import Rollout.Proofs.Number.Digits
import Rollout.Proofs.Number.Parts
import Rollout.Proofs.Number.Rounding
import Rollout.Proofs.Number.ShortestText
import Rollout.Proofs.Number.DecimalText
import Rollout.Proofs.Value.Plain
import Rollout.Proofs.Value.Alike
import Rollout.Proofs.Json.Text
import Rollout.Proofs.Json.Number
import Rollout.Proofs.Json.RoundTrip
import Rollout.Proofs.Fingerprint
import Rollout.Proofs.Variant
import Rollout.Proofs.Reduction
import Rollout.Proofs.Sequence
import Rollout.Proofs.Cache.Store
import Rollout.Proofs.Cache.History
import Rollout.Proofs.Cache.Recency
import Rollout.Proofs.Cache.Lookup
import Rollout.Proofs.Client.World
import Rollout.Proofs.Client.Transparency
import Rollout.Proofs.Client.Hit
import Rollout.Proofs.Provider.Escape
import Rollout.Proofs.Provider.Stages
import Rollout.Proofs.Provider.Session
import Rollout.Proofs.Settings
import Rollout.Proofs.Client.Deployment
import Rollout.Proofs.Client.Freshness
import Rollout.Proofs.Value.SameKey
import Rollout.Proofs.Normalization
import Rollout.Proofs.Normalization.Rearranged
import Rollout.Proofs.Dump
import Rollout.Proofs.Fingerprint.Order
import Rollout.Proofs.Value.Hereditary
import Rollout.Proofs.Record.Projection
import Rollout.Proofs.Record.Rearranged
import Rollout.Proofs.Cache.Agreement
import Rollout.Proofs.Normalization.Routing
import Rollout.Proofs.Spelling
import Rollout.Proofs.Spelling.SameWord
import Rollout.Proofs.AliasTable
import Rollout.Proofs.Record.Identity
import Rollout.Proofs.OpenFeature
import Rollout.Proofs.Json.Writable
import Rollout.Proofs.Fingerprint.Keyed
import Rollout.Proofs.Client.Failures
import Rollout.Proofs.Number.Grammar
import Rollout.Proofs.Number.Range
import Rollout.Proofs.Coercion
import Rollout.Proofs.Number.Lenient
import Rollout.Proofs.Coercion.Numerals
import Rollout.Proofs.Coercion.Truncation
import Rollout.Proofs.Evaluation
import Rollout.Proofs.Record.Event
import Rollout.Proofs.Normalization.Fixpoint
import Rollout.Proofs.Record.Fitting
import Rollout.Proofs.Client.Exchange
import Rollout.Proofs.Client.Repeats
import Rollout.Proofs.Fingerprint.Swapped
import Rollout.Proofs.OpenFeature.Details
import Rollout.Proofs.Provider.Tracked
import Rollout.Proofs.Json.Reading
import Rollout.Proofs.Settings.Sources
import Rollout.Proofs.Console.Markup
import Rollout.Proofs.Command.Input
import Rollout.Proofs.Evaluation.Decoded
import Rollout.Proofs.Command.Offline
import Rollout.Proofs.Command.Printing
import Rollout.Proofs.Command.Halt
import Rollout.Proofs.Settings.Decoded
import Rollout.Proofs.Log.Rendering
import Rollout.Proofs.Command.Logged
import Rollout.Proofs.Command.Exit
