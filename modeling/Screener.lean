import Screener.Main
import Screener.Store.Memory
import Screener.Proofs.Phrase.Summary
import Screener.Proofs.Timeline.Agreement
import Screener.Proofs.Timeline.Shape
import Screener.Proofs.Phrase.Merging
import Screener.Proofs.Store.History
import Screener.Proofs.Json.Numbers
import Screener.Proofs.Json.Strings
import Screener.Proofs.Json.ReadBack
import Screener.Proofs.Outcome
import Screener.Proofs.Json.Documents
import Screener.Proofs.Json.Tree
import Screener.Proofs.Json.Passing
import Screener.Proofs.Json.Decoding
import Screener.Proofs.Json.Layouts
import Screener.Proofs.Json.Telling
import Screener.Proofs.Json.Printing
import Screener.Proofs.Time.ReadBack
import Screener.Proofs.Time.Order
import Screener.Proofs.Strategy.ReadBack
import Screener.Proofs.Market.ReadBack
import Screener.Proofs.Market.Invented
import Screener.Proofs.Market.Feed
import Screener.Proofs.Store.Agreement
import Screener.Proofs.Command.Work
import Screener.Proofs.Command.Reading
import Screener.Proofs.Command.Runs
import Screener.Proofs.Command.Effects
import Screener.Proofs.Timeline.Replay
import Screener.Proofs.Command.Replay
import Screener.Proofs.Phrase.Sequence
import Screener.Proofs.Phrase.Conversation
import Screener.Proofs.Store.Tags
import Screener.Proofs.Store.Saving
import Screener.Proofs.Phrase.Numbers
import Screener.Proofs.Phrase.Joining
import Screener.Proofs.Strategy.Readings
import Screener.Proofs.Settings
import Screener.Proofs.Decimal.Fixed
import Screener.Proofs.Figures
import Screener.Proofs.Screening
import Screener.Proofs.Text.Sigma
import Screener.Proofs.Universe.Search
import Screener.Proofs.Market.Sentiment
import Screener.Proofs.Market.Ranges
import Screener.Proofs.Market.Ranking
import Screener.Proofs.Universe.ReadBack
import Screener.Proofs.SeedKey
import Screener.Proofs.Strategy.Description
import Screener.Proofs.Universe.Loading
import Screener.Proofs.Period
import Screener.Proofs.Universe.Watchlist
import Screener.Proofs.Store.Wording
import Screener.Proofs.Store.Ordering
