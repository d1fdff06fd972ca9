import RoqBitmex.Library.Machine
import RoqBitmex.Library.Runs
import RoqBitmex.Library.Journal
import RoqBitmex.Library.Double
import RoqBitmex.Library.Handling
import RoqBitmex.Protocol.Json
import RoqBitmex.Protocol.Map
import RoqBitmex.Protocol.Errors
import RoqBitmex.Protocol.Parser
import RoqBitmex.Gateway.Session
import RoqBitmex.Gateway.Position
import RoqBitmex.Gateway.OrderUpdate
import RoqBitmex.Gateway.OrderEntry
import RoqBitmex.Gateway.Api
import RoqBitmex.Gateway.PriceCache
import RoqBitmex.Gateway.OrderBook
import RoqBitmex.Gateway.Product
import RoqBitmex.Library.LevelTable
import RoqBitmex.Gateway.BookRows
import RoqBitmex.Gateway.ProductRows
import RoqBitmex.Gateway.ProductPublished
import RoqBitmex.Gateway.MarketData
import RoqBitmex.Gateway.BookSession
import RoqBitmex.Gateway.BookAwaiting
import RoqBitmex.Gateway.BookMirror
import RoqBitmex.Gateway.BookIsolation
import RoqBitmex.Gateway.ProductSession
import RoqBitmex.Gateway.ProductCoherence
import RoqBitmex.Gateway.ProductAnnounced
import RoqBitmex.Gateway.Feed
import RoqBitmex.Gateway.FeedSafety
import RoqBitmex.Gateway.Trades
import RoqBitmex.Gateway.PriceHistory
import RoqBitmex.Protocol.ErrorTexts
import RoqBitmex.Gateway.CancelReports
import RoqBitmex.Library.JsonText
import RoqBitmex.Library.Template
import RoqBitmex.Protocol.Encoder
import RoqBitmex.Gateway.CreateOrder
import RoqBitmex.Gateway.Filtering
import RoqBitmex.Gateway.DropCopy
import RoqBitmex.Gateway.Readiness
import RoqBitmex.Gateway.BookBatches
import RoqBitmex.Gateway.CancelAllAfter
import RoqBitmex.Gateway.CancelRequests
import RoqBitmex.Gateway.Refusals
import RoqBitmex.Gateway.Routing
import RoqBitmex.Gateway.FundingPeriods
import RoqBitmex.Gateway.ProductReference
import RoqBitmex.Gateway.Construction
import RoqBitmex.Gateway.RequestLedger
import RoqBitmex.Gateway.SignedRequests
import RoqBitmex.Library.Interleaving
import RoqBitmex.Gateway.Streams
import RoqBitmex.Gateway.Lifecycle
import RoqBitmex.Gateway.RequestBalance
import RoqBitmex.Gateway.PrivateFeed
import RoqBitmex.Gateway.Restart
import RoqBitmex.Gateway.Commands
import RoqBitmex.Gateway.Tape
import RoqBitmex.Gateway.UnderstoodRequests
import RoqBitmex.Gateway.Timers
import RoqBitmex.Library.Meter
import RoqBitmex.Gateway.Fills
