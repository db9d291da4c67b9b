import Switchboard.Answer
import Switchboard.Breaker
import Switchboard.Category
import Switchboard.Category.Keyword
import Switchboard.Category.Prompt
import Switchboard.Chat.Body
import Switchboard.Chat.Exchange
import Switchboard.Chat.Reply
import Switchboard.Config
import Switchboard.Config.Check
import Switchboard.Config.Error
import Switchboard.Config.Read
import Switchboard.Decimal.Elapsed
import Switchboard.Decimal.Shortest
import Switchboard.Desk
import Switchboard.Desk.Ticket
import Switchboard.Fault
import Switchboard.Http.MediaType
import Switchboard.Http.Server
import Switchboard.Inquiry
import Switchboard.Json.Float
import Switchboard.Json.Number
import Switchboard.Json.Reader
import Switchboard.Json.Token
import Switchboard.Json.Value
import Switchboard.Lane
import Switchboard.Main
import Switchboard.Monitor
import Switchboard.Options
import Switchboard.Registry
import Switchboard.Rehearsal
import Switchboard.Rehearsal.Serve
import Switchboard.Response
import Switchboard.Retry
import Switchboard.Route
import Switchboard.Session
import Switchboard.Text.Blank
import Switchboard.Text.Letter
import Switchboard.Text.Lossy
import Switchboard.Text.Word
import Switchboard.Toml.Document
import Switchboard.Toml.Read
import Switchboard.Toml.Scalar
import Switchboard.Toml.Value
import Switchboard.Url.Address
import Switchboard.Url.DomainChar
import Switchboard.Url.Host
import Switchboard.Url.Parse
import Switchboard.Url.Punycode
import Switchboard.Vote
import Switchboard.Proofs.Breaker.Run
import Switchboard.Proofs.Breaker.History
import Switchboard.Proofs.Breaker.Trial
import Switchboard.Proofs.Breaker.Look
import Switchboard.Proofs.Lane.Move
import Switchboard.Proofs.Lane.Turn
import Switchboard.Proofs.Lane.Traffic
import Switchboard.Proofs.Lane.Record
import Switchboard.Proofs.Lane.Exclusion
import Switchboard.Proofs.Lane.Permit
import Switchboard.Proofs.Lane.Fate
import Switchboard.Proofs.Registry
import Switchboard.Proofs.Registry.Flaw
import Switchboard.Proofs.Registry.Order
import Switchboard.Proofs.Route
import Switchboard.Proofs.Desk.Deed
import Switchboard.Proofs.Desk.Frame
import Switchboard.Proofs.Desk.Shift
import Switchboard.Proofs.Desk.Call
import Switchboard.Proofs.Desk.Failover
import Switchboard.Proofs.Desk.Answered
import Switchboard.Proofs.Vote
import Switchboard.Proofs.Desk.Round
import Switchboard.Proofs.Desk.Notice
import Switchboard.Proofs.Session.Use
import Switchboard.Proofs.Session.LiveRun
import Switchboard.Proofs.Desk.Ballot
import Switchboard.Proofs.Desk.Conversation
import Switchboard.Proofs.Desk.Lasting
import Switchboard.Proofs.Desk.Turns
import Switchboard.Proofs.Desk.Winner
import Switchboard.Proofs.Route.Chain
import Switchboard.Proofs.Route.Look
import Switchboard.Proofs.Desk.Prompt
import Switchboard.Proofs.Desk.Deadline
import Switchboard.Proofs.Lane.Slot
import Switchboard.Proofs.Lane.Opening
import Switchboard.Proofs.Lane.Timetable
import Switchboard.Proofs.Lane.Flight
import Switchboard.Proofs.Lane.Watch
import Switchboard.Proofs.Desk.Abandoned
import Switchboard.Proofs.Desk.Origin
import Switchboard.Proofs.Http.Posted
import Switchboard.Proofs.Desk.Preferred
import Switchboard.Proofs.Desk.Apart
import Switchboard.Proofs.Desk.Alone
import Switchboard.Proofs.Desk.Abreast
import Switchboard.Proofs.Breaker.Window
import Switchboard.Proofs.Session.Sweep
import Switchboard.Proofs.Category.Mention
import Switchboard.Proofs.Category.Classified
import Switchboard.Proofs.Float.Order
import Switchboard.Proofs.Float.Rounding
import Switchboard.Proofs.Float.Large
import Switchboard.Proofs.Retry
import Switchboard.Proofs.Desk.Limits
import Switchboard.Proofs.Json.Render
import Switchboard.Proofs.Chat.Body
import Switchboard.Proofs.Json.Words
import Switchboard.Proofs.Json.Tree
import Switchboard.Proofs.Json.Skip
import Switchboard.Proofs.Json.Record
import Switchboard.Proofs.Chat.Reply
