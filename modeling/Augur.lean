import Augur.Answer.Evidence
import Augur.Answer.Fallback
import Augur.Answer.Wording
import Augur.Calendar.Anchors
import Augur.Calendar.Date
import Augur.Calendar.Heading
import Augur.Calendar.Iso
import Augur.Calendar.Timestamp
import Augur.Command.Arguments
import Augur.Command.Run
import Augur.Command.Tables
import Augur.Forecast.Basic
import Augur.Forecast.Feed
import Augur.Forecast.Rainfall
import Augur.Forecast.Row
import Augur.Intent.Basic
import Augur.Intent.Reply
import Augur.Intent.Schema
import Augur.Intent.Token
import Augur.Intent.Vocabulary
import Augur.Journal.Basic
import Augur.Journal.Loggable
import Augur.Json.Basic
import Augur.Json.Display
import Augur.Json.Printer
import Augur.Json.Reader
import Augur.Log.Console
import Augur.Log.Line
import Augur.Log.Template
import Augur.Main
import Augur.Model.Client
import Augur.Model.Config
import Augur.Model.Exchange
import Augur.Model.Extraction
import Augur.Model.Interface
import Augur.Model.Recorded
import Augur.Numeric.Decimal
import Augur.Numeric.Double
import Augur.Numeric.Numeral
import Augur.Numeric.Word
import Augur.Prompt.Anchored
import Augur.Prompt.Instructions
import Augur.Prompt.Messages
import Augur.Proofs.AcceptedSettings
import Augur.Proofs.AnchorDates
import Augur.Proofs.AnswerStage
import Augur.Proofs.AskOutcomes
import Augur.Proofs.AskableTexts
import Augur.Proofs.AveragedDays
import Augur.Proofs.BestForecasts
import Augur.Proofs.CalendarRanges
import Augur.Proofs.Checks
import Augur.Proofs.ClosingBraces
import Augur.Proofs.Compilation
import Augur.Proofs.ConsecutiveDays
import Augur.Proofs.ContainedTexts
import Augur.Proofs.DateHeadings
import Augur.Proofs.DateOrder
import Augur.Proofs.DateRanges
import Augur.Proofs.DayNumbers
import Augur.Proofs.Deliveries
import Augur.Proofs.Digits
import Augur.Proofs.DoubleOrder
import Augur.Proofs.EngineLaws
import Augur.Proofs.Extremes
import Augur.Proofs.FeedBatches
import Augur.Proofs.FoldedLines
import Augur.Proofs.Gates
import Augur.Proofs.GenuineCitations
import Augur.Proofs.IntentGrammar
import Augur.Proofs.IntentReading
import Augur.Proofs.IsoDates
import Augur.Proofs.Issuances
import Augur.Proofs.Issues
import Augur.Proofs.KeyedTexts
import Augur.Proofs.LatestRecords
import Augur.Proofs.LoadOrder
import Augur.Proofs.Loading
import Augur.Proofs.LongestStreak
import Augur.Proofs.MarkupTexts
import Augur.Proofs.MatchingDays
import Augur.Proofs.NamedDays
import Augur.Proofs.Noninterference
import Augur.Proofs.PatternWays
import Augur.Proofs.PictureCodes
import Augur.Proofs.Placeholders
import Augur.Proofs.PlainEngine
import Augur.Proofs.PlainNumerals
import Augur.Proofs.PublishTimes
import Augur.Proofs.QuotaWindows
import Augur.Proofs.RainfallAmounts
import Augur.Proofs.RainfallNumbers
import Augur.Proofs.RainfallTexts
import Augur.Proofs.RainfallUnits
import Augur.Proofs.Records
import Augur.Proofs.Refusals
import Augur.Proofs.RefutedDays
import Augur.Proofs.RelativeLabels
import Augur.Proofs.ReplyStages
import Augur.Proofs.RespelledTexts
import Augur.Proofs.Retries
import Augur.Proofs.Rewriting
import Augur.Proofs.RivalIssues
import Augur.Proofs.Rounding
import Augur.Proofs.RowOrder
import Augur.Proofs.Runs
import Augur.Proofs.SecretMatches
import Augur.Proofs.SecretRules
import Augur.Proofs.SecretTexts
import Augur.Proofs.SecretValues
import Augur.Proofs.SecretWords
import Augur.Proofs.ShownAverages
import Augur.Proofs.ShownTables
import Augur.Proofs.SignificantDigits
import Augur.Proofs.SnapshotFiles
import Augur.Proofs.Statements
import Augur.Proofs.StoredTimes
import Augur.Proofs.TableCells
import Augur.Proofs.TemplateAnswers
import Augur.Proofs.TemplateNames
import Augur.Proofs.Transactions
import Augur.Proofs.TruncatedReplies
import Augur.Proofs.WorstRainfall
import Augur.Proofs.WrittenDates
import Augur.Query.BestForecast
import Augur.Query.Compile
import Augur.Query.Condition
import Augur.Query.Expr
import Augur.Query.Plan
import Augur.Query.Statement
import Augur.Query.Value
import Augur.Query.Wildcard
import Augur.Question.Basic
import Augur.Question.Injection
import Augur.Quota.Basic
import Augur.Quota.Clock
import Augur.Redaction.Secret
import Augur.Redaction.Value
import Augur.Schema.Field
import Augur.Schema.Number
import Augur.Schema.Problem
import Augur.Service.Ask
import Augur.Service.Gates
import Augur.Service.Response
import Augur.Settings.Basic
import Augur.Settings.Variables
import Augur.Store.Address
import Augur.Store.Basic
import Augur.Store.Saved
import Augur.Terminal.Lexicon
import Augur.Terminal.Markup
import Augur.Terminal.Pictures
import Augur.Terminal.Table
import Augur.Terminal.Width
import Augur.Terminal.Wrap
import Augur.Text.Blank
import Augur.Text.Digest
import Augur.Text.Digit
import Augur.Text.Letter
import Augur.Text.LowerCase
import Augur.Text.Path
import Augur.Text.Pattern
import Augur.Text.Printable
import Augur.Text.Quoted
import Augur.Text.Ranges
import Augur.Text.Search
import Augur.Text.Word
