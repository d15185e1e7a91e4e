import OneProxy.Handoff.DispatchLaws
import OneProxy.Forward.WriteDataLaws
import OneProxy.Pool.Isolation
import OneProxy.Session.PoolIntegrity
import OneProxy.Session.Retry
import OneProxy.Session.Leaks
import OneProxy.Session.Lifetime
import OneProxy.Handle.Lookup
import OneProxy.Session.CleanRelease
import OneProxy.Monitor.Payload
import OneProxy.Monitor.Sessions
import OneProxy.Monitor.CaptureOrder
import OneProxy.Sql.TokenReads
import OneProxy.Monitor.Extraction
import OneProxy.Monitor.BothDirections
import OneProxy.Protocol.IntegerCodec
import OneProxy.Protocol.UnicodeString
import OneProxy.Protocol.StringCodec
import OneProxy.Lib.StdMap
import OneProxy.Stats.Record
import OneProxy.Lib.Ledger
import OneProxy.Stats.RealTime
import OneProxy.Stats.DiffRecord
import OneProxy.Lib.Tracing
import OneProxy.Stats.Server
import OneProxy.Stats.ServerLaws
import OneProxy.Stats.ClientSql
import OneProxy.Stats.ConnHash
import OneProxy.Pool.ConnectLimit
import OneProxy.Stats.ConnGauges
import OneProxy.Stats.Survival
import OneProxy.Util.Digits
import OneProxy.Monitor.SessionKey
import OneProxy.Lib.Separator
import OneProxy.Util.PlainBuffer
import OneProxy.Lib.AllAlong
import OneProxy.Monitor.HandlingGauge
import OneProxy.Protocol.ProtocolFront
import OneProxy.Stats.ConnectRetries
import OneProxy.Util.WakeUps
import OneProxy.Handle.PacketOwnership
import OneProxy.Stats.StoredExecutions
import OneProxy.Conf.PortClasses
import OneProxy.Httpserver.ParsedRequests
import OneProxy.Monitor.Distribution
import OneProxy.Sql.TokenStoreLaws
import OneProxy.Sql.UtilityStatements
import OneProxy.Lib.Lexing
import OneProxy.Sql.Keywords
import OneProxy.Sql.TokenizerLaws
import OneProxy.Sql.BeginBatches
import OneProxy.Pool.FullScan
import OneProxy.Sql.StatementKind
import OneProxy.Sql.ParserHistory
import OneProxy.Lib.Splicing
import OneProxy.Protocol.ParamSubstitution
import OneProxy.Lib.DoubledQuotes
import OneProxy.Stats.StoredSql
import OneProxy.Sql.ParserKeeps
import OneProxy.Sql.NameLengths
import OneProxy.Lib.Alongside
import OneProxy.Sql.Shifting
import OneProxy.Sql.ShiftedParsing
import OneProxy.Sql.ShiftedTables
import OneProxy.Sql.Headers
import OneProxy.Sql.Transparency
import OneProxy.Sql.Contributions
import OneProxy.Sql.UnionChains
import OneProxy.Handle.Allocation
import OneProxy.Handle.IdLeaks
import OneProxy.Commercial.FreeImpl
import OneProxy.ReadSslData
import OneProxy.Util.BufferBounds
import OneProxy.Stats.Transactions
import OneProxy.Stats.Rollbacks
import OneProxy.Handoff.Admission
import OneProxy.Session.TaskStat
import OneProxy.Pool.IdleAge
import OneProxy.Sql.QuotedText
import OneProxy.Iomultiplex.IoSelect
import OneProxy.Protocol.PositionalWrites
import OneProxy.Protocol.PacketReaders
import OneProxy.Protocol.ReaderAppends
import OneProxy.Sql.HitCache
import OneProxy.Conf.DataBaseGroup
import OneProxy.Stats.Clearing
import OneProxy.Httpserver.UriPairs
import OneProxy.Util.KeywordSearch
import OneProxy.Httpserver.SortedPages
import OneProxy.Sql.TableLists
import OneProxy.Sql.ListSelects
import OneProxy.Sql.InnerSelects
import OneProxy.Sql.LeastToken
import OneProxy.Util.CaseFolding
import OneProxy.Sql.Termination
import OneProxy.Lib.OrderedMap
import OneProxy.Iomultiplex.SelectRound
import OneProxy.Stats.References
import OneProxy.Util.Vip
import OneProxy.Httpserver.TableMaps
import OneProxy.AssistThread
import OneProxy.Sql.Placeholders
import OneProxy.Forward.Relay
import OneProxy.Forward.RelayDrain
