import Dotten.Containers.TenMap
import Dotten.Library.OrderedMap
import Dotten.Containers.TenMapInvariant
import Dotten.Containers.TenMapCalls
import Dotten.Containers.TenMapRefinement
import Dotten.Containers.TenString
import Dotten.Containers.TenList
import Dotten.Containers.StringCalls
import Dotten.Json.TenJson
import Dotten.Json.TenJsonObject
import Dotten.Json.TenJsonObjectRuns
import Dotten.Core.Strtod
import Dotten.Library.PrefixCode
import Dotten.Library.Utf
import Dotten.Json.JsonGrammar
import Dotten.Json.JsonStrings
import Dotten.Json.JsonView
import Dotten.Json.JsonParserComplete
import Dotten.Json.JsonParserSound
import Dotten.Json.JsonLexemes
import Dotten.Core.Printf
import Dotten.Json.TenJsonStringify
import Dotten.Json.JsonPrinter
import Dotten.Json.JsonRoundTrip
import Dotten.Library.LinkedQueue
import Dotten.ThreadPool.TenThreadPool
import Dotten.ThreadPool.PoolInvariant
import Dotten.ThreadPool.PoolExactlyOnce
import Dotten.ThreadPool.PoolWakeups
import Dotten.ThreadPool.PoolUseAfterDestroy
import Dotten.Containers.TenBuffer
import Dotten.Http.TenHttp
import Dotten.Http.HttpHeaders
import Dotten.Http.HttpParsing
import Dotten.Http.HttpTransfer
import Dotten.Http.HttpMessages
import Dotten.Http.HttpMessageCalls
import Dotten.Http.HttpResponseRoundTrip
import Dotten.Http.HttpRequestRoundTrip
import Dotten.Http.HttpHeaderBlock
import Dotten.Http.HttpReception
import Dotten.Http.HttpConnections
import Dotten.Http.HttpSegmentation
import Dotten.Http.HttpTruncation
import Dotten.Http.HttpFraming
import Dotten.Http.HttpWireHeaders
import Dotten.Json.JsonPieces
import Dotten.Json.JsonParserRuns
import Dotten.Json.JsonNormal
import Dotten.Json.JsonPrinterShortage
import Dotten.Json.JsonParserShortage
import Dotten.Encoding.TenUtf
import Dotten.Encoding.UtfWords
import Dotten.Encoding.UtfConversions
import Dotten.Json.JsonUtf16
import Dotten.Json.JsonCodePoints
import Dotten.Library.Bits
import Dotten.Encoding.TenBase64
import Dotten.Encoding.Base64
import Dotten.Library.FileStore
import Dotten.File.TenFile
import Dotten.File.FileCopy
import Dotten.Library.Trim
import Dotten.Path.TenPath
import Dotten.Http.HttpServerStop
import Dotten.Library.Block
import Dotten.Containers.TenListBytes
import Dotten.Containers.ListStorage
import Dotten.Containers.ListCalls
import Dotten.Containers.ListRefinement
import Dotten.Containers.ListOverflow
import Dotten.Containers.ListSelfInsert
import Dotten.Encoding.TenHex
import Dotten.Encoding.Hex
import Dotten.Library.LastIndex
import Dotten.Path.PathSplitting
import Dotten.Path.PathWalk
import Dotten.Http.HttpHeaderStore
import Dotten.Library.LossyWriter
import Dotten.Containers.TenBufferPieces
import Dotten.Http.HttpBodies
import Dotten.Http.HttpSendShortage
import Dotten.Http.HttpHeaderLimit
import Dotten.Http.HttpFailureCode
import Dotten.Http.HttpSeenHeaders
import Dotten.Json.JsonErrorState
import Dotten.Library.DoublingLoop
import Dotten.Containers.CapacityGrowth
import Dotten.Library.Lockstep
import Dotten.Sync.TenMutex
import Dotten.Sync.TimedWait
import Dotten.File.FileMode
import Dotten.Process.CommandLine
import Dotten.Process.TenProcess
import Dotten.Process.ArgumentVector
import Dotten.Library.IndexLoop
import Dotten.Encoding.IndexedCodecs
import Dotten.Encoding.SizingPasses
import Dotten.Library.CursorMoves
import Dotten.Json.TenJsonCursor
import Dotten.Json.JsonCursor
import Dotten.Json.JsonCursorSuffix
import Dotten.Library.Ownership
import Dotten.Library.Erasure
import Dotten.Memory.Heap
import Dotten.Memory.OwnedString
import Dotten.Memory.OwnedList
import Dotten.Memory.OwnedMap
import Dotten.Memory.OwnedMapCalls
import Dotten.Memory.OwnedJson
import Dotten.Memory.OwnedJsonLifetime
import Dotten.Memory.OwnedJsonCreate
import Dotten.Memory.OwnedJsonSetters
import Dotten.Memory.OwnedMapForget
import Dotten.Memory.OwnedJsonForget
import Dotten.Memory.OwnedJsonParser
import Dotten.Memory.OwnedJsonParserBlocks
import Dotten.Memory.OwnedJsonStringify
import Dotten.Memory.JsonClient
import Dotten.Memory.JsonClientRuns
import Dotten.Library.Potential
import Dotten.ThreadPool.PoolProgress
import Dotten.ThreadPool.PoolTermination
import Dotten.Memory.OwnedBuffer
import Dotten.Memory.OwnedHttpHeaders
import Dotten.Memory.OwnedHttpMessages
import Dotten.Memory.OwnedHttpSending
import Dotten.Http.HttpExchanges
import Dotten.Memory.OwnedHttpReading
import Dotten.Memory.OwnedHttpConnections
import Dotten.Memory.HttpClient
import Dotten.Http.HttpArrival
import Dotten.Http.HttpShortReception
import Dotten.Json.JsonRelease
import Dotten.Containers.TenMapOrder
import Dotten.Json.JsonLayout
import Dotten.Json.JsonAttempts
