import Httpuv.CallbackQueue
import Httpuv.Servers
import Httpuv.WebSockets.Delivery
import Httpuv.WebSockets.CloseEcho
import Httpuv.WebSockets.SentFrames
import Httpuv.WebSockets.Hixie76Reads
import Httpuv.Http.Buffering
import Httpuv.Http.AfterClose
import Httpuv.Http.BodyFailure
import Httpuv.Http.CompressedBody
import Httpuv.Http.ContentCoding
import Httpuv.Static.LongestMatch
import Httpuv.Static.NotModified
import Httpuv.Static.CompleteOptions
import Httpuv.Static.HttpDates
import Httpuv.Static.UriRoundTrip
import Httpuv.Static.Spellings
import Httpuv.Http.ResponseCallback
import Httpuv.Http.RookCall
import Httpuv.Http.BodyErrors
import Httpuv.Http.Refusal
import Httpuv.Framing.Codings
import Httpuv.Http.HeaderBlocks
import Httpuv.Http.KeyArrival
import Httpuv.Static.ContentTypes
import Httpuv.Static.NormalizedNames
import Httpuv.WebSockets.Base64
import Httpuv.Sockets
import Httpuv.Parser.Calls
import Httpuv.Parser.SmoothReads
import Httpuv.Parser.HeaderNames
