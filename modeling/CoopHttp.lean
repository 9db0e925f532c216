import CoopHttp.Coroutine.Script
import CoopHttp.Frame.Source
import CoopHttp.Interest
import CoopHttp.Main
import CoopHttp.Proofs.Connection.Guard
import CoopHttp.Proofs.Connection.Safety
import CoopHttp.Proofs.Frame.HeadEnd
import CoopHttp.Proofs.Frame.Pipeline
import CoopHttp.Proofs.Frame.Search
import CoopHttp.Proofs.Scheduler.Arming
import CoopHttp.Proofs.Scheduler.Delivery
import CoopHttp.Proofs.Scheduler.Wishes
import CoopHttp.Proofs.Timer.History
import CoopHttp.Proofs.Timer.Places
import CoopHttp.Task.Script
import CoopHttp.Proofs.Scheduler.Expiry
import CoopHttp.Proofs.Frame.Renewal
import CoopHttp.Proofs.Frame.Bounds
import CoopHttp.Proofs.Head.ResponseText
import CoopHttp.Proofs.Head.ResponseFraming
import CoopHttp.Proofs.Payload.Declared
import CoopHttp.Proofs.Frame.HeadLimit
import CoopHttp.Proofs.Frame.Refusal
import CoopHttp.Proofs.Timer.Punctuality
import CoopHttp.Proofs.Task.Writing
import CoopHttp.Proofs.Scheduler.Stickiness
import CoopHttp.Proofs.Connection.Closing
import CoopHttp.Proofs.Connection.Interim
import CoopHttp.Proofs.Arena.History
import CoopHttp.Proofs.Coroutine.Segments
import CoopHttp.Proofs.Frame.Ending
import CoopHttp.Proofs.Echo
import CoopHttp.Proofs.Chunked.SizeSpelling
import CoopHttp.Proofs.Chunked.Searching
import CoopHttp.Proofs.Frame.Trailers
import CoopHttp.Proofs.Head.Conversion
import CoopHttp.Proofs.Interest.TwoSets
import CoopHttp.Proofs.Server.RoundTrip
