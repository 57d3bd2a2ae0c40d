import JetsonPerception.Camera.Discard
import JetsonPerception.Camera.Handles
import JetsonPerception.Camera.Image
import JetsonPerception.Camera.Shutdown
import JetsonPerception.Camera.Silence
import JetsonPerception.Camera.Warmup
import JetsonPerception.Console.Codec
import JetsonPerception.Console.Connection
import JetsonPerception.Console.Feed
import JetsonPerception.Console.Files
import JetsonPerception.Console.Lock
import JetsonPerception.Console.Reader
import JetsonPerception.Console.Stalled
import JetsonPerception.Console.Urls
import JetsonPerception.Console.Viewer
import JetsonPerception.Detector.Outputs
import JetsonPerception.Jitter
