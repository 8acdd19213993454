import Dago.Domain
import Dago.Validator
import Dago.Program
import Dago.Manager
import Dago.Worker
import Dago.System
import Dago.Coverage
import Dago.Dispatch
import Dago.Completion
import Dago.Effect
import Dago.Redelivery
import Dago.InFlight
import Dago.Interleaving
import Dago.Api
import Dago.Pool
import Dago.Termination
import Dago.WebSocket
import Dago.Discipline
import Dago.Tracker
import Dago.Safety
import Dago.Shutdown
import Dago.Streams
import Dago.Wiring
