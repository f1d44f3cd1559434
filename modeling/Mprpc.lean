import Mprpc.Client.Completion
import Mprpc.Client.Isolation
import Mprpc.Client.Limit
import Mprpc.Client.Nearest
import Mprpc.Client.LostSession
import Mprpc.Client.Shutdown
import Mprpc.Client.Sockets
import Mprpc.Client.Sweep
import Mprpc.Client.Wakeup
import Mprpc.Net.Closing
import Mprpc.Net.Heartbeat
import Mprpc.Net.EpollSet
import Mprpc.Net.InputStream
import Mprpc.Net.OutputStream
import Mprpc.Net.TimerQueue
import Mprpc.Logging.Format
import Mprpc.Logging.Handles
import Mprpc.Logging.Lines
import Mprpc.Logging.Reordering
import Mprpc.Logging.Rotation
import Mprpc.Rpc.Answering
import Mprpc.Rpc.Server
import Mprpc.Rpc.Sessions
import Mprpc.Config.Loading
import Mprpc.Config.Termination
import Mprpc.Deployment.IdleReuse
import Mprpc.Deployment.Discovery
import Mprpc.Deployment.Naming
import Mprpc.Deployment.RemoteCalls
import Mprpc.Deployment.Routing
import Mprpc.Deployment.Startup
import Mprpc.Deployment.CallMethod
import Mprpc.Deployment.Waiting
import Mprpc.Example.StressTest
import Mprpc.Threads.Fifo
import Mprpc.Threads.Tasks
import Mprpc.Threads.Closed
import Mprpc.Transition.Core
