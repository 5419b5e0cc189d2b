import Lynx.Theory.Run
import Lynx.Log.LoggerConfig
import Lynx.Repl.Session
import Lynx.Repl.Monitor
import Lynx.Repl.Broadcast
import Lynx.Config.Document
import Lynx.Theory.PathResolution
import Lynx.Config.Files
import Lynx.Config.Parse
import Lynx.Config.RoundTrip
import Lynx.Config.Persistence
import Lynx.Theory.DescriptorTable
import Lynx.Log.DailyFileSink
import Lynx.Daemon.Process
import Lynx.Daemon.Descriptors
import Lynx.Daemon.Service
import Lynx.Daemon.Paths
import Lynx.Daemon.LogBuffer
import Lynx.Theory.TimerQueue
import Lynx.Countdown.Handlers
import Lynx.Countdown.Bounds
import Lynx.Countdown.Restart
import Lynx.Theory.OutputStream
import Lynx.Config.WriteFaults
import Lynx.Config.SafeWrite
import Lynx.Config.Views
import Lynx.Cli.Completion
import Lynx.Cli.Editing
import Lynx.Cli.FileSession
import Lynx.Repl.Commands
import Lynx.Repl.Endings
import Lynx.Repl.Screens
