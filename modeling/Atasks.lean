import Atasks.Amqp.BadMessage
import Atasks.Amqp.Connect
import Atasks.Amqp.Correlation
import Atasks.Commands.Decorators
import Atasks.Commands.Generate
import Atasks.Commands.Preserved
import Atasks.Commands.SourcePaths
import Atasks.Commands.Health
import Atasks.Commands.Options
import Atasks.Commands.Main
import Atasks.Commands.Shutdown
import Atasks.Commands.Phases
import Atasks.Commands.SharedBroker
import Atasks.Commands.WatchdogBound
import Atasks.Loopback.Sends
import Atasks.Registry.Process
import Atasks.Router.Failure
import Atasks.Router.Reconnect
import Atasks.Router.Stub
import Atasks.Amqp.Answer
import Atasks.Amqp.Deployments
import Atasks.Amqp.Handled
import Atasks.Amqp.Fleet
import Atasks.Amqp.NoDeadlock
import Atasks.Amqp.Outcomes
import Atasks.Trace.Depth
import Atasks.Trace.Filter
import Atasks.Trace.Frames
import Atasks.Trace.Printed
import Atasks.Trace.Reported
import Atasks.Amqp.Accounted
