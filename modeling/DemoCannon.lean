import DemoCannon.Lib.Program
import DemoCannon.Lib.Run
import DemoCannon.Framing
import DemoCannon.Sequencing
import DemoCannon.Operator
import DemoCannon.Shutdown
import DemoCannon.Calibration
import DemoCannon.Completion
import DemoCannon.Signals
import DemoCannon.Scans
import DemoCannon.Deadlock
import DemoCannon.Connection
import DemoCannon.Display
import DemoCannon.Corners
import DemoCannon.Requests
import DemoCannon.Answers
import DemoCannon.Accounts
import DemoCannon.Tracking
import DemoCannon.Targeting
import DemoCannon.Status
import DemoCannon.Servo
import DemoCannon.AuditLog
import DemoCannon.ClientBuffer
import DemoCannon.Clicking
import DemoCannon.Passwords
import DemoCannon.Entrance
import DemoCannon.Restarts
import DemoCannon.Pulses
import DemoCannon.TlsClient
