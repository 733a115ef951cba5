import EspLog.Archive
import EspLog.YearYield
import EspLog.Settings
import EspLog.Minutes
import EspLog.DailyTable
import EspLog.Access
import EspLog.Energy
import EspLog.Pulses
import EspLog.Yields
import EspLog.Meter
import EspLog.MinuteOnce
import EspLog.Graph
import EspLog.Readback
import EspLog.Divisors
import EspLog.Drift
import EspLog.Display
import EspLog.TableBytes
import EspLog.SummerTime
import EspLog.Power
import EspLog.Address
import EspLog.Offset
import EspLog.Deletion
import EspLog.SendFhem
import EspLog.JsonPage
import EspLog.Buffer
import EspLog.Rows
import EspLog.YieldPage
import EspLog.Unwritten
import EspLog.Uploads
import EspLog.Forms
import EspLog.HostAddress
import EspLog.EmptyFields
import EspLog.Connections
import EspLog.UpdateServer
import EspLog.FhemMessages
import EspLog.SetupForms
import EspLog.Downloads
import EspLog.NtpClient
import EspLog.NtpClock
import EspLog.LogFile
