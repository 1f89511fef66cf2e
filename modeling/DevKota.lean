import DevKota.Lab3Client
import DevKota.Lab3Listing
import DevKota.Lab3Proc
import DevKota.Lab3Remove
import DevKota.Hw3Sort
import DevKota.KernelStrings
import DevKota.Lab2Driver
import DevKota.Lab2Invariant
import DevKota.Lab2Failure
import DevKota.Lab2Armed
import DevKota.Lab2Resize
import DevKota.Lab2Table
import DevKota.Lab2Read
import DevKota.Lab2Client
import DevKota.Lab3Owners
import DevKota.Lab3System
import DevKota.Lab3Sleep
import DevKota.Lab3Wakeup
import DevKota.Lab3Chunks
import DevKota.Lab3Remaining
import DevKota.Lab3Command
import DevKota.Lab3Checked
import DevKota.Lab4Lights
import DevKota.Lab4Report
import DevKota.Lab4Load
import DevKota.Lab2Remaining
import DevKota.WrappedClock
import DevKota.CheckedStrings
import DevKota.Lab2Checked
import DevKota.Ledgers
import DevKota.Lab2Ledger
import DevKota.DevinDriver
import DevKota.DevinAlarm
import DevKota.DevinSystem
import DevKota.DevinSleep
import DevKota.Lab2OldDriver
import DevKota.Lab2OldRuns
import DevKota.Lab2Lost
import DevKota.Lifecycle
import DevKota.Lab2Load
import DevKota.MytimerLoad
import DevKota.Lab4Schedule
import DevKota.Hw3Words
import DevKota.Lab2Printed
import DevKota.Hw3Vectors
import DevKota.Lab2Faults
import DevKota.Lab2System
import DevKota.Lab2Race
