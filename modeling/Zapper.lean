import Zapper.Lib.Channel
import Zapper.Lib.ShiftRegister
import Zapper.Lib.WhileLoop
import Zapper.Lib.Transition
import Zapper.Lib.Memory
import Zapper.Lib.RecordWalk
import Zapper.Lib.Printf
import Zapper.Lib.CString
import Zapper.Lib.CyclicCode
import Zapper.Lib.Progress
import Zapper.Lib.Handles
import Zapper.Tables
import Zapper.TableParser
import Zapper.Section.Format
import Zapper.Section.Pat
import Zapper.Section.PatSlots
import Zapper.Section.Pmt
import Zapper.Section.PmtReads
import Zapper.Section.Sdt
import Zapper.Section.Broadcast
import Zapper.FilterCallback
import Zapper.Section.PmtStores
import Zapper.Section.PmtDelivery
import Zapper.Graphics
import Zapper.Tdp
import Zapper.TdpCalls
import Zapper.Checksum
import Zapper.SectionReceiver
import Zapper.Section.Reception
import Zapper.Stream.Player
import Zapper.Stream.State
import Zapper.Stream.Loop
import Zapper.Stream.Main
import Zapper.Stream.System
import Zapper.Stream.Phases
import Zapper.Stream.Stores
import Zapper.Stream.Drawing
import Zapper.Stream.Counter
import Zapper.Stream.Commands
import Zapper.Stream.ProgramList
import Zapper.Stream.Waits
import Zapper.Stream.Bookkeeping
import Zapper.ConfigParser
import Zapper.ConfigOrder
import Zapper.Stream.Screen
import Zapper.Stream.Switching
import Zapper.Stream.Signals
import Zapper.Stream.EarlyKeys
import Zapper.Stream.Volume
import Zapper.Stream.Checks
import Zapper.Stream.Locks
import Zapper.Stream.BlackScreen
import Zapper.Stream.Teardown
import Zapper.Stream.Ledger
import Zapper.Stream.Process
import Zapper.Stream.Playing
import Zapper.Stream.Requests
import Zapper.Stream.Client
import Zapper.Stream.Lively
import Zapper.Stream.Deadlock
import Zapper.Stream.Shutdown
import Zapper.Overlays
import Zapper.Texts
